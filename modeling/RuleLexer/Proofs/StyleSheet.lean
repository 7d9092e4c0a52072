import RuleLexer.Proofs.StyleDefinition
import RuleLexer.Style.Sheet

/-! Style sheets. The categories are resolved one after the other, and each finds its parent
resolved; what a sheet gives a category is then what inheritance says it is. -/
namespace RuleLexer

namespace Category

theorem mem_all (c : Category) : c ∈ all := by cases c <;> decide

theorem index_inj {c d : Category} : c.index = d.index ↔ c = d :=
  List.idxOf_inj (mem_all c)

theorem parent?_eq_none {c : Category} : c.parent? = none ↔ c = token := by
  cases c <;> simp [parent?]

/-- The parent of each category is known when its turn comes. -/
def parentsFirst (known : List Category) : List Category → Bool
  | [] => true
  | c :: rest => c.parent?.all known.contains && parentsFirst (known ++ [c]) rest

theorem parentsFirst_all : parentsFirst [] all := by decide

end Category

/-! Search in a list in order -/

section search
variable {α : Type} (key : α → Nat) {as : Array α}
  (hsorted : ∀ (i j : Nat) (a b : α), i ≤ j → as[i]? = some a → as[j]? = some b → key a ≤ key b) (k : α)
include hsorted

theorem isSome_binSearchAux (lo : Fin (as.size + 1)) (hi : Fin as.size) (h : lo.1 ≤ hi.1) :
    Array.binSearchAux (fun a b => key a < key b) Option.isSome as k lo hi h ↔
      ∃ i a, as[i]? = some a ∧ lo.1 ≤ i ∧ i ≤ hi.1 ∧ key a = key k := by
  fun_induction Array.binSearchAux (fun a b => decide (key a < key b)) Option.isSome as k lo hi h with
  | case1 lo hi h m middle hless hmore _ ih =>
    have hless : key middle < key k := of_decide_eq_true hless
    have hmiddle : as[m]? = some middle := Array.getElem?_eq_getElem _
    refine ih.trans (exists_congr fun i => exists_congr fun a => and_congr_right fun ha => ?_)
    have hbefore : i ≤ m → key a ≤ key middle := fun him => hsorted i m a middle him ha hmiddle
    dsimp only
    omega
  | case2 lo hi h m middle hless hmore =>
    have hless : key middle < key k := of_decide_eq_true hless
    have hmiddle : as[m]? = some middle := Array.getElem?_eq_getElem _
    refine iff_of_false (by simp) ?_
    rintro ⟨i, a, ha, hlow, hhigh, hkey⟩
    have hbefore := hsorted i m a middle (by omega) ha hmiddle
    omega
  | case3 lo hi h m middle hless hmore hfirst =>
    have hmore : key k < key middle := of_decide_eq_true hmore
    have hmiddle : as[m]? = some middle := Array.getElem?_eq_getElem _
    refine iff_of_false (by simp) ?_
    rintro ⟨i, a, ha, hlow, hhigh, hkey⟩
    have hbehind := hsorted m i middle a (by omega) hmiddle ha
    omega
  | case4 lo hi h m middle hless hmore hfirst _ ih =>
    have hmore : key k < key middle := of_decide_eq_true hmore
    have hmiddle : as[m]? = some middle := Array.getElem?_eq_getElem _
    refine ih.trans (exists_congr fun i => exists_congr fun a => and_congr_right fun ha => ?_)
    have hbehind : m ≤ i → key middle ≤ key a := fun hmi => hsorted m i middle a hmi hmiddle ha
    dsimp only
    omega
  | case5 lo hi h m middle hless hmore =>
    have hless : ¬key middle < key k := by simpa using hless
    have hmore : ¬key k < key middle := by simpa using hmore
    exact iff_of_true rfl ⟨m, middle, Array.getElem?_eq_getElem _, by omega, by omega, by omega⟩

theorem binSearchContains_iff :
    as.binSearchContains k (fun a b => key a < key b) ↔ ∃ a ∈ as, key a = key k := by
  simp only [Array.mem_iff_getElem?]
  rw [Array.binSearchContains]
  split
  · next hsize =>
    have hlast : as.size - 1 < as.size := Nat.sub_lt hsize Nat.one_pos
    simp only [Nat.zero_le, ↓reduceDIte, hlast, ↓reduceIte]
    refine (isSome_binSearchAux key hsorted k _ _ _).trans ?_
    constructor
    · rintro ⟨i, a, ha, -, -, hkey⟩
      exact ⟨a, ⟨i, ha⟩, hkey⟩
    · rintro ⟨a, ⟨i, ha⟩, hkey⟩
      have hi : i < as.size := (Array.getElem?_eq_some_iff.1 ha).1
      exact ⟨i, a, ha, Nat.zero_le i, Nat.le_sub_one_of_lt hi, hkey⟩
  · next hsize =>
    refine iff_of_false (by simp) ?_
    rintro ⟨a, ⟨i, ha⟩, -⟩
    exact hsize (Nat.zero_lt_of_lt (Array.getElem?_eq_some_iff.1 ha).1)

end search

theorem exists_eraseReps {α : Type} [BEq α] [LawfulBEq α] (a : α) (as acc : List α) :
    ∃ kept, List.eraseRepsBy.loop (· == ·) a as acc = acc.reverse ++ a :: kept ∧
      kept.Sublist as ∧ ∀ b ∈ as, b ∈ a :: kept := by
  induction as generalizing a acc with
  | nil => exact ⟨[], by simp [List.eraseRepsBy.loop]⟩
  | cons b rest ih =>
    rw [List.eraseRepsBy.loop]
    split
    · next heq =>
      obtain ⟨kept, hloop, hsublist, hkept⟩ := ih a acc
      refine ⟨kept, hloop, hsublist.cons b, List.forall_mem_cons.2 ⟨?_, hkept⟩⟩
      rw [← beq_iff_eq.1 heq]
      exact List.mem_cons_self
    · obtain ⟨kept, hloop, hsublist, hkept⟩ := ih b (a :: acc)
      refine ⟨b :: kept, by simp [hloop], hsublist.cons_cons b, List.forall_mem_cons.2 ⟨by simp, ?_⟩⟩
      exact fun other hother => List.mem_cons_of_mem a (hkept other hother)

theorem eraseReps_sublist {α : Type} [BEq α] [LawfulBEq α] (as : List α) :
    as.eraseReps.Sublist as := by
  cases as with
  | nil => exact List.Sublist.refl []
  | cons a as =>
    obtain ⟨kept, hloop, hsublist, -⟩ := exists_eraseReps a as []
    show (List.eraseRepsBy.loop (· == ·) a as []).Sublist (a :: as)
    rw [hloop]
    exact hsublist.cons_cons a

theorem mem_eraseReps {α : Type} [BEq α] [LawfulBEq α] {a : α} {as : List α} :
    a ∈ as.eraseReps ↔ a ∈ as := by
  refine ⟨fun h => (eraseReps_sublist as).subset h, fun h => ?_⟩
  cases as with
  | nil => cases h
  | cons b as =>
    obtain ⟨kept, hloop, -, hkept⟩ := exists_eraseReps b as []
    show a ∈ List.eraseRepsBy.loop (· == ·) b as []
    rw [hloop]
    exact List.forall_mem_cons.2 ⟨List.mem_cons_self, hkept⟩ a h

namespace StyleSheet

/-! Definitions -/

section definitions
variable {definitions : Definitions} {c : Category} {d : String}

def IsLast (definitions : Definitions) (c : Category) (d : String) : Prop :=
  ∃ before after, definitions = before ++ (c, d) :: after ∧ c ∉ after.map Prod.fst

theorem not_mem_keys {definitions : Definitions} :
    (∀ p ∈ definitions, c != p.1) ↔ c ∉ definitions.map Prod.fst := by
  simp only [bne_iff_ne, List.mem_map, not_exists, not_and, ne_comm, ne_eq]

theorem definition?_eq_some : definition? definitions c = some d ↔ IsLast definitions c d := by
  rw [definition?, List.lookup_eq_some_iff]
  constructor
  · rintro ⟨after, before, hsplit, hnone⟩
    refine ⟨before.reverse, after.reverse, ?_, by simpa using not_mem_keys.1 hnone⟩
    rw [← List.reverse_reverse definitions, hsplit]
    simp
  · rintro ⟨before, after, rfl, hnone⟩
    exact ⟨after.reverse, before.reverse, by simp, not_mem_keys.2 (by simpa using hnone)⟩

theorem definition?_eq_none : definition? definitions c = none ↔ ∀ d, (c, d) ∉ definitions := by
  rw [definition?, List.lookup_eq_none_iff]
  exact not_mem_keys.trans (by simp)

theorem mem_inOrder {categories : List Category} : c ∈ inOrder categories ↔ c ∈ categories :=
  mem_eraseReps.trans List.mem_mergeSort

theorem pairwise_inOrder (categories : List Category) :
    (inOrder categories).Pairwise fun a b => a.index ≤ b.index := by
  have hsorted := @List.pairwise_mergeSort Category (fun a b => decide (a.index ≤ b.index))
    (by simpa using fun a b c => Nat.le_trans) (by simpa using fun a b => Nat.le_total _ _) categories
  simp only [decide_eq_true_eq] at hsorted
  exact hsorted.sublist (eraseReps_sublist _)

end definitions

/-! Resolving -/

section resolve
variable {base : Style} {definitions : Definitions} {styles styles' : List (Category × Style)}
  {c : Category} {above s : Style}

/-- Above a category stands the style of its parent, and above the root that of the whole sheet. -/
def Above (base : Style) (styles : List (Category × Style)) (c : Category) (above : Style) : Prop :=
  match c.parent? with
  | none => above = base
  | some parent => styles.lookup parent = some above

def Given (base : Style) (definitions : Definitions) (c : Category) (above s : Style) : Prop :=
  match definition? definitions c with
  | none => s = above
  | some d => Style.define c base above d = .ok s

theorem Above.inherited_eq (h : Above base styles c above) : inherited base styles c = above := by
  rw [Above] at h
  rw [inherited]
  split at h
  · next hnone => simp [hnone, h]
  · next parent hparent => simp [hparent, h]

theorem exists_above (h : ∀ p ∈ c.parent?, p ∈ styles.map Prod.fst) :
    ∃ above, Above base styles c above := by
  simp only [Above]
  cases hparent : c.parent? with
  | none => exact ⟨base, rfl⟩
  | some parent =>
    obtain ⟨p, hp, hfst⟩ := List.mem_map.1 (h parent hparent)
    exact Option.isSome_iff_exists.1 (List.lookup_isSome_iff.2 ⟨p, hp, by simp [hfst]⟩)

theorem Above.append (h : Above base styles c above) (more : List (Category × Style)) :
    Above base (styles ++ more) c above := by
  rw [Above] at h ⊢
  split
  · next hnone => simpa [hnone] using h
  · next parent hparent =>
    simp only [hparent] at h
    rw [List.lookup_append, h, Option.some_or]

theorem resolve_ok_iff : resolve base definitions styles c = .ok styles' ↔
    ∃ s, Given base definitions c (inherited base styles c) s ∧ styles' = styles ++ [(c, s)] := by
  simp only [resolve, Given]
  cases definition? definitions c with
  | none =>
    rw [bind_ok]
    simp [eq_comm]
  | some d =>
    rw [bind_ok]
    simp [eq_comm]

theorem exists_given : (∃ s, Given base definitions c above s) ↔
    ∀ d, definition? definitions c = some d → Style.WellFormed d := by
  simp only [Given]
  cases definition? definitions c with
  | none => simp
  | some d => simpa using Style.exists_define

/-- What has been resolved is as inheritance says, and what it inherits from has been, too. -/
structure Sound (base : Style) (definitions : Definitions) (styles : List (Category × Style)) :
    Prop where
  given : ∀ c s, styles.lookup c = some s →
    ∃ above, Above base styles c above ∧ Given base definitions c above s
  colored : ∀ c s, styles.lookup c = some s → s.WellColored

theorem sound_nil : Sound base definitions [] := by
  have hnone : ∀ c s, ([] : List (Category × Style)).lookup c ≠ some s := by simp
  exact ⟨fun c s h => absurd h (hnone c s), fun c s h => absurd h (hnone c s)⟩

namespace Sound
variable (h : Sound base definitions styles) (hbase : base.WellColored)
include h hbase

theorem colored_above (habove : Above base styles c above) : above.WellColored := by
  rw [Above] at habove
  split at habove
  · rwa [habove]
  · exact h.colored _ _ habove

theorem resolve (hparent : ∀ p ∈ c.parent?, p ∈ styles.map Prod.fst)
    (hresolve : resolve base definitions styles c = .ok styles') :
    Sound base definitions styles' ∧ styles'.map Prod.fst = styles.map Prod.fst ++ [c] := by
  obtain ⟨s, hgiven, rfl⟩ := resolve_ok_iff.1 hresolve
  obtain ⟨above, habove⟩ : ∃ above, Above base styles c above := exists_above hparent
  rw [habove.inherited_eq] at hgiven
  have hlookup : ∀ d s', (styles ++ [(c, s)]).lookup d = some s' →
      styles.lookup d = some s' ∨ d = c ∧ s' = s := by
    intro d s' hsome
    rw [List.lookup_append, Option.or_eq_some_iff] at hsome
    refine hsome.imp_right fun ⟨_, hlast⟩ => ?_
    rw [List.lookup_cons] at hlast
    split at hlast
    · next heq => exact ⟨beq_iff_eq.1 heq, (Option.some.inj hlast).symm⟩
    · cases hlast
  refine ⟨⟨fun d s' hsome => ?_, fun d s' hsome => ?_⟩, by simp⟩
  · rcases hlookup d s' hsome with hsome | ⟨rfl, rfl⟩
    · obtain ⟨above', habove', hgiven'⟩ := h.given d s' hsome
      exact ⟨above', habove'.append _, hgiven'⟩
    · exact ⟨above, habove.append _, hgiven⟩
  · rcases hlookup d s' hsome with hsome | ⟨rfl, rfl⟩
    · exact h.colored d s' hsome
    · rw [Given] at hgiven
      split at hgiven
      · exact hgiven ▸ h.colored_above hbase habove
      · exact Style.wellColored_define hbase (h.colored_above hbase habove) hgiven

theorem run {rest : List Category} (hfirst : Category.parentsFirst (styles.map Prod.fst) rest)
    (hrun : rest.foldlM (StyleSheet.resolve base definitions) styles = .ok styles') :
    Sound base definitions styles' ∧ styles'.map Prod.fst = styles.map Prod.fst ++ rest := by
  induction rest generalizing styles with
  | nil =>
    cases hrun
    exact ⟨h, by simp⟩
  | cons c rest ih =>
    rw [List.foldlM_cons] at hrun
    obtain ⟨next, hnext, hrest⟩ := bind_ok.1 hrun
    simp only [Category.parentsFirst, Bool.and_eq_true, Option.all_eq_true] at hfirst
    obtain ⟨hparent, hfirst⟩ := hfirst
    obtain ⟨hsound, hkeys⟩ := h.resolve hbase
      (fun p hp => List.contains_iff_mem.1 (hparent p hp)) hnext
    rw [← hkeys] at hfirst
    obtain ⟨hsound', hkeys'⟩ := ih hsound hfirst hrest
    exact ⟨hsound', by simp [hkeys', hkeys]⟩

end Sound

theorem exists_run {rest : List Category} :
    (∃ styles', rest.foldlM (resolve base definitions) styles = .ok styles') ↔
      ∀ c ∈ rest, ∀ d, definition? definitions c = some d → Style.WellFormed d := by
  induction rest generalizing styles with
  | nil => exact iff_of_true ⟨styles, rfl⟩ (by simp)
  | cons c rest ih =>
    simp only [List.foldlM_cons, List.forall_mem_cons]
    constructor
    · rintro ⟨final, hrun⟩
      obtain ⟨next, hnext, hrest⟩ := bind_ok.1 hrun
      obtain ⟨s, hgiven, -⟩ := resolve_ok_iff.1 hnext
      exact ⟨exists_given.1 ⟨s, hgiven⟩, ih.1 ⟨final, hrest⟩⟩
    · rintro ⟨hfirst, hothers⟩
      obtain ⟨s, hgiven⟩ := exists_given.2 hfirst
      obtain ⟨final, hrest⟩ := ih.2 hothers
      exact ⟨final, bind_ok.2 ⟨_, resolve_ok_iff.2 ⟨s, hgiven, rfl⟩, hrest⟩⟩

end resolve

/-! Sheets -/

section sheets
variable {name whole : String} {definitions : Definitions} {sheet : StyleSheet}

theorem ofDefinitions_ok_iff : ofDefinitions name whole definitions = .ok sheet ↔
    ∃ base styles, Style.define .token {} {} whole = .ok base ∧
      Category.all.foldlM (resolve base definitions) [] = .ok styles ∧
      sheet = { name, defined := (inOrder (definitions.map Prod.fst)).toArray, styles } := by
  simp only [ofDefinitions, bind_ok, Except.ok.injEq, ← exists_and_left, eq_comm (a := sheet)]

theorem exists_ofDefinitions : (∃ sheet, ofDefinitions name whole definitions = .ok sheet) ↔
    Style.WellFormed whole ∧ ∀ c d, IsLast definitions c d → Style.WellFormed d := by
  constructor
  · rintro ⟨sheet, h⟩
    obtain ⟨base, styles, hbase, hrun, -⟩ := ofDefinitions_ok_iff.1 h
    refine ⟨Style.exists_define.1 ⟨base, hbase⟩, fun c d hlast => ?_⟩
    exact exists_run.1 ⟨styles, hrun⟩ c c.mem_all d (definition?_eq_some.2 hlast)
  · rintro ⟨hwhole, hall⟩
    obtain ⟨base, hbase⟩ := Style.exists_define.2 hwhole
    obtain ⟨styles, hrun⟩ := exists_run.2 fun c _ d hd => hall c d (definition?_eq_some.1 hd)
    exact ⟨_, ofDefinitions_ok_iff.2 ⟨base, styles, hbase, hrun, rfl⟩⟩

theorem style_eq {c : Category} {s : Style} (h : sheet.styles.lookup c = some s) :
    sheet.style c = s := by
  have hancestors : c.ancestors = c :: _ := rfl
  rw [style, hancestors, List.findSome?_cons, h]
  rfl

def above (sheet : StyleSheet) (base : Style) (c : Category) : Style :=
  match c.parent? with
  | none => base
  | some parent => sheet.style parent

theorem Above.above_eq {base above : Style} {c : Category}
    (h : Above base sheet.styles c above) : sheet.above base c = above := by
  rw [Above] at h
  rw [StyleSheet.above]
  split at h
  · exact h.symm
  · exact style_eq h

theorem given_of_ok (h : ofDefinitions name whole definitions = .ok sheet) :
    ∃ base, Style.define .token {} {} whole = .ok base ∧ ∀ c : Category,
      Given base definitions c (sheet.above base c) (sheet.style c) ∧
        (sheet.style c).WellColored := by
  obtain ⟨base, styles, hbase, hrun, hsheet⟩ := ofDefinitions_ok_iff.1 h
  obtain rfl : sheet.styles = styles := congrArg StyleSheet.styles hsheet
  have hcolored := Style.wellColored_define Style.wellColored_empty Style.wellColored_empty hbase
  obtain ⟨hsound, hkeys⟩ := sound_nil.run hcolored Category.parentsFirst_all hrun
  refine ⟨base, hbase, fun c => ?_⟩
  obtain ⟨p, hp, rfl⟩ : ∃ p ∈ sheet.styles, p.1 = c := by
    rw [← List.mem_map, hkeys]
    exact c.mem_all
  obtain ⟨s, hs⟩ := Option.isSome_iff_exists.1
    (List.lookup_isSome_iff.2 ⟨p, hp, beq_self_eq_true p.1⟩)
  obtain ⟨above, habove, hgiven⟩ := hsound.given _ _ hs
  rw [style_eq hs, habove.above_eq]
  exact ⟨hgiven, hsound.colored _ _ hs⟩

theorem defines_iff {c : Category} (h : ofDefinitions name whole definitions = .ok sheet) :
    sheet.defines c ↔ ∃ d, (c, d) ∈ definitions := by
  obtain ⟨_, _, -, -, rfl⟩ := ofDefinitions_ok_iff.1 h
  have hpairwise := List.pairwise_iff_getElem.1 (pairwise_inOrder (definitions.map Prod.fst))
  refine (binSearchContains_iff Category.index (fun i j a b hij ha hb => ?_) c).trans ?_
  · rw [List.getElem?_toArray, List.getElem?_eq_some_iff] at ha hb
    obtain ⟨hi, rfl⟩ := ha
    obtain ⟨hj, rfl⟩ := hb
    rcases Nat.lt_or_eq_of_le hij with hij | rfl
    · exact hpairwise i j hi hj hij
    · exact Nat.le_refl _
  · simp [Category.index_inj, mem_inOrder]

end sheets

/-- A category without a definition is shown as its parent is, and the last definition of one is
applied to the style of its parent, or to that of the whole sheet. All colors are six digits. There
is no sheet only if the definition of the whole or the last one of a category is not well
formed. -/
theorem styles_inherit (name whole : String) (definitions : Definitions) :
    ((∃ error, ofDefinitions name whole definitions = .error error) ↔
      ¬Style.WellFormed whole ∨ ∃ c d, IsLast definitions c d ∧ ¬Style.WellFormed d) ∧
    ∀ sheet, ofDefinitions name whole definitions = .ok sheet →
      ∃ words, Style.read .token whole = .ok words ∧ ∀ c : Category,
        let base := words.foldl Style.set {}
        ((∀ d, (c, d) ∉ definitions) → sheet.style c = sheet.above base c) ∧
        (∀ d, IsLast definitions c d → ∃ words, Style.read c d = .ok words ∧
          sheet.style c = words.foldl Style.set
            (if c = .token ∨ "noinherit".toList ∈ Text.words d.toList then base
              else sheet.above base c)) ∧
        (sheet.style c).WellColored ∧ (sheet.defines c ↔ ∃ d, (c, d) ∈ definitions) := by
  refine ⟨?_, fun sheet h => ?_⟩
  · have hfails : (∃ error, ofDefinitions name whole definitions = .error error) ↔
        ¬∃ sheet, ofDefinitions name whole definitions = .ok sheet := by
      cases ofDefinitions name whole definitions <;> simp
    rw [hfails, exists_ofDefinitions, not_and_or]
    simp only [not_forall, exists_prop]
  · obtain ⟨base, hbase, hall⟩ := given_of_ok h
    obtain ⟨words, hwords, hfold⟩ := Style.define_ok_iff.1 hbase
    rw [ite_self] at hfold
    refine ⟨words, hwords, fun c => ?_⟩
    obtain ⟨hgiven, hcolored⟩ := hall c
    intro base'
    obtain rfl : base = base' := hfold
    refine ⟨fun hnone => ?_, fun d hlast => ?_, hcolored, defines_iff h⟩
    · rwa [Given, definition?_eq_none.2 hnone] at hgiven
    · rw [Given, definition?_eq_some.2 hlast] at hgiven
      obtain ⟨words, hread, hs⟩ := Style.define_ok_iff.1 hgiven
      refine ⟨words, hread, hs.trans ?_⟩
      by_cases hroot : c = .token
      · have habove : sheet.above base' c = base' := by
          rw [above, Category.parent?_eq_none.2 hroot]
        rw [habove, ite_self, ite_self]
      · simp only [hroot, false_or]

end StyleSheet

end RuleLexer
