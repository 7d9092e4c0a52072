import Mathlib.Data.List.Forall2
import RuleLexer.Proofs.Reading

/-! Reading a class in brackets, by itself and with more text behind it. The reader of classes is a
machine of its own; the two runs keep their items and frames alike. A class that is left open takes
the parenthesis behind it for one of its characters, and then nothing is left that could close
it. -/
namespace RuleLexer.Regex

def Nested.Alike {α β : Type} (V : α → β → Prop) (a : Nested α) (b : Nested β) : Prop :=
  a.depth = b.depth ∧ V a.value b.value

section nested
variable {α β γ δ : Type} {V : α → β → Prop} {W : γ → δ → Prop}

theorem Nested.Alike.flat {a : α} {b : β} (h : V a b) :
    (Nested.flat a).Alike V (Nested.flat b) := ⟨rfl, h⟩

theorem map_depth_eq {parts : List (Nested α)} {parts' : List (Nested β)}
    (h : List.Forall₂ (Nested.Alike V) parts parts') :
    parts.map Nested.depth = parts'.map Nested.depth := by
  induction h with
  | nil => rfl
  | cons hpart _ ih => rw [List.map_cons, List.map_cons, hpart.1, ih]

theorem forall₂_value {parts : List (Nested α)} {parts' : List (Nested β)}
    (h : List.Forall₂ (Nested.Alike V) parts parts') :
    List.Forall₂ V (parts.map Nested.value) (parts'.map Nested.value) := by
  induction h with
  | nil => exact .nil
  | cons hpart _ ih => exact .cons hpart.2 ih

theorem Nested.Alike.gather {f : List α → γ} {f' : List β → δ}
    (hf : ∀ values values', List.Forall₂ V values values' → W (f values) (f' values'))
    {parts : List (Nested α)} {parts' : List (Nested β)}
    (h : List.Forall₂ (Nested.Alike V) parts parts') :
    (Nested.gather f parts).Alike W (Nested.gather f' parts') := by
  have hdepth := map_depth_eq h
  have hvalue := List.rel_reverse (forall₂_value h)
  cases h with
  | nil => exact ⟨rfl, hf _ _ .nil⟩
  | cons hpart hrest =>
    cases hrest with
    | nil => exact ⟨hpart.1, hf _ _ (.cons hpart.2 .nil)⟩
    | cons hpart' hrest =>
      refine ⟨?_, hf _ _ hvalue⟩
      simp only [Nested.gather]
      rw [hdepth]

theorem same_of_forall₂ {same : Prop} {xs ys : List α} (h : List.Forall₂ (Same same) xs ys) :
    Same same xs ys := by
  intro hsame
  induction h with
  | nil => rfl
  | cons hx _ ih => rw [hx hsame, ih]

end nested

inductive ClassFrame.Alike (same : Prop) : ClassFrame → ClassFrame → Prop
  | bracket {outer outer' : List (Nested CharSet)}
      (h : List.Forall₂ (Nested.Alike (Same same)) outer outer') (negated : Bool) :
      Alike same (.bracket outer negated) (.bracket outer' negated)
  | operand (op : SetOp) {left left' : Nested CharSet} (h : left.Alike (Same same) left') :
      Alike same (.operand op left) (.operand op left')

structure ClassReader.Beside (same : Prop) (behind : List Char) (r r' : ClassReader) : Prop where
  items : List.Forall₂ (Nested.Alike (Same same)) r.items r'.items
  frames : List.Forall₂ (ClassFrame.Alike same) r.frames r'.frames
  rest : r'.rest = r.rest ++ behind

section classes
variable {behind : List Char} {same : Prop} {f g : Flags}

/-- Where an open class is in front of the closing parenthesis, or has taken it. -/
def unclosed : List (List Char) := [')'] :: spoiled

/-- What becomes of a reader of a class by a part of it. -/
abbrev CarriesReader (same : Prop) (behind : List Char) (bound : Nat) :
    Reading ClassReader → Reading ClassReader → Prop :=
  Carries (fun r r' : ClassReader => r.Beside same behind r' ∧ r.rest.length ≤ bound)
    fun _ (r' : ClassReader) => behind = [')'] → r'.rest ∈ unclosed

def negation : List Char → Bool × List Char
  | '^' :: rest => (true, rest)
  | rest => (false, rest)

def startClass (frames : List ClassFrame) :
    List (Nested CharSet) × List Char → Reading ClassReader
  | ([], ']' :: rest) =>
      if rest.isEmpty then .error .unclosedClass else .ok ⟨[.flat (.single ']')], frames, rest⟩
  | (items, rest) =>
      if rest.isEmpty then .error .unclosedClass else .ok ⟨items, frames, rest⟩

theorem openClass_eq (hblanks : f.verbose = false) (r : ClassReader) (text : List Char) :
    openClass f r text = startClass (.bracket r.items (negation text).1 :: r.frames)
      (leadingHyphens false (negation text).2.length (negation text).2 []) := by
  simp only [openClass, hblanks, skip_false]
  rfl

theorem negation_closing (h : Closing behind) (text : List Char) :
    negation (text ++ behind) = ((negation text).1, (negation text).2 ++ behind) := by
  cases text with
  | nil => rcases h.eq with rfl | ⟨more, rfl⟩ <;> rfl
  | cons c rest =>
    by_cases hc : c = '^'
    · subst hc
      rfl
    · simp [negation, hc]

theorem length_negation_le (text : List Char) : (negation text).2.length ≤ text.length := by
  unfold negation
  split
  · exact Nat.le_succ _
  · exact Nat.le_refl _

theorem leadingHyphens_closing (h : Closing behind) {text : List Char} {fuel fuel' : Nat}
    (hfuel : text.length ≤ fuel) (hfuel' : text.length ≤ fuel') (items : List (Nested CharSet)) :
    leadingHyphens false fuel' (text ++ behind) items =
      ((leadingHyphens false fuel text items).1,
        (leadingHyphens false fuel text items).2 ++ behind) ∧
      (leadingHyphens false fuel text items).2.length ≤ text.length := by
  induction text generalizing fuel fuel' items with
  | nil =>
    rcases h.eq with rfl | ⟨more, rfl⟩ <;> cases fuel <;> cases fuel' <;>
      simp [leadingHyphens]
  | cons c rest ih =>
    obtain ⟨fuel, rfl⟩ := Nat.exists_eq_succ_of_ne_zero (Nat.ne_zero_of_lt hfuel)
    obtain ⟨fuel', rfl⟩ := Nat.exists_eq_succ_of_ne_zero (Nat.ne_zero_of_lt hfuel')
    replace hfuel := Nat.le_of_succ_le_succ hfuel
    replace hfuel' := Nat.le_of_succ_le_succ hfuel'
    by_cases hc : c = '-'
    · subst hc
      obtain ⟨heq, hle⟩ := ih hfuel hfuel' (.flat (.single '-') :: items)
      exact ⟨heq, Nat.le_succ_of_le hle⟩
    · simp [leadingHyphens, hc]

theorem startClass_carries (h : Closing behind) {frames frames' : List ClassFrame}
    (hframes : List.Forall₂ (ClassFrame.Alike same) frames frames')
    (items : List (Nested CharSet)) {rest : List Char} {bound : Nat}
    (hbound : rest.length ≤ bound) :
    CarriesReader same behind bound
      (startClass frames (items, rest)) (startClass frames' (items, rest ++ behind)) := by
  have hitems (items : List (Nested CharSet)) :
      List.Forall₂ (Nested.Alike (Same same)) items items :=
    List.forall₂_same.2 fun _ _ => ⟨rfl, fun _ => rfl⟩
  have hplain (items : List (Nested CharSet)) {rest : List Char} (hle : rest.length ≤ bound) :
      CarriesReader same behind bound
        (if rest.isEmpty then .error .unclosedClass else .ok ⟨items, frames, rest⟩)
        (if (rest ++ behind).isEmpty then .error .unclosedClass
          else .ok ⟨items, frames', rest ++ behind⟩) := by
    cases rest with
    | nil =>
      refine Carries.of_error fun r hr hmore => ?_
      rw [hmore] at hr
      cases hr
      exact List.mem_cons_self
    | cons c rest => exact .ok ⟨⟨hitems _, hframes, rfl⟩, hle⟩
  by_cases hfirst : items = [] ∧ ∃ more, rest = ']' :: more
  · obtain ⟨rfl, more, rfl⟩ := hfirst
    exact hplain _ (Nat.le_of_succ_le hbound)
  · have hnot (frames : List ClassFrame) {rest : List Char}
        (hrest : items = [] → ∀ more, rest ≠ ']' :: more) :
        startClass frames (items, rest) =
          if rest.isEmpty then .error .unclosedClass else .ok ⟨items, frames, rest⟩ := by
      unfold startClass
      split
      · next heq => exact absurd (Prod.mk.inj heq).2 (hrest (Prod.mk.inj heq).1 _)
      · next heq =>
        obtain ⟨rfl, rfl⟩ := Prod.mk.inj heq
        rfl
    have hrest : items = [] → ∀ more, rest ≠ ']' :: more :=
      fun hnil more heq => hfirst ⟨hnil, more, heq⟩
    rw [hnot frames hrest, hnot frames' fun hnil more heq => ?_]
    · exact hplain items hbound
    · exact h.not_starts (by decide) (hrest hnil) more heq

theorem openClass_carries (h : Closing behind) (hflags : f.Alike same g)
    (hblanks : f.verbose = false) {r r' : ClassReader}
    (hitems : List.Forall₂ (Nested.Alike (Same same)) r.items r'.items)
    (hframes : List.Forall₂ (ClassFrame.Alike same) r.frames r'.frames) (text : List Char) :
    CarriesReader same behind text.length
      (openClass f r text) (openClass g r' (text ++ behind)) := by
  rw [openClass_eq hblanks, openClass_eq (hflags.verbose ▸ hblanks), negation_closing h]
  have hlength : (negation text).2.length ≤ ((negation text).2 ++ behind).length := by simp
  obtain ⟨heq, hle⟩ := leadingHyphens_closing h (Nat.le_refl (negation text).2.length) hlength []
  rw [heq]
  exact startClass_carries h (.cons (.bracket hitems _) hframes) _
    (Nat.le_trans hle (length_negation_le text))

theorem posixSet?_eq_none {name : List Char} (h : ')' ∈ name) : posixSet? name = none := by
  have hnot (text : String) (htext : ')' ∉ text.toList) : String.ofList name ≠ text := by
    rintro rfl
    exact htext (by rwa [String.toList_ofList])
  unfold posixSet?
  split <;> first | rfl | exact absurd ‹_› (hnot _ (by decide))

theorem posixClass?_eq (rest : List Char) : posixClass? f (':' :: rest) =
    match (negation rest).2.dropWhile (· != ':') with
      | ':' :: ']' :: after =>
          (posixSet? ((negation rest).2.takeWhile (· != ':'))).map fun s =>
            (negateIf f (negation rest).1 (foldCase f s), after)
      | _ => none := rfl

theorem posixClass?_eq_some {text after : List Char} {x : Reading CharSet} :
    posixClass? f text = some (x, after) ↔ ∃ rest s, text = ':' :: rest ∧
      (negation rest).2.dropWhile (· != ':') = ':' :: ']' :: after ∧
      posixSet? ((negation rest).2.takeWhile (· != ':')) = some s ∧
      negateIf f (negation rest).1 (foldCase f s) = x := by
  constructor
  · intro h
    cases text with
    | nil => cases h
    | cons c rest =>
      by_cases hc : c = ':'
      case neg => simp [posixClass?, hc] at h
      subst hc
      rw [posixClass?_eq] at h
      split at h
      · next hafter =>
        obtain ⟨s, hs, heq⟩ := Option.map_eq_some_iff.1 h
        cases heq
        exact ⟨rest, s, rfl, hafter, hs, rfl⟩
      · cases h
  · rintro ⟨rest, s, rfl, hafter, hs, rfl⟩
    rw [posixClass?_eq, hafter, hs]
    rfl

theorem posixClass?_append (h : Closing behind) (hflags : f.Alike same g) {text after : List Char}
    {x : Reading CharSet} (hx : posixClass? f text = some (x, after)) :
    ∃ y, posixClass? g (text ++ behind) = some (y, after ++ behind) ∧
      Carries (Same same) (fun _ _ => False) x y ∧ after.length ≤ text.length := by
  obtain ⟨rest, s, rfl, hafter, hs, rfl⟩ := posixClass?_eq_some.1 hx
  obtain ⟨htake, hdrop⟩ := takeWhile_stopped hafter behind
  refine ⟨_, posixClass?_eq_some.2 ⟨rest ++ behind, s, rfl, ?_, ?_, rfl⟩, ?_, ?_⟩
  · rw [negation_closing h, hdrop, List.cons_append]
  · rw [negation_closing h, htake, hs]
  · rw [negation_closing h]
    exact negateIf_carries hflags _ (foldCase_same hflags fun _ => rfl) _
  · have hle := length_dropWhile_le (· != ':') (negation rest).2
    have hrest := length_negation_le rest
    rw [hafter] at hle
    simp only [List.length_cons] at hle ⊢
    omega

theorem posixClass?_of_append (h : Closing behind) {text after : List Char} {y : Reading CharSet}
    (hy : posixClass? g (text ++ behind) = some (y, after)) :
    ∃ x after', posixClass? f text = some (x, after') := by
  obtain ⟨rest', s, hrest, hafter, hs, -⟩ := posixClass?_eq_some.1 hy
  obtain ⟨rest, rfl, rfl⟩ := h.starts (by decide) hrest
  rw [negation_closing h] at hafter hs
  dsimp only at hafter hs
  cases hname : (negation rest).2.dropWhile (· != ':') with
  | nil =>
    obtain ⟨htake, hdrop⟩ := takeWhile_open hname behind
    rw [hdrop] at hafter
    rcases h.eq with rfl | ⟨more, rfl⟩
    · cases hafter
    · rw [htake, posixSet?_eq_none (by simp)] at hs
      cases hs
  | cons d after' =>
    obtain ⟨htake, hdrop⟩ := takeWhile_stopped hname behind
    rw [hdrop] at hafter
    obtain ⟨rfl, hend⟩ := List.cons.inj hafter
    obtain ⟨after', rfl, -⟩ := h.starts (by decide) hend
    exact ⟨_, after', posixClass?_eq_some.2 ⟨rest, s, rfl, hname, htake ▸ hs, rfl⟩⟩

theorem posixClass?_closing (h : Closing behind) (hflags : f.Alike same g) (text : List Char) :
    (posixClass? f text = none ∧ posixClass? g (text ++ behind) = none) ∨
      ∃ x y after, posixClass? f text = some (x, after) ∧
        posixClass? g (text ++ behind) = some (y, after ++ behind) ∧
        Carries (Same same) (fun _ _ => False) x y ∧ after.length ≤ text.length := by
  cases hx : posixClass? f text with
  | some x =>
    obtain ⟨y, hy, hcarries, hle⟩ := posixClass?_append h hflags hx
    exact .inr ⟨x.1, y, x.2, rfl, hy, hcarries, hle⟩
  | none =>
    cases hy : posixClass? g (text ++ behind) with
    | none => exact .inl ⟨rfl, rfl⟩
    | some y =>
      obtain ⟨x, after, hsome⟩ := posixClass?_of_append (f := f) h hy
      cases hx.symm.trans hsome

theorem classPrimitive_carries (h : Closing behind) (hflags : f.Alike same g)
    (hblanks : f.verbose = false) (text : List Char) :
    CarriesOn behind (text.length - 1) (Primitive.Alike same) (classPrimitive f text)
      (classPrimitive g (text ++ behind)) := by
  cases text with
  | nil =>
    rcases h.eq with rfl | ⟨more, rfl⟩
    · exact .refused _ _
    · exact .past fun hmore => by simp [(List.cons.inj hmore).2, spoiled]
  | cons c rest =>
    by_cases hc : c = '\\'
    · subst hc
      exact readEscape_carries h hflags hblanks rest
    · have hself {f : Flags} (rest : List Char) :
          classPrimitive f (c :: rest) = .ok (.literal c false, rest) := by
        simp [classPrimitive]
      rw [List.cons_append, hself, hself]
      exact .ok ⟨⟨rfl, rfl⟩, rfl, Nat.le_refl _⟩

theorem classChar_eq (hflags : f.Alike same g) {left left' : Primitive}
    (h : left.Alike same left') : classChar f left = classChar g left' := by
  cases left <;> cases left' <;> first | exact h.elim | skip
  · obtain ⟨rfl, rfl⟩ := h
    simp only [classChar, hflags.unicode]
  · rfl
  · rfl

def loneItem (flags : Flags) (left : Primitive) (rest : List Char) :
    Reading (CharSet × List Char) :=
  match left with
  | .set s => .ok (s, rest)
  | .look _ => .error .classItem
  | left => do .ok (.single (← classChar flags left), rest)

def rangeItem (flags : Flags) (left : Primitive) (after : List Char) :
    Reading (CharSet × List Char) := do
  let (right, rest) ← classPrimitive flags after
  let first ← classChar flags left
  let last ← classChar flags right
  if first ≤ last then .ok (.range first last, rest) else .error .classRange

def itemFrom (flags : Flags) (left : Primitive) : List Char → Reading (CharSet × List Char)
  | [] => .error .unclosedClass
  | '-' :: after =>
      match after with
      | [] => .error .unclosedClass
      | ']' :: _ | '-' :: _ => loneItem flags left ('-' :: after)
      | _ => rangeItem flags left after
  | rest => loneItem flags left rest

theorem classItem_eq (hblanks : f.verbose = false) (text : List Char) :
    classItem f text = classPrimitive f text >>= fun x => itemFrom f x.1 x.2 := by
  simp only [classItem, hblanks, skip_false, afterHyphen?]
  congr 1
  funext x
  obtain ⟨left, rest⟩ := x
  cases rest with
  | nil => rfl
  | cons c after =>
    by_cases hc : c = '-'
    case neg =>
      simp [itemFrom, hc]
      rfl
    subst hc
    cases after with
    | nil => rfl
    | cons d after =>
      by_cases hclose : d = ']'
      · subst hclose
        rfl
      · by_cases hhyphen : d = '-'
        · subst hhyphen
          rfl
        · simp [itemFrom, hclose, hhyphen]
          rfl

abbrev CarriesItem (same : Prop) (behind : List Char) (bound : Nat) :
    Reading (CharSet × List Char) → Reading (CharSet × List Char) → Prop :=
  Carries (Onward behind bound (Same same)) (Leaves behind unclosed)

theorem loneItem_carries (hflags : f.Alike same g) {left left' : Primitive}
    (hleft : left.Alike same left') {rest : List Char} {bound : Nat} (hle : rest.length ≤ bound) :
    CarriesItem same behind bound (loneItem f left rest) (loneItem g left' (rest ++ behind)) := by
  have hchar := classChar_eq hflags hleft
  cases left <;> cases left' <;> first | exact hleft.elim | skip
  case literal.literal =>
    simp only [loneItem, hchar]
    cases classChar g _ with
    | error e => exact .refused _ _
    | ok c => exact .ok ⟨fun _ => rfl, rfl, hle⟩
  case set.set => exact .ok ⟨hleft, rfl, hle⟩
  case look.look => exact .refused _ _

theorem loneItem_eq {left : Primitive} {rest : List Char} {x : CharSet × List Char}
    (h : loneItem f left rest = .ok x) : x.2 = rest := by
  cases left with
  | literal c byte =>
    simp only [loneItem] at h
    cases hchar : classChar f (.literal c byte) <;> rw [hchar] at h <;> cases h
    rfl
  | set s =>
    cases h
    rfl
  | look l => cases h

theorem rangeItem_carries (h : Closing behind) (hflags : f.Alike same g)
    (hblanks : f.verbose = false) {left left' : Primitive} (hleft : left.Alike same left')
    (after : List Char) : CarriesItem same behind (after.length - 1) (rangeItem f left after)
      (rangeItem g left' (after ++ behind)) := by
  refine (classPrimitive_carries h hflags hblanks after).bind (fun a b hon => ?_)
    fun _ b hlost d hd => ?_
  · obtain ⟨right, rest⟩ := a
    obtain ⟨right', rest'⟩ := b
    obtain ⟨hright, rfl, hle⟩ := hon
    dsimp only
    rw [classChar_eq hflags hleft, classChar_eq hflags hright]
    cases classChar g left' with
    | error e => exact .refused _ _
    | ok first =>
      cases classChar g right' with
      | error e => exact .refused _ _
      | ok last =>
        simp only [bind, Except.bind]
        split
        · exact .ok ⟨fun _ => rfl, rfl, hle⟩
        · exact .refused _ _
  · have hrest : d.2 = b.2 := by
      simp only [bind, Except.bind] at hd
      split at hd
      · cases hd
      · split at hd
        · cases hd
        · split at hd <;> cases hd
          rfl
    exact fun hmore => List.mem_cons_of_mem _ (hrest ▸ hlost hmore)

theorem itemFrom_carries (h : Closing behind) (hflags : f.Alike same g)
    (hblanks : f.verbose = false) {left left' : Primitive} (hleft : left.Alike same left')
    (rest : List Char) : CarriesItem same behind rest.length (itemFrom f left rest)
      (itemFrom g left' (rest ++ behind)) := by
  cases rest with
  | nil =>
    refine Carries.of_error fun x hx hmore => ?_
    subst hmore
    rw [loneItem_eq (show loneItem g left' [')'] = .ok x from hx)]
    exact List.mem_cons_self
  | cons c after =>
    have hlone : CarriesItem same behind (c :: after).length (loneItem f left (c :: after))
        (loneItem g left' (c :: after ++ behind)) := loneItem_carries hflags hleft (Nat.le_refl _)
    by_cases hc : c = '-'
    case neg => simpa [itemFrom, hc] using hlone
    subst hc
    cases after with
    | nil =>
      rcases h.eq with rfl | ⟨more, rfl⟩
      · exact .refused _ _
      · exact (rangeItem_carries h hflags hblanks hleft []).onward (fun _ _ hs => hs)
          (Nat.le_succ _)
    | cons d after =>
      by_cases hclose : d = ']'
      · subst hclose
        exact hlone
      · by_cases hhyphen : d = '-'
        · subst hhyphen
          exact hlone
        · have hrange := rangeItem_carries h hflags hblanks hleft (d :: after)
          have hrange' : CarriesItem same behind ('-' :: d :: after).length
              (rangeItem f left (d :: after)) (rangeItem g left' (d :: after ++ behind)) :=
            hrange.onward (fun _ _ hs => hs) (by simp only [List.length_cons]; omega)
          simpa [itemFrom, hclose, hhyphen] using hrange'

theorem classItem_carries (h : Closing behind) (hflags : f.Alike same g)
    (hblanks : f.verbose = false) (text : List Char) :
    CarriesItem same behind (text.length - 1) (classItem f text)
      (classItem g (text ++ behind)) := by
  rw [classItem_eq hblanks, classItem_eq (hflags.verbose ▸ hblanks)]
  refine (classPrimitive_carries h hflags hblanks text).bind (fun a b hon => ?_)
    fun _ b hlost d hd hmore => ?_
  · obtain ⟨left, rest⟩ := a
    obtain ⟨left', rest'⟩ := b
    obtain ⟨hleft, rfl, hle⟩ := hon
    exact (itemFrom_carries h hflags hblanks hleft rest).onward (fun _ _ hs => hs) hle
  · obtain ⟨left', rest'⟩ := b
    have hspoiled : rest' ∈ spoiled := hlost hmore
    simp only [spoiled, List.mem_cons, List.not_mem_nil, or_false] at hspoiled
    rcases hspoiled with rfl | rfl
    · cases hd
    · rw [loneItem_eq (show loneItem g left' ['{', ')'] = .ok d from hd)]
      exact List.mem_cons_of_mem _ (List.mem_cons_of_mem _ List.mem_cons_self)

/-! The machine -/

theorem joinOperand_alike (hflags : f.Alike same g) {items items' : List (Nested CharSet)}
    (hitems : List.Forall₂ (Nested.Alike (Same same)) items items')
    {frames frames' : List ClassFrame}
    (hframes : List.Forall₂ (ClassFrame.Alike same) frames frames') :
    (joinOperand f items frames).1.Alike (Same same) (joinOperand g items' frames').1 ∧
      List.Forall₂ (ClassFrame.Alike same) (joinOperand f items frames).2
        (joinOperand g items' frames').2 := by
  have hgather : (Nested.gather CharSet.unions items).Alike (Same same)
      (Nested.gather .unions items') :=
    .gather (fun _ _ hvalues hsame => by rw [same_of_forall₂ hvalues hsame]) hitems
  cases hframes with
  | nil => exact ⟨hgather, .nil⟩
  | cons hframe hrest =>
    cases hframe with
    | bracket h negated => exact ⟨hgather, .cons (.bracket h negated) hrest⟩
    | operand op hleft =>
      refine ⟨⟨?_, fun hsame => ?_⟩, hrest⟩
      · simp only [joinOperand]
        rw [hleft.1, hgather.1]
      · simp only [joinOperand]
        rw [foldCase_same hflags hleft.2 hsame, foldCase_same hflags hgather.2 hsame]

inductive ClassStep.Beside (same : Prop) (behind : List Char) (bound : Nat) :
    ClassStep → ClassStep → Prop
  | done {s s' : Nested CharSet} (h : s.Alike (Same same) s') {rest : List Char}
      (hle : rest.length ≤ bound) :
      Beside same behind bound (.done s rest) (.done s' (rest ++ behind))
  | more {r r' : ClassReader} (h : r.Beside same behind r') (hle : r.rest.length ≤ bound) :
      Beside same behind bound (.more r) (.more r')

def ClassStep.Unclosed (behind : List Char) (_ : SyntaxError) (x : ClassStep) : Prop :=
  behind = [')'] → ∃ r, x = .more r ∧ r.rest ∈ unclosed

abbrev CarriesStep (same : Prop) (behind : List Char) (bound : Nat) :
    Reading ClassStep → Reading ClassStep → Prop :=
  Carries (ClassStep.Beside same behind bound) (ClassStep.Unclosed behind)

variable {r r' : ClassReader}

theorem closeClass_carries (hflags : f.Alike same g) (h : r.Beside same behind r')
    {rest : List Char} {bound : Nat} (hle : rest.length ≤ bound) :
    CarriesStep same behind bound (closeClass f r rest) (closeClass g r' (rest ++ behind)) := by
  obtain ⟨hset, hframes⟩ := joinOperand_alike hflags h.items h.frames
  unfold closeClass
  generalize joinOperand f r.items r.frames = x at *
  generalize joinOperand g r'.items r'.frames = y at *
  obtain ⟨s, frames⟩ := x
  obtain ⟨s', frames'⟩ := y
  cases hframes with
  | nil => exact .ok (.done hset hle)
  | cons hframe hrest =>
    cases hframe with
    | operand op hleft => exact .ok (.done hset hle)
    | bracket houter negated =>
      refine (negateIf_carries hflags negated (foldCase_same hflags hset.2) fun _ _ => False).bind
        (fun t t' ht => ?_) fun _ _ hlost => hlost.elim
      have hclosed : Nested.Alike (Same same) ⟨t, s.depth + 1⟩ ⟨t', s'.depth + 1⟩ :=
        ⟨congrArg (· + 1) hset.1, ht⟩
      cases hrest with
      | nil => exact .ok (.done hclosed hle)
      | cons hframe hrest =>
        exact .ok (.more ⟨.cons hclosed houter, .cons hframe hrest, rfl⟩ hle)

def operator? : List Char → Option (SetOp × List Char)
  | '&' :: '&' :: rest => some (.inter, rest)
  | '-' :: '-' :: rest => some (.diff, rest)
  | '~' :: '~' :: rest => some (.either, rest)
  | _ => none

def classPart (flags : Flags) (r : ClassReader) (text : List Char) : Reading ClassStep :=
  match operator? text with
  | some (op, rest) => .ok (classOperator flags r op rest)
  | none => do
      let (s, rest) ← classItem flags text
      .ok (.more { r with items := .flat s :: r.items, rest })

theorem classStep_open (hblanks : f.verbose = false) {rest : List Char} (h : r.rest = '[' :: rest) :
    classStep f r = match posixClass? f rest with
      | some (s, rest) => do .ok (.more { r with items := .flat (← s) :: r.items, rest })
      | none => (openClass f r rest).map .more := by
  have hskip : skip f.verbose r.rest = '[' :: rest := by rw [hblanks, skip_false, h]
  unfold classStep
  generalize skip f.verbose r.rest = text at hskip
  subst hskip
  rfl

theorem classStep_close (hblanks : f.verbose = false) {rest : List Char}
    (h : r.rest = ']' :: rest) :
    classStep f r = closeClass f r rest := by
  simp only [classStep, hblanks, skip_false, h]

theorem classStep_part (hblanks : f.verbose = false) (hnil : r.rest ≠ [])
    (hopen : ∀ rest, r.rest ≠ '[' :: rest) (hclose : ∀ rest, r.rest ≠ ']' :: rest) :
    classStep f r = classPart f r r.rest := by
  simp only [classStep, hblanks, skip_false]
  split
  case h_7 _ _ _ _ hinter hdiff heither =>
    have hnone : operator? r.rest = none := by
      unfold operator?
      split
      · exact (hinter _ ‹_›).elim
      · exact (hdiff _ ‹_›).elim
      · exact (heither _ ‹_›).elim
      · rfl
    rw [classPart, hnone]
  case h_1 heq => exact absurd heq hnil
  case h_2 heq => exact absurd heq (hopen _)
  case h_3 heq => exact absurd heq (hclose _)
  case h_4 heq | h_5 heq | h_6 heq =>
    rw [heq]
    rfl

theorem operator?_closing (h : Closing behind) (text : List Char) :
    operator? (text ++ behind) = (operator? text).map fun x => (x.1, x.2 ++ behind) := by
  rcases h.eq with rfl | ⟨more, rfl⟩
  · simp
  · match text with
    | [] => rfl
    | [c] => simp [operator?]
    | c :: d :: rest =>
      simp only [operator?, List.cons_append]
      split <;> simp_all

theorem length_operator?_le {text rest : List Char} {op : SetOp}
    (h : operator? text = some (op, rest)) : rest.length < text.length := by
  unfold operator? at h
  split at h <;> cases h <;> simp only [List.length_cons] <;> omega

theorem classOperator_beside (hflags : f.Alike same g) (h : r.Beside same behind r') (op : SetOp)
    {rest : List Char} {bound : Nat} (hle : rest.length ≤ bound) :
    ClassStep.Beside same behind bound (classOperator f r op rest)
      (classOperator g r' op (rest ++ behind)) := by
  obtain ⟨hset, hframes⟩ := joinOperand_alike hflags h.items h.frames
  exact .more ⟨.nil, .cons (.operand op hset) hframes, rfl⟩ hle

theorem classPart_carries (h : Closing behind) (hflags : f.Alike same g)
    (hblanks : f.verbose = false) (hr : r.Beside same behind r') (text : List Char) :
    CarriesStep same behind (text.length - 1) (classPart f r text)
      (classPart g r' (text ++ behind)) := by
  rw [classPart, classPart, operator?_closing h]
  cases hop : operator? text with
  | some x =>
    exact .ok (classOperator_beside hflags hr x.1 (Nat.le_sub_one_of_lt (length_operator?_le hop)))
  | none =>
    refine (classItem_carries h hflags hblanks text).bind (fun a b hon => ?_)
      fun _ b hlost d hd hmore => ?_
    · obtain ⟨s, rest⟩ := a
      obtain ⟨s', rest'⟩ := b
      obtain ⟨hset, rfl, hle⟩ := hon
      exact .ok (.more ⟨.cons (.flat hset) hr.items, hr.frames, rfl⟩ hle)
    · cases hd
      exact ⟨_, rfl, hlost hmore⟩

theorem classStep_carries (h : Closing behind) (hflags : f.Alike same g)
    (hblanks : f.verbose = false) (hr : r.Beside same behind r') :
    CarriesStep same behind (r.rest.length - 1) (classStep f r) (classStep g r') := by
  have hblanks' : g.verbose = false := hflags.verbose ▸ hblanks
  have hrest := hr.rest
  have hpart := classPart_carries h hflags hblanks hr r.rest
  cases htext : r.rest with
  | nil =>
    have hstep : classStep f r = .error .unclosedClass := by
      simp only [classStep, hblanks, skip_false, htext]
    rw [hstep]
    rw [htext] at hrest hpart
    rcases h.eq with rfl | ⟨more, rfl⟩
    · have hstep' : classStep g r' = .error .unclosedClass := by
        simp only [classStep, hblanks', skip_false, hrest, List.append_nil]
      rw [hstep']
      exact .refused _ _
    · rw [classStep_part hblanks' (by simp [hrest]) (by simp [hrest]) (by simp [hrest]), hrest]
      exact hpart
  | cons c rest =>
    rw [htext, List.cons_append] at hrest
    by_cases hopen : c = '['
    · subst hopen
      rw [classStep_open hblanks htext, classStep_open hblanks' hrest]
      rcases posixClass?_closing h hflags rest with
        ⟨hnone, hnone'⟩ | ⟨x, y, after, hx, hy, hxy, hle⟩
      · rw [hnone, hnone']
        exact (openClass_carries h hflags hblanks hr.items hr.frames rest).map
          (fun _ _ hq => .more hq.1 hq.2) fun _ _ hlost hmore => ⟨_, rfl, hlost hmore⟩
      · rw [hx, hy]
        exact hxy.bind (fun _ _ hset =>
          .ok (.more ⟨.cons (.flat hset) hr.items, hr.frames, rfl⟩ hle)) fun _ _ hlost => hlost.elim
    · by_cases hclose : c = ']'
      · subst hclose
        rw [classStep_close hblanks htext, classStep_close hblanks' hrest]
        exact closeClass_carries hflags hr (Nat.le_refl _)
      · rw [classStep_part hblanks (by simp [htext]) (by simp [htext, hopen])
          (by simp [htext, hclose]), classStep_part hblanks' (by simp [hrest])
          (by simp [hrest, hopen]) (by simp [hrest, hclose]), ← htext, hr.rest]
        exact hpart

theorem classLoop_unclosed (hblanks : f.verbose = false) (h : r.rest ∈ unclosed) (fuel : Nat)
    (x : Nested CharSet × List Char) : classLoop f fuel r ≠ .ok x := by
  have hstep {text : List Char} {r : ClassReader} (hrest : r.rest = text)
      (htext : text = [] ∨ text = [')']) : classStep f r = .error .unclosedClass := by
    rcases htext with rfl | rfl <;>
      simp [classStep, hblanks, skip_false, hrest, classItem, classPrimitive, bind, Except.bind]
  have hloop {r : ClassReader} (hrest : r.rest = [] ∨ r.rest = [')']) (fuel : Nat) :
      classLoop f fuel r ≠ .ok x := by
    cases fuel with
    | zero => exact refused_ne_found _ _
    | succ fuel =>
      rw [classLoop, hstep rfl hrest]
      exact refused_ne_found _ _
  simp only [unclosed, spoiled, List.mem_cons, List.not_mem_nil, or_false] at h
  rcases h with h | h | h
  · exact hloop (.inr h) fuel
  · exact hloop (.inl h) fuel
  · cases fuel with
    | zero => exact refused_ne_found _ _
    | succ fuel =>
      -- the brace is one more member, and then the class is as open as before
      have hbrace : classStep f r = classPart f r ['{', ')'] := by
        rw [classStep_part hblanks (by simp [h]) (by simp [h]) (by simp [h]), h]
      have hitem : classItem f ['{', ')'] = loneItem f (.literal '{' false) [')'] := by
        rw [classItem_eq hblanks]
        rfl
      rw [classLoop, hbrace, classPart, show operator? ['{', ')'] = none from rfl, hitem]
      cases hlone : loneItem f (.literal '{' false) [')'] with
      | error e => exact refused_ne_found _ _
      | ok y => exact hloop (.inr (loneItem_eq hlone)) fuel

theorem classLoop_carries (h : Closing behind) (hflags : f.Alike same g)
    (hblanks : f.verbose = false) (hr : r.Beside same behind r') {fuel fuel' : Nat}
    (hfuel : r.rest.length ≤ fuel) (hfuel' : fuel ≤ fuel') :
    CarriesOn behind (r.rest.length - 1) (Nested.Alike (Same same)) (classLoop f fuel r)
      (classLoop g fuel' r') := by
  have hblanks' : g.verbose = false := hflags.verbose ▸ hblanks
  induction fuel generalizing r r' fuel' with
  | zero =>
    refine Carries.of_error fun x hx hmore => absurd hx (classLoop_unclosed hblanks' ?_ fuel' x)
    rw [hr.rest, List.length_eq_zero_iff.1 (Nat.le_zero.1 hfuel), hmore]
    exact List.mem_cons_self
  | succ fuel ih =>
    obtain ⟨fuel', rfl⟩ := Nat.exists_eq_succ_of_ne_zero (Nat.ne_zero_of_lt hfuel')
    rw [classLoop, classLoop]
    refine (classStep_carries h hflags hblanks hr).bind (fun x y hxy => ?_)
      fun _ y hlost d hd hmore => ?_
    · cases hxy with
      | done hset hle => exact .ok ⟨hset, rfl, hle⟩
      | more hq hle =>
        exact (ih hq (Nat.le_trans hle (Nat.sub_le_of_le_add hfuel))
          (Nat.le_of_succ_le_succ hfuel')).onward (fun _ _ h => h)
            (Nat.le_trans (Nat.sub_le _ _) hle)
    · obtain ⟨q, rfl, hq⟩ := hlost hmore
      exact absurd hd (classLoop_unclosed hblanks' hq fuel' d)

/-- A class is closed within the text, and then what is behind does not matter. -/
theorem readClass_carries (h : Closing behind) (hflags : f.Alike same g)
    (hblanks : f.verbose = false) (text : List Char) :
    CarriesOn behind text.length (Nested.Alike (Same same)) (readClass f text)
      (readClass g (text ++ behind)) := by
  have hblanks' : g.verbose = false := hflags.verbose ▸ hblanks
  rw [readClass, readClass]
  have hopen : CarriesReader same behind text.length (openClass f ⟨[], [], text⟩ text)
      (openClass g ⟨[], [], text ++ behind⟩ (text ++ behind)) :=
    openClass_carries h hflags hblanks .nil .nil text
  refine hopen.bind (fun q q' hq => ?_) fun _ q' hlost d hd hmore => ?_
  · refine (classLoop_carries h hflags hblanks hq.1 (Nat.le_succ_of_le hq.2)
      (by simp)).bind (fun x y hxy => ?_) fun _ y hlost d hd => ?_
    · obtain ⟨s, rest⟩ := x
      obtain ⟨s', rest'⟩ := y
      obtain ⟨hset, rfl, hle⟩ := hxy
      refine .ok ⟨?_, rfl, Nat.le_trans hle (Nat.le_trans (Nat.sub_le _ _) hq.2)⟩
      dsimp only
      rw [← hflags.unicode]
      split
      · exact hset
      · exact ⟨hset.1, fun hsame => by rw [hset.2 hsame]⟩
    · cases hd
      exact hlost
  · cases hloop : classLoop g ((text ++ behind).length + 1) q' with
    | error e =>
      rw [hloop] at hd
      cases hd
    | ok x => exact absurd hloop (classLoop_unclosed hblanks' (hlost hmore) _ x)

end classes

end RuleLexer.Regex
