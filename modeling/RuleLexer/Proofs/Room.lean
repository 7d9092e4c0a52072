import Mathlib
import RuleLexer.Regex.Room

/-! The room of a pattern, estimated. What the table of a set takes is bounded by the number of its
rows, and that of a table which is written as text by the blanks between them, so that long tables
need not be read. The room of a tree grows with the room of its sets: a tree that fits when its sets
take what they are estimated to take does fit. -/
namespace RuleLexer
open RuleLexer.Unicode RuleLexer.Regex

/-! Rows -/

namespace Unicode

def isBlank (c : Char) : Bool := c == ' ' || c == '\n'

theorem RowReader.length_rows_closeRow_le (r : RowReader) :
    r.closeRow.rows.length ≤ r.rows.length + 1 := by
  have hnumber : r.closeNumber.rows = r.rows := by
    rw [closeNumber]
    split <;> rfl
  rw [closeRow]
  split
  · rw [hnumber]
    exact Nat.le_succ _
  · rw [List.length_cons, hnumber]

theorem RowReader.length_rows_read_le (r : RowReader) (c : Char) :
    (r.read c).rows.length ≤ r.rows.length + if isBlank c then 1 else 0 := by
  rw [read]
  split
  · exact Nat.le_add_right _ _
  · by_cases hblank : c = ' ' ∨ c = '\n'
    · rw [if_pos hblank, if_pos (by simpa [isBlank] using hblank)]
      exact r.length_rows_closeRow_le
    · have hnumber : r.closeNumber.rows = r.rows := by
        rw [closeNumber]
        split <;> rfl
      rw [if_neg hblank]
      show r.closeNumber.rows.length ≤ _
      rw [hnumber]
      exact Nat.le_add_right _ _

theorem length_rows_foldl_le (text : List Char) (r : RowReader) :
    (text.foldl RowReader.read r).rows.length ≤ r.rows.length + text.countP isBlank := by
  induction text generalizing r with
  | nil => exact Nat.le_refl _
  | cons c text ih =>
    have hlater := ih (r.read c)
    have hfirst := r.length_rows_read_le c
    rw [List.foldl_cons, List.countP_cons]
    omega

namespace CodeTable

theorem length_ofText_le (text : List Char) :
    (ofText (String.ofList text)).length ≤ text.countP isBlank + 1 := by
  have hrows := length_rows_foldl_le text ⟨[], [], ' ', none⟩
  have hlast := (text.foldl RowReader.read ⟨[], [], ' ', none⟩).length_rows_closeRow_le
  refine (List.length_filterMap_le _ _).trans ?_
  rw [rowsOf, String.toList_ofList, List.length_reverse]
  simp only [List.length_nil] at hrows
  omega

theorem length_join_le (r : CodeRange) (table : CodeTable) :
    (join r table).length ≤ table.length + 1 := by
  induction table generalizing r with
  | nil => exact Nat.le_refl _
  | cons s rest ih =>
    rw [join]
    split
    · exact (ih _).trans (Nat.le_succ _)
    · exact Nat.succ_le_succ (ih s)

theorem length_place_le {r : CodeRange} {rest : CodeTable → CodeTable} {n : Nat}
    (hrest : ∀ later, (rest later).length ≤ n + later.length) (table : CodeTable) :
    (place r rest table).length ≤ n + table.length + 1 := by
  induction table with
  | nil => exact Nat.succ_le_succ (hrest [])
  | cons s later ih =>
    rw [place]
    split
    · exact Nat.succ_le_succ (hrest _)
    · exact Nat.succ_le_succ ih

theorem length_merge_le (a b : CodeTable) : (merge a b).length ≤ a.length + b.length := by
  induction a generalizing b with
  | nil => simp [merge]
  | cons r a ih =>
    have hplace := length_place_le (r := r) ih b
    rw [merge, List.length_cons]
    omega

theorem length_union_le (a b : CodeTable) : (union a b).length ≤ a.length + b.length := by
  have hmerge := length_merge_le a b
  rw [union]
  split
  · exact Nat.zero_le _
  · next r rest heq =>
    rw [heq, List.length_cons] at hmerge
    exact (length_join_le r rest).trans hmerge

end CodeTable

set_option maxRecDepth 100000 in
theorem length_wordTable_le : wordTable.length ≤ 961 := by
  refine (CodeTable.length_ofText_le _).trans ?_
  decide +kernel

set_option maxRecDepth 10000 in
theorem length_digitTable_le : digitTable.length ≤ 90 := by
  refine (CodeTable.length_ofText_le _).trans ?_
  decide +kernel

end Unicode

/-! Forms -/

namespace Regex.Room

theorem formsBetween_succ (tail lead first last : Nat) :
    let block := 64 ^ (tail + 1)
    let inBlock := fun i first last =>
      (formsBetween tail 0x80 first last).map ((lead + i, lead + i) :: ·)
    let whole := if first % block = 0 then first / block else first / block + 1
    let partly := if last % block = block - 1 then last / block + 1 else last / block
    formsBetween (tail + 1) lead first last =
      if first / block = last / block then inBlock (first / block) (first % block) (last % block)
      else
        (if first % block = 0 then [] else inBlock (first / block) (first % block) (block - 1)) ++
          (if whole < partly then
            [(lead + whole, lead + (partly - 1)) :: List.replicate (tail + 1) (0x80, 0xBF)]
          else []) ++
          (if last % block = block - 1 then [] else inBlock (last / block) 0 (last % block)) := rfl

theorem length_formsBetween_le (tail lead first last : Nat) :
    (formsBetween tail lead first last).length + 1 ≤ 2 ^ (tail + 1) := by
  induction tail generalizing lead first last with
  | zero => exact Nat.le_refl _
  | succ tail ih =>
    have hone : 1 ≤ 2 ^ (tail + 1) := Nat.one_le_two_pow
    have hpow : 2 ^ (tail + 1 + 1) = 2 * 2 ^ (tail + 1) := Nat.pow_succ'
    rw [formsBetween_succ]
    dsimp only
    split
    · rw [List.length_map]
      have h := ih 0x80 (first % 64 ^ (tail + 1)) (last % 64 ^ (tail + 1))
      omega
    · have hstart := ih 0x80 (first % 64 ^ (tail + 1)) (64 ^ (tail + 1) - 1)
      have hend := ih 0x80 0 (last % 64 ^ (tail + 1))
      simp only [List.length_append, apply_ite List.length, List.length_map, List.length_nil,
        List.length_singleton]
      split_ifs <;> omega

theorem length_of_mem_formsBetween {tail lead first last : Nat} {form : Form}
    (h : form ∈ formsBetween tail lead first last) : form.length = tail + 1 := by
  induction tail generalizing lead first last form with
  | zero =>
    cases List.mem_singleton.1 h
    rfl
  | succ tail ih =>
    have hblock : ∀ {i first last form}, form ∈ (formsBetween tail 0x80 first last).map
        ((lead + i, lead + i) :: ·) → form.length = tail + 1 + 1 := by
      intro i first last form hmem
      obtain ⟨rest, hrest, rfl⟩ := List.mem_map.1 hmem
      rw [List.length_cons, ih hrest]
    rw [formsBetween_succ] at h
    dsimp only at h
    split at h
    · exact hblock h
    · rw [List.mem_append, List.mem_append, List.mem_ite_nil_left, List.mem_ite_nil_left,
        List.mem_ite_nil_right, List.mem_singleton] at h
      rcases h with (⟨-, h⟩ | ⟨-, rfl⟩) | ⟨-, h⟩
      · exact hblock h
      · rw [List.length_cons, List.length_replicate]
      · exact hblock h

theorem Plane.length_forms_le (p : Plane) (r : CodeRange) :
    (p.forms r).length + 1 ≤ 2 ^ (p.tail + 1) := by
  rw [Plane.forms]
  split
  · exact length_formsBetween_le _ _ _ _
  · exact Nat.one_le_two_pow

theorem Plane.length_of_mem_forms {p : Plane} {r : CodeRange} {form : Form}
    (h : form ∈ p.forms r) : form.length = p.tail + 1 := by
  rw [Plane.forms] at h
  split at h
  · exact length_of_mem_formsBetween h
  · cases h

theorem length_forms_le (table : CodeTable) : (forms table).length ≤ 33 * table.length := by
  induction table with
  | nil => exact Nat.le_refl _
  | cons r table ih =>
    have hrow : (planes.flatMap (·.forms r)).length ≤ 33 := by
      have h0 := Plane.length_forms_le ⟨0, 0x7F, 0, 0⟩ r
      have h1 := Plane.length_forms_le ⟨0x80, 0x7FF, 1, 0xC0⟩ r
      have h2 := Plane.length_forms_le ⟨0x800, 0xD7FF, 2, 0xE0⟩ r
      have h3 := Plane.length_forms_le ⟨0xE000, 0xFFFF, 2, 0xE0⟩ r
      have h4 := Plane.length_forms_le ⟨0x10000, maxCode, 3, 0xF0⟩ r
      simp only [planes, List.flatMap_cons, List.flatMap_nil, List.length_append,
        List.length_nil]
      simp only [Nat.reduceAdd, Nat.reducePow] at h0 h1 h2 h3 h4
      omega
    rw [forms] at ih ⊢
    rw [List.flatMap_cons, List.length_append, List.length_cons]
    omega

theorem length_of_mem_forms {table : CodeTable} {form : Form} (h : form ∈ forms table) :
    form.length ≤ 4 := by
  obtain ⟨r, -, h⟩ := List.mem_flatMap.1 h
  obtain ⟨p, hp, h⟩ := List.mem_flatMap.1 h
  have htail : ∀ p ∈ planes, p.tail ≤ 3 := by
    simp [planes]
  rw [Plane.length_of_mem_forms h]
  exact Nat.succ_le_succ (htail p hp)

/-! The code points that are no characters are in no plane. -/

section planes
variable {p : Plane} {first last first' last' : Nat}

theorem Plane.forms_eq_nil (h : last < p.first ∨ p.last < first) : p.forms ⟨first, last⟩ = [] :=
  if_neg (by simp only; omega)

theorem Plane.forms_congr (hfirst : max first p.first = max first' p.first)
    (hlast : min last p.last = min last' p.last) :
    p.forms ⟨first, last⟩ = p.forms ⟨first', last'⟩ := by
  rw [Plane.forms, Plane.forms]
  simp only [hfirst, hlast]

end planes

theorem planes_eq : ∃ low high, planes = low ++ high ∧ (∀ p ∈ low, p.last < 0xD800) ∧
    ∀ p ∈ high, 0xDFFF < p.first :=
  ⟨planes.take 3, planes.drop 3, rfl, by simp [planes], by simp [planes]⟩

theorem flatMap_scalars (r : CodeRange) :
    (scalars [r]).flatMap (fun r => planes.flatMap (·.forms r)) = planes.flatMap (·.forms r) := by
  obtain ⟨low, high, hplanes, hlow, hhigh⟩ := planes_eq
  obtain ⟨first, last⟩ := r
  rw [scalars, List.flatMap_singleton]
  by_cases hapart : last < 0xD800 ∨ 0xDFFF < first
  · rw [if_pos hapart, List.flatMap_singleton]
  have hbefore : (if first < 0xD800 then [⟨first, 0xD7FF⟩] else ([] : CodeTable)).flatMap
      (fun r => planes.flatMap (·.forms r)) = low.flatMap (·.forms ⟨first, last⟩) := by
    split
    · have hnil : high.flatMap (·.forms ⟨first, 0xD7FF⟩) = [] := List.flatMap_eq_nil_iff.2
        fun p hp => Plane.forms_eq_nil (.inl (Nat.lt_trans (by decide) (hhigh p hp)))
      rw [List.flatMap_singleton, hplanes, List.flatMap_append, hnil, List.append_nil]
      exact List.flatMap_congr fun p hp => Plane.forms_congr rfl (by have := hlow p hp; omega)
    · refine (List.flatMap_eq_nil_iff.2 fun p hp => Plane.forms_eq_nil (.inr ?_)).symm
      exact Nat.lt_of_lt_of_le (hlow p hp) (by omega)
  have hbehind : (if 0xDFFF < last then [⟨0xE000, last⟩] else ([] : CodeTable)).flatMap
      (fun r => planes.flatMap (·.forms r)) = high.flatMap (·.forms ⟨first, last⟩) := by
    split
    · have hnil : low.flatMap (·.forms ⟨0xE000, last⟩) = [] := List.flatMap_eq_nil_iff.2
        fun p hp => Plane.forms_eq_nil (.inr (Nat.lt_trans (hlow p hp) (by decide)))
      rw [List.flatMap_singleton, hplanes, List.flatMap_append, hnil, List.nil_append]
      exact List.flatMap_congr fun p hp => Plane.forms_congr (by have := hhigh p hp; omega) rfl
    · refine (List.flatMap_eq_nil_iff.2 fun p hp => Plane.forms_eq_nil (.inl ?_)).symm
      exact Nat.lt_of_le_of_lt (Nat.le_of_not_lt ‹_›) (hhigh p hp)
  rw [if_neg hapart, List.flatMap_append, hbefore, hbehind, hplanes, List.flatMap_append]

theorem forms_scalars (table : CodeTable) : forms (scalars table) = forms table := by
  induction table with
  | nil => rfl
  | cons r table ih =>
    have hcons : scalars (r :: table) = scalars [r] ++ scalars table := by simp [scalars]
    rw [forms, forms] at ih
    rw [hcons, forms, List.flatMap_append, flatMap_scalars, ih, forms, List.flatMap_cons]

theorem length_scalars_le (table : CodeTable) : (scalars table).length ≤ 2 * table.length := by
  induction table with
  | nil => exact Nat.le_refl _
  | cons r table ih =>
    rw [scalars] at ih ⊢
    rw [List.flatMap_cons, List.length_append, List.length_cons]
    have hrow : (if r.last < 0xD800 ∨ 0xDFFF < r.first then [r] else
        (if r.first < 0xD800 then [⟨r.first, 0xD7FF⟩] else []) ++
          (if 0xDFFF < r.last then [⟨0xE000, r.last⟩] else [])).length ≤ 2 := by
      split_ifs <;> simp
    omega

/-! Tables -/

theorem total_eq_sum (rooms : List Nat) : total rooms = rooms.sum := List.sum_eq_foldl.symm

theorem length_byFirst_le (forms : List Form) : (byFirst forms).length ≤ forms.length := by
  have hflat : (byFirst forms).flatten = forms := List.flatten_splitBy _ _
  have hne : ∀ alike ∈ byFirst forms, 1 ≤ alike.length := fun alike halike =>
    List.length_pos_iff.2 fun hnil => List.nil_notMem_splitBy _ _ (hnil ▸ halike)
  calc (byFirst forms).length
      ≤ ((byFirst forms).map List.length).sum := by
        simpa using List.card_nsmul_le_sum ((byFirst forms).map List.length) 1 (by simpa using hne)
    _ = forms.length := by rw [← List.length_flatten, hflat]

/-- Each place that can follow has a way out for one form at least, and each form leads through as
many places as it has bytes. -/
theorem sum_followers_le (fuel : Nat) {forms : List Form} (hne : forms ≠ []) :
    ((followers fuel forms).map fun place => stepState (byFirst place).length).sum ≤
      40 * fuel * forms.length := by
  induction fuel generalizing forms with
  | zero => exact Nat.zero_le _
  | succ fuel ih =>
    have hlater : ∀ groups : List (List Form), (∀ alike ∈ groups, alike ≠ []) →
        ((groups.flatMap fun alike => if alike.map List.tail == [[]] then [] else
          followers fuel (alike.map List.tail)).map fun place =>
            stepState (byFirst place).length).sum ≤ 40 * fuel * groups.flatten.length := by
      intro groups hgroups
      induction groups with
      | nil => exact Nat.zero_le _
      | cons alike groups ihgroups =>
        have hrest := ihgroups fun other hother => hgroups other (List.mem_cons_of_mem _ hother)
        have hfirst : ((if alike.map List.tail == [[]] then [] else
            followers fuel (alike.map List.tail)).map fun place =>
              stepState (byFirst place).length).sum ≤ 40 * fuel * alike.length := by
          split
          · exact Nat.zero_le _
          · have hmap : alike.map List.tail ≠ [] := by
              simpa using hgroups alike List.mem_cons_self
            simpa using ih hmap
        rw [List.flatMap_cons, List.map_append, List.sum_append, List.flatten_cons,
          List.length_append, Nat.mul_add]
        exact Nat.add_le_add hfirst hrest
    have hflat : (byFirst forms).flatten = forms := List.flatten_splitBy _ _
    have hnext := hlater (byFirst forms) fun alike halike hnil =>
      List.nil_notMem_splitBy _ _ (hnil ▸ halike)
    have hhere := length_byFirst_le forms
    have hpos := List.length_pos_iff.2 hne
    rw [hflat] at hnext
    rw [followers, List.map_cons, List.sum_cons]
    refine (Nat.add_le_add_left hnext _).trans ?_
    rw [stepState, perState, perStep, Nat.mul_add, Nat.add_mul]
    omega

theorem eraseDups_sublist {α : Type} [BEq α] (l : List α) : l.eraseDups.Sublist l := by
  induction hlength : l.length using Nat.strongRecOn generalizing l with
  | ind n ih =>
    cases l with
    | nil => exact .slnil
    | cons a rest =>
      have hfilter : (rest.filter fun b => !b == a).Sublist rest := List.filter_sublist
      have hless := Nat.lt_of_le_of_lt hfilter.length_le (Nat.lt_succ_self rest.length)
      rw [List.eraseDups_cons]
      exact ((ih _ (hlength ▸ hless) _ rfl).trans hfilter).cons_cons a

theorem tableRoom_le (d : Direction) (table : CodeTable) :
    tableRoom d table ≤ 64 + 8 * table.length + 160 * (forms table).length := by
  rw [tableRoom]
  split
  · rw [stepState, perState, perStep]
    omega
  · cases d with
    | forward =>
      have hplaces : (((followers 4 (forms table)).eraseDups).map fun place =>
          stepState (byFirst place).length).sum ≤
          ((followers 4 (forms table)).map fun place => stepState (byFirst place).length).sum :=
        ((eraseDups_sublist _).map _).sum_le_sum fun _ _ => Nat.zero_le _
      have hall : ((followers 4 (forms table)).map fun place =>
          stepState (byFirst place).length).sum ≤ 32 + 160 * (forms table).length := by
        by_cases hne : forms table = []
        · rw [hne]
          decide
        · have h := sum_followers_le 4 hne
          omega
      simp only [total_eq_sum, perState]
      omega
    | backward =>
      have hnew : (((([] :: forms table).zip (forms table)).map fun pair =>
          pair.2.length - sharedSteps pair.1 pair.2).sum) ≤ 4 * (forms table).length := by
        refine (List.sum_le_card_nsmul _ 4 fun n hn => ?_).trans ?_
        · obtain ⟨pair, hpair, rfl⟩ := List.mem_map.1 hn
          exact (Nat.sub_le _ _).trans (length_of_mem_forms (List.of_mem_zip hpair).2)
        · rw [List.length_map, List.length_zip, Nat.mul_comm 4]
          exact Nat.mul_le_mul_right 4 (Nat.min_le_right _ _)
      simp only [total_eq_sum, perState, linkState, perLink]
      omega

end Regex.Room

namespace Regex
open Room

/-! Sets -/

namespace CharSet

/-- Rows at most; the long tables are not looked at. -/
def rows : CharSet → Nat
  | property .word => 961
  | property .digit => 90
  | union a b => a.rows + b.rows
  | s => s.allCodes.length

theorem length_allCodes_le (s : CharSet) : s.allCodes.length ≤ s.rows := by
  induction s with
  | property p =>
    cases p with
    | word => exact length_wordTable_le
    | digit => exact length_digitTable_le
    | any | ascii | space | cased | category | listed => exact Nat.le_refl _
  | union a b iha ihb =>
    exact (CodeTable.length_union_le _ _).trans (Nat.add_le_add iha ihb)
  | range | inter | either | compl | upToCase => exact Nat.le_refl _

def isVast : CharSet → Bool
  | property p => p == .word || p == .digit
  | union a b => a.isVast || b.isVast
  | _ => false

def roughRoom (d : Direction) (s : CharSet) : Nat :=
  if s.isVast then 128 + 5296 * s.rows else setRoom d s

theorem setRoom_le_rows (d : Direction) (s : CharSet) : setRoom d s ≤ 128 + 5296 * s.rows := by
  rw [setRoom]
  split
  · next c _ =>
    have hsize := c.utf8Size_le_four
    rw [perState]
    omega
  · have htable := tableRoom_le d s.codes
    have hrows := s.length_allCodes_le
    have hlength := length_scalars_le s.allCodes
    have hforms := length_forms_le s.allCodes
    rw [codes, forms_scalars] at htable
    rw [codes]
    omega

theorem setRoom_le (d : Direction) (s : CharSet) : setRoom d s ≤ s.roughRoom d := by
  rw [roughRoom]
  split
  · exact setRoom_le_rows d s
  · exact Nat.le_refl _

end CharSet

/-! Trees -/

namespace Room

theorem Choice.total_le {c c' : Choice} (d : Direction) (htexts : c.texts = c'.texts)
    (hcount : c.count = c'.count) (hroom : c.room ≤ c'.room) : c.total d ≤ c'.total d := by
  rw [Choice.total, Choice.total, htexts, hcount]
  split
  · exact hroom
  · split
    · exact Nat.le_refl _
    · exact Nat.add_le_add_left hroom _

theorem repeated_le (low : Nat) (high : Option Nat) (nullable : Bool) {body body' : Nat}
    (h : body ≤ body') : repeated low high nullable body ≤ repeated low high nullable body' := by
  have hlow := Nat.mul_le_mul_left low h
  unfold repeated
  split
  · split <;> omega
  · omega
  · omega
  · next high _ =>
    have hhigh := Nat.mul_le_mul_left high (Nat.add_le_add_left h (linkState 2))
    omega
  · next high _ _ =>
    have hmore := Nat.mul_le_mul_left (high - low) (Nat.add_le_add_left h (linkState 2))
    split <;> omega

end Room

namespace Ast
variable {f g : CharSet → Nat} (h : ∀ s, f s ≤ g s) (d : Direction)
include h

theorem choice_le (a : Ast) : (a.choice f d).texts = (a.choice g d).texts ∧
    (a.choice f d).count = (a.choice g d).count ∧ (a.choice f d).room ≤ (a.choice g d).room := by
  induction a with
  | empty | look => exact ⟨rfl, rfl, Nat.le_refl _⟩
  | set s => exact ⟨rfl, rfl, h s⟩
  | seq a b iha ihb =>
    have hfirst := Choice.total_le d iha.1 iha.2.1 iha.2.2
    have hlater := Choice.total_le d ihb.1 ihb.2.1 ihb.2.2
    refine ⟨?_, rfl, Nat.add_le_add hfirst hlater⟩
    simp only [choice, iha.1, ihb.1]
  | alt a b iha ihb =>
    have hfirst := Choice.total_le d iha.1 iha.2.1 iha.2.2
    refine ⟨?_, congrArg (· + 1) ihb.2.1, Nat.add_le_add hfirst ihb.2.2⟩
    simp only [choice, iha.1, ihb.1]
  | scope a ih => exact ih
  | group index name a ih =>
    exact ⟨rfl, rfl, Nat.add_le_add_right (Choice.total_le d ih.1 ih.2.1 ih.2.2) _⟩
  | repeated low high greedy a ih =>
    exact ⟨rfl, rfl, repeated_le low high a.nullable (Choice.total_le d ih.1 ih.2.1 ih.2.2)⟩

theorem room_le (a : Ast) : a.room f d ≤ a.room g d := by
  obtain ⟨htexts, hcount, hroom⟩ := choice_le h d (.group 0 none a)
  have htotal := Choice.total_le d htexts hcount hroom
  rw [room, room]
  omega

end Ast

/-- A tree fits when it does by the estimates. -/
theorem Ast.fits_of_rough {a : Ast} (h : a.fitsWith CharSet.roughRoom) : a.fits := by
  have hforward := room_le (CharSet.setRoom_le .forward) .forward a
  have hbackward := room_le (CharSet.setRoom_le .backward) .backward a
  simp only [fits, fitsWith, Bool.and_eq_true, decide_eq_true_eq] at h ⊢
  omega

end Regex

end RuleLexer
