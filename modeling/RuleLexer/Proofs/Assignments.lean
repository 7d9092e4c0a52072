import Mathlib.Data.List.DropRight
import RuleLexer.Options
import RuleLexer.Proofs.Entries
import RuleLexer.Proofs.Overriding

/-! Options from assignments. An assignment is taken apart at its first equals sign, and of two
assignments to one name the later one counts. What the options hold can be written as assignments
again, and in whatever order these are read, the options are the same. -/
namespace RuleLexer

/-! Blanks around a text -/

namespace Text
open RuleLexer.Unicode

theorem trim_eq (text : List Char) :
    trim text = List.rdropWhile isSpace (text.dropWhile isSpace) := rfl

theorem mem_of_mem_trim {text : List Char} {c : Char} (h : c ∈ trim text) : c ∈ text :=
  (List.dropWhile_suffix isSpace).subset ((List.rdropWhile_prefix isSpace _).subset h)

theorem trim_trim (text : List Char) : trim (trim text) = trim text := by
  have hstart : (trim text).dropWhile isSpace = trim text := by
    obtain ⟨blanks, hblanks⟩ := List.rdropWhile_prefix isSpace (text.dropWhile isSpace)
    rw [← trim_eq] at hblanks
    have hhead := List.head?_dropWhile_not isSpace text
    cases htrim : trim text with
    | nil => rfl
    | cons c rest =>
      rw [← hblanks, htrim, List.cons_append, List.head?_cons] at hhead
      exact List.dropWhile_cons_of_neg (by simpa using hhead)
  rw [trim_eq (trim text), hstart, trim_eq, List.rdropWhile_idempotent]

end Text

namespace Options
open RuleLexer.Text RuleLexer.Unicode

/-! What an assignment says -/

def Splits (assignment : String) (before after : List Char) : Prop :=
  assignment.toList = before ++ '=' :: after ∧ '=' ∉ before

/-- There is no equals sign, or nothing but blanks before the first. -/
def Malformed (assignment : String) : Prop :=
  '=' ∉ assignment.toList ∨
    ∃ before after, Splits assignment before after ∧ ∀ c ∈ before, isSpace c

def Assigns (name assignment value : String) : Prop :=
  ∃ before after, Splits assignment before after ∧ name = String.ofList (trim before) ∧
    value = String.ofList (trim after)

def written (entry : String × String) : String := entry.1 ++ "=" ++ entry.2

section assignment
variable {assignment name value : String} {before after : List Char}

theorem exists_splits (h : '=' ∈ assignment.toList) : ∃ before after, Splits assignment before after := by
  obtain ⟨before, after, hsplit, hbefore⟩ := List.eq_append_cons_of_mem h
  exact ⟨before, after, hsplit, hbefore⟩

theorem Splits.cut (h : Splits assignment before after) :
    assignment.toList.takeWhile (· != '=') = before ∧
      assignment.toList.dropWhile (· != '=') = '=' :: after := by
  obtain ⟨htext, hbefore⟩ := h
  have hkeep : ∀ c ∈ before, (c != '=') = true := fun c hc =>
    bne_iff_ne.2 fun heq => hbefore (heq ▸ hc)
  rw [htext, List.takeWhile_append_of_pos hkeep, List.dropWhile_append_of_pos hkeep]
  simp

theorem Splits.unique (h : Splits assignment before after) {before' after' : List Char}
    (h' : Splits assignment before' after') : before = before' ∧ after = after' :=
  ⟨h.cut.1.symm.trans h'.cut.1, (List.cons.inj (h.cut.2.symm.trans h'.cut.2)).2⟩

theorem Splits.parse (h : Splits assignment before after) : parseAssignment assignment =
    if trim before = [] then .error (.malformedAssignment assignment)
    else .ok (String.ofList (trim before), String.ofList (trim after)) := by
  rw [parseAssignment, h.cut.1, h.cut.2]
  simp only [List.isEmpty_iff]

theorem parse_of_not_mem (h : '=' ∉ assignment.toList) :
    parseAssignment assignment = .error (.malformedAssignment assignment) := by
  have hkeep : ∀ c ∈ assignment.toList, (c != '=') = true := fun c hc =>
    bne_iff_ne.2 fun heq => h (heq ▸ hc)
  have hnone : assignment.toList.dropWhile (· != '=') = [] := List.dropWhile_eq_nil_iff.2 hkeep
  rw [parseAssignment, hnone]

theorem Splits.malformed_iff (h : Splits assignment before after) :
    Malformed assignment ↔ trim before = [] := by
  rw [trim_eq_nil]
  constructor
  · rintro (hnone | ⟨before', after', h', hblank⟩)
    · exact absurd (by simp [h.1]) hnone
    · rwa [(h.unique h').1]
  · exact fun hblank => .inr ⟨before, after, h, hblank⟩

theorem Splits.assigns_iff (h : Splits assignment before after) : Assigns name assignment value ↔
    name = String.ofList (trim before) ∧ value = String.ofList (trim after) := by
  constructor
  · rintro ⟨before', after', h', hname, hvalue⟩
    obtain ⟨rfl, rfl⟩ := h.unique h'
    exact ⟨hname, hvalue⟩
  · exact fun ⟨hname, hvalue⟩ => ⟨before, after, h, hname, hvalue⟩

theorem parse_ok_iff : parseAssignment assignment = .ok (name, value) ↔
    ¬Malformed assignment ∧ Assigns name assignment value := by
  by_cases hmem : '=' ∈ assignment.toList
  · obtain ⟨before, after, h⟩ := exists_splits hmem
    rw [h.parse, h.malformed_iff, h.assigns_iff]
    split
    · next hblank => simp [hblank]
    · next hblank => simp [hblank, eq_comm]
  · rw [parse_of_not_mem hmem]
    exact iff_of_false nofun fun h => h.1 (.inl hmem)

theorem parse_error_iff {e : OptionError} : parseAssignment assignment = .error e ↔
    Malformed assignment ∧ e = .malformedAssignment assignment := by
  by_cases hmem : '=' ∈ assignment.toList
  · obtain ⟨before, after, h⟩ := exists_splits hmem
    rw [h.parse, h.malformed_iff]
    split
    · next hblank => simp [hblank, eq_comm]
    · next hblank => simp [hblank]
  · rw [parse_of_not_mem hmem, Except.error.injEq, eq_comm]
    exact (and_iff_right (.inl hmem)).symm

theorem exists_parse : (∃ p, parseAssignment assignment = .ok p) ↔ ¬Malformed assignment := by
  cases h : parseAssignment assignment with
  | ok p => simpa using (parse_ok_iff.1 h).1
  | error e => simpa using (parse_error_iff.1 h).1

theorem assigns_iff_of_parse {entry : String × String} (h : parseAssignment assignment = .ok entry) :
    Assigns name assignment value ↔ entry = (name, value) := by
  have hformed : ¬Malformed assignment := exists_parse.1 ⟨entry, h⟩
  rw [← and_iff_right hformed (b := Assigns name assignment value), ← parse_ok_iff, h, Except.ok.injEq]

theorem parse_written (h : parseAssignment assignment = .ok (name, value)) :
    parseAssignment (written (name, value)) = .ok (name, value) := by
  obtain ⟨hformed, before, after, hsplits, rfl, rfl⟩ := parse_ok_iff.1 h
  have hname : trim before ≠ [] := mt hsplits.malformed_iff.2 hformed
  have hwritten : Splits (written (String.ofList (trim before), String.ofList (trim after)))
      (trim before) (trim after) := by
    refine ⟨by simp [written], fun hmem => hsplits.2 (mem_of_mem_trim hmem)⟩
  rw [hwritten.parse, trim_trim, trim_trim, if_neg hname]

end assignment

/-! Options -/

section options
variable {assignments : List String} {o : Options} {name value : String}

theorem get?_set (o : Options) (entry : String × String) (value : String) :
    (o.set entry.1 entry.2).get? name = some value ↔
      entry = (name, value) ∨ (∀ other, entry ≠ (name, other)) ∧ o.get? name = some value := by
  obtain ⟨n, v⟩ := entry
  rw [get?, set, Entries.get?_insert, get?]
  split
  · next h => simp [h]
  · next h => simp [Ne.symm h]

theorem get?_foldl_set {entries : List (String × String)} :
    (entries.foldl (fun o entry => o.set entry.1 entry.2) {} : Options).get? name = some value ↔
      LastTells (fun entry value => entry = (name, value)) entries value := by
  refine (foldl_iff_lastTells (fun (o : Options) value => o.get? name = some value) get?_set {}).trans ?_
  exact or_iff_left fun h => by simpa [get?, Entries.get?] using h.2

theorem ascending_foldl_set {entries : List (String × String)} (h : o.entries.Ascending) :
    (entries.foldl (fun o entry => o.set entry.1 entry.2) o).entries.Ascending := by
  induction entries generalizing o with
  | nil => exact h
  | cons entry entries ih => exact ih h.insert

/-! Options from assignments -/

theorem ofAssignments_eq (assignments : List String) : ofAssignments assignments =
    (fun entries => entries.foldl (fun o entry => o.set entry.1 entry.2) {}) <$>
      assignments.mapM parseAssignment :=
  foldlM_eq_map_mapM (fun (o : Options) (entry : String × String) => o.set entry.1 entry.2) {}

theorem ofAssignments_ok_iff : ofAssignments assignments = .ok o ↔
    ∃ entries, assignments.mapM parseAssignment = .ok entries ∧
      entries.foldl (fun o entry => o.set entry.1 entry.2) {} = o := by
  rw [ofAssignments_eq, map_ok]

theorem exists_ofAssignments :
    (∃ o, ofAssignments assignments = .ok o) ↔ ∀ a ∈ assignments, ¬Malformed a := by
  simp only [ofAssignments_ok_iff, exists_comm (α := Options), exists_and_left, exists_eq', and_true,
    exists_mapM, exists_parse]

theorem ofAssignments_error_iff {e : OptionError} : ofAssignments assignments = .error e ↔
    ∃ before a after, assignments = before ++ a :: after ∧ (∀ earlier ∈ before, ¬Malformed earlier) ∧
      Malformed a ∧ e = .malformedAssignment a := by
  have herror : ofAssignments assignments = .error e ↔ assignments.mapM parseAssignment = .error e := by
    rw [ofAssignments_eq]
    cases assignments.mapM parseAssignment <;> simp [Functor.map, Except.map]
  simp only [herror, mapM_error_iff, exists_parse, parse_error_iff]

section result
variable (h : ofAssignments assignments = .ok o)
include h

theorem ascending_of_ofAssignments : o.entries.Ascending := by
  obtain ⟨entries, -, rfl⟩ := ofAssignments_ok_iff.1 h
  exact ascending_foldl_set List.Pairwise.nil

theorem get?_ofAssignments : o.get? name = some value ↔ LastTells (Assigns name) assignments value := by
  obtain ⟨entries, hread, rfl⟩ := ofAssignments_ok_iff.1 h
  rw [get?_foldl_set]
  refine (lastTells_iff_of_forall₂ (mapM_ok_iff.1 hread) fun a entry hentry value => ?_).symm
  exact assigns_iff_of_parse hentry

theorem mem_entries_iff : (name, value) ∈ o.entries ↔ o.get? name = some value :=
  (ascending_of_ofAssignments h).get?_eq_some_iff.symm

theorem parse_written_of_mem {entry : String × String} (hentry : entry ∈ o.entries) :
    parseAssignment (written entry) = .ok entry := by
  obtain ⟨name, value⟩ := entry
  rw [mem_entries_iff h, get?_ofAssignments h] at hentry
  obtain ⟨a, ha, hassigns⟩ := hentry.exists_mem
  exact parse_written (parse_ok_iff.2 ⟨exists_ofAssignments.1 ⟨o, h⟩ a ha, hassigns⟩)

theorem ofAssignments_written {again : List String} (hperm : again.Perm (o.entries.map written)) :
    ofAssignments again = .ok o := by
  have hmem : ∀ a, a ∈ again ↔ ∃ entry ∈ o.entries, written entry = a := fun a =>
    hperm.mem_iff.trans List.mem_map
  have hassigns : ∀ a ∈ again, ∀ name value, Assigns name a value → (name, value) ∈ o.entries := by
    intro a ha name value hassigns
    obtain ⟨entry, hentry, rfl⟩ := (hmem a).1 ha
    rwa [(assigns_iff_of_parse (parse_written_of_mem h hentry)).1 hassigns] at hentry
  obtain ⟨o', ho'⟩ : ∃ o', ofAssignments again = .ok o' := by
    refine exists_ofAssignments.2 fun a ha => ?_
    obtain ⟨entry, hentry, rfl⟩ := (hmem a).1 ha
    exact exists_parse.1 ⟨entry, parse_written_of_mem h hentry⟩
  have hget : ∀ name, o'.get? name = o.get? name := by
    refine fun name => Option.ext fun value => ?_
    rw [get?_ofAssignments ho', ← mem_entries_iff h]
    constructor
    · intro hlast
      obtain ⟨a, ha, htells⟩ := hlast.exists_mem
      exact hassigns a ha name value htells
    · intro hentry
      have hparse := parse_written_of_mem h hentry
      refine lastTells_of_same ⟨_, (hmem _).2 ⟨_, hentry, rfl⟩, (assigns_iff_of_parse hparse).2 rfl⟩ ?_
      intro a ha other hother
      rw [mem_entries_iff h] at hentry
      have hsame := (mem_entries_iff h).1 (hassigns a ha name other hother)
      exact Option.some_inj.1 (hsame.symm.trans hentry)
  have hentries : o'.entries = o.entries :=
    (ascending_of_ofAssignments ho').ext (ascending_of_ofAssignments h) hget
  rw [ho', ← show (⟨o'.entries⟩ : Options) = o from congrArg Options.mk hentries]

end result

/-- Reading assignments fails at the first one that is malformed. Otherwise each name has what the last
assignment to it says, there is nothing else, and the same can be read from its own entries. -/
theorem assignments_decide (assignments : List String) :
    (∀ e, ofAssignments assignments = .error e ↔
      ∃ before a after, assignments = before ++ a :: after ∧ (∀ earlier ∈ before, ¬Malformed earlier) ∧
        Malformed a ∧ e = .malformedAssignment a) ∧
    ((∃ o, ofAssignments assignments = .ok o) ↔ ∀ a ∈ assignments, ¬Malformed a) ∧
    ∀ o, ofAssignments assignments = .ok o →
      (∀ name value, o.get? name = some value ↔ LastTells (Assigns name) assignments value) ∧
      (∀ name value, (name, value) ∈ o.entries ↔ o.get? name = some value) ∧
      o.entries.Ascending ∧
      ∀ again : List String, again.Perm (o.entries.map written) → ofAssignments again = .ok o :=
  ⟨fun _ => ofAssignments_error_iff, exists_ofAssignments, fun _ h =>
    ⟨fun _ _ => get?_ofAssignments h, fun _ _ => mem_entries_iff h, ascending_of_ofAssignments h,
      fun _ hperm => ofAssignments_written h hperm⟩⟩

example : ofAssignments ["a = 1", "b=x=y", " a =2"] = .ok ⟨[("a", "2"), ("b", "x=y")]⟩ := by rfl

end options

end Options

end RuleLexer
