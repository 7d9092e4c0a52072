import Mathlib.Data.List.DropRight
import RuleLexer.Log.Buffer

/-! What a log in memory holds. Whatever is logged and cleared, the buffer has the newest of the events
that were let through since it was cleared last: all of them, or as many as it has room for. -/
namespace RuleLexer.Log

/-! One buffer -/

namespace Buffer
variable {b : Buffer} {passed : List Event}

/-- The buffer holds what is left of these events, oldest first, when there is no room for more. -/
def Keeps (b : Buffer) (passed : List Event) : Prop := b.newest = passed.reverse.take capacity

theorem keeps_nil : Keeps {} [] := rfl

theorem length_events : b.events.length = b.size := List.length_reverse

theorem Keeps.add (h : b.Keeps passed) (e : Event) : (b.add e).Keeps (passed ++ [e]) := by
  rw [Keeps] at h ⊢
  rw [Buffer.add, h, List.reverse_append, List.reverse_singleton, List.singleton_append]
  cases capacity with
  | zero => rfl
  | succ room => simp [List.take_take]

theorem Keeps.events_eq (h : b.Keeps passed) :
    b.events = passed.rtake (min passed.length capacity) := by
  have hroom : passed.reverse.take capacity = passed.reverse.take (min passed.length capacity) := by
    rw [List.take_eq_take_min, List.length_reverse, Nat.min_comm]
  rw [events, h, hroom, List.rtake_eq_reverse_take_reverse]

theorem Keeps.isSuffix (h : b.Keeps passed) : b.events <:+ passed := by
  rw [h.events_eq]
  exact List.drop_suffix _ _

theorem Keeps.size_eq (h : b.Keeps passed) : b.size = min passed.length capacity := by
  rw [size, h, List.length_take, List.length_reverse, Nat.min_comm]

theorem Keeps.exists_kept {older newer : List Event} {e : Event}
    (h : b.Keeps (older ++ e :: newer)) (hroom : newer.length < capacity) :
    ∃ kept, kept <:+ older ∧ b.events = kept ++ e :: newer := by
  have hnewer : (e :: newer).reverse.length ≤ capacity := by
    rw [List.length_reverse]
    exact hroom
  refine ⟨older.rtake (capacity - (e :: newer).reverse.length), List.drop_suffix _ _, ?_⟩
  rw [events, h, List.reverse_append, List.take_append, List.take_of_length_le hnewer,
    List.reverse_append, List.reverse_reverse, List.rtake_eq_reverse_take_reverse]

theorem counts_add_up (b : Buffer) :
    (b.ofLevel .error).length + (b.ofLevel .warning).length + (b.ofLevel .info).length +
      (b.ofLevel .debug).length = b.size := by
  rw [← length_events]
  simp only [ofLevel]
  induction b.events with
  | nil => rfl
  | cons e rest ih =>
    simp only [List.filter_cons, List.length_cons, ← ih]
    cases e.level <;> simp <;> omega

end Buffer

/-! Calls of a service -/

namespace Service

inductive Call
  | log (e : Event)
  | clear

def perform (s : Service) : Call → Service
  | .log e => s.log e
  | .clear => s.clear

def run (s : Service) (calls : List Call) : Service := calls.foldl perform s

/-- These were logged after the log was cleared for the last time, if it ever was. -/
def LoggedSinceClear (calls : List Call) (logged : List Event) : Prop :=
  ∃ before, calls = before ++ logged.map .log ∧ (before = [] ∨ ∃ earlier, before = earlier ++ [.clear])

def letThrough (threshold : Level) (logged : List Event) : List Event :=
  logged.filter fun e => e.level.passes threshold

variable {s : Service} {calls : List Call} {passed logged : List Event}

theorem exists_loggedSinceClear (calls : List Call) : ∃ logged, LoggedSinceClear calls logged := by
  induction calls using List.reverseRecOn with
  | nil => exact ⟨[], [], rfl, .inl rfl⟩
  | append_singleton calls call ih =>
    cases call with
    | log e =>
      obtain ⟨logged, before, rfl, hbefore⟩ := ih
      exact ⟨logged ++ [e], before, by simp, hbefore⟩
    | clear => exact ⟨[], calls ++ [.clear], by simp, .inr ⟨calls, rfl⟩⟩

@[simp]
theorem threshold_perform (s : Service) (call : Call) : (s.perform call).threshold = s.threshold := by
  cases call with
  | log e => rw [perform, log]; split <;> rfl
  | clear => rfl

@[simp]
theorem threshold_run (s : Service) (calls : List Call) : (s.run calls).threshold = s.threshold := by
  induction calls generalizing s with
  | nil => rfl
  | cons call calls ih => exact (ih _).trans (threshold_perform s call)

theorem run_append (s : Service) (before after : List Call) :
    s.run (before ++ after) = (s.run before).run after := List.foldl_append

theorem keeps_log (h : s.buffer.Keeps passed) (e : Event) :
    (s.log e).buffer.Keeps (passed ++ letThrough s.threshold [e]) := by
  rw [log, letThrough]
  cases hpass : e.level.passes s.threshold with
  | true => simpa [hpass] using h.add e
  | false => simpa [hpass] using h

theorem keeps_run (h : s.buffer.Keeps passed) (logged : List Event) :
    (s.run (logged.map .log)).buffer.Keeps (passed ++ letThrough s.threshold logged) := by
  induction logged generalizing s passed with
  | nil =>
    rw [letThrough, List.filter_nil, List.append_nil]
    exact h
  | cons e logged ih =>
    have hlogged := ih (keeps_log h e)
    rwa [show (s.log e).threshold = s.threshold from threshold_perform s (.log e), List.append_assoc,
      letThrough, letThrough, ← List.filter_append] at hlogged

theorem keeps_since_clear (threshold : Level) (h : LoggedSinceClear calls logged) :
    (run { threshold } calls).buffer.Keeps (letThrough threshold logged) := by
  obtain ⟨before, rfl, hbefore⟩ := h
  have hempty : (run { threshold } before).buffer.Keeps [] := by
    obtain rfl | ⟨earlier, rfl⟩ := hbefore
    · exact Buffer.keeps_nil
    · rw [run_append]
      exact Buffer.keeps_nil
  rw [run_append]
  simpa using keeps_run hempty logged

/-- The buffer has the last of the events that were let through since it was cleared. None that is
among the newest is lost, and each counts under its level. -/
theorem buffer_has_newest (threshold : Level) (calls : List Call) :
    (∃ logged, LoggedSinceClear calls logged) ∧
    ∀ logged, LoggedSinceClear calls logged →
      let passed := letThrough threshold logged
      let buffer := (run { threshold } calls).buffer
      let summary := Summary.ofBuffer buffer
      buffer.events = passed.rtake (min passed.length Buffer.capacity) ∧
      buffer.events.length = min passed.length Buffer.capacity ∧
      buffer.events <:+ passed ∧
      (∀ older e newer, passed = older ++ e :: newer → newer.length < Buffer.capacity →
        ∃ kept, kept <:+ older ∧ buffer.events = kept ++ e :: newer) ∧
      summary.total = buffer.events.length ∧
      summary.errors + summary.warnings + summary.infos + summary.debugs = summary.total := by
  refine ⟨exists_loggedSinceClear calls, fun logged h => ?_⟩
  have hkeeps := keeps_since_clear threshold h
  refine ⟨hkeeps.events_eq, Buffer.length_events.trans hkeeps.size_eq, hkeeps.isSuffix, ?_,
    Buffer.length_events.symm, Buffer.counts_add_up _⟩
  intro older e newer hpassed hroom
  exact (hpassed ▸ hkeeps).exists_kept hroom

end Service

end RuleLexer.Log
