import RuleLexer.Proofs.StackContents
import RuleLexer.Proofs.StackSafety
import RuleLexer.Proofs.Stalling

/-! Steps that change nothing. What a step does to the stack is a list of operations, those of its
callback and then that of its rule. An operation is idle when it leaves the states as they are and
does not put others in their place; a step that stays where it is ends with a character emitted by
itself exactly if all its operations are idle, or if it is one too many. States that are put back,
or are replaced by the same ones, count as a change. -/
namespace RuleLexer
open RuleLexer.Text

namespace StackOp
variable {σ : Type}

def replaces : StackOp σ → Bool
  | replace (_ :: _) => true
  | _ => false

/-- Leaves a list of states as it is, and is no replacement. -/
def IdleOn (room : Nat) (contents : List σ) (op : StackOp σ) : Prop :=
  op.onList room contents = contents ∧ op.replaces = false

instance [DecidableEq σ] (room : Nat) (contents : List σ) :
    DecidablePred (IdleOn room contents) :=
  fun op => inferInstanceAs (Decidable (op.onList room contents = contents ∧ op.replaces = false))

end StackOp

namespace Stack
variable {s : Stack}

theorem applyAll_append (s : Stack) (ops more : List (StackOp StateId)) :
    s.applyAll (ops ++ more) = (s.applyAll ops).applyAll more := List.foldl_append

theorem applied_eq (s : Stack) (op? : Option (StackOp StateId)) :
    s.applied op? = s.applyAll op?.toList := by
  cases op? <;> rfl

theorem pushAll_of_full (h : maxDepth ≤ s.depth) (states : List StateId) :
    (s.pushAll states).1 = s := by
  have hpush (state : StateId) : s.push state = (s, false) := by rw [push, if_pos h]
  induction states with
  | nil => rfl
  | cons state rest ih => simpa only [pushAll, hpush] using ih

theorem pushAll_of_take {states : List StateId}
    (hsame : (s.toList ++ states).take maxDepth = s.toList) : (s.pushAll states).1 = s := by
  rcases eq_or_ne states [] with rfl | hsome
  · rfl
  · refine pushAll_of_full ?_ states
    have hlength := congrArg List.length hsame
    have hmore := List.length_pos_iff.2 hsome
    rw [List.length_take, List.length_append, length_toList] at hlength
    omega

theorem pop_of_take {count : Nat}
    (hsame : s.toList.take (max 1 (s.toList.length - count)) = s.toList) :
    (s.pop count).1 = s := by
  have hnone : min count s.below.length = 0 := by
    have hlength := congrArg List.length hsame
    rw [List.length_take, length_toList, depth] at hlength
    omega
  simp [pop, hnone, entries]

theorem apply_of_idle {op : StackOp StateId}
    (hidle : op.IdleOn maxDepth s.toList) : (s.apply op).1 = s := by
  obtain ⟨hsame, hreplaces⟩ := hidle
  cases op with
  | push states => exact pushAll_of_take hsame
  | pushCurrent =>
    have htop : s.toList.getLast?.toList = [s.top] := by rw [toList_eq, List.getLast?_concat]; rfl
    rw [StackOp.onList, htop] at hsame
    exact pushAll_of_take hsame
  | pop count => exact pop_of_take hsame
  | replace states =>
    cases states with
    | nil => exact pop_of_take hsame
    | cons => cases hreplaces
  | reset state =>
    have hentries : [state] = s.below.reverse ++ [s.top] := hsame.trans s.toList_eq
    have hbelow : s.below = [] := by
      have hlength := congrArg List.length hentries
      simpa using hlength
    rw [hbelow] at hentries
    rw [apply, reset, if_pos ⟨hbelow, (List.singleton_inj.1 hentries).symm⟩]

theorem generation_lt_of_not_idle (h : s.depth ≤ maxDepth) {op : StackOp StateId}
    (hbusy : ¬op.IdleOn maxDepth s.toList) : s.generation < (s.apply op).1.generation := by
  by_cases hsame : op.onList maxDepth s.toList = s.toList
  · have hreplaces : op.replaces = true := by simpa [StackOp.IdleOn, hsame] using hbusy
    obtain ⟨state, rest, rfl⟩ : ∃ state rest, op = .replace (state :: rest) := by
      unfold StackOp.replaces at hreplaces
      split at hreplaces
      · exact ⟨_, _, rfl⟩
      · cases hreplaces
    exact generation_lt_replace s state rest
  · rw [← toList_apply h] at hsame
    exact (s.onward_apply op).lt hsame

/-- So the generation stays as it is exactly if nothing is done to the stack. -/
theorem generation_applyAll_eq_iff (h : s.depth ≤ maxDepth) (ops : List (StackOp StateId)) :
    (s.applyAll ops).generation = s.generation ↔ ∀ op ∈ ops, op.IdleOn maxDepth s.toList := by
  induction ops with
  | nil => simp [applyAll]
  | cons op ops ih =>
    rw [List.forall_mem_cons]
    by_cases hidle : op.IdleOn maxDepth s.toList
    · have hsame : s.applyAll (op :: ops) = s.applyAll ops := by
        rw [applyAll, List.foldl_cons, apply_of_idle hidle]
        rfl
      rw [hsame, ih, and_iff_right hidle]
    · have hlt := generation_lt_of_not_idle h hidle
      have hdepth : (s.apply op).1.depth ≤ maxDepth := (applyAll_onList h [op]).2.1
      have hle := (applyAll_onList hdepth ops).2.2.le
      refine iff_of_false (fun hsame => ?_) fun hall => hidle hall.1
      exact absurd (hsame ▸ Nat.lt_of_lt_of_le hlt hle) (Nat.lt_irrefl _)

end Stack

namespace Session

/-- What a call does to the stack; nothing when it is about something else, or names a state that
is not in the table. -/
def op? (s : Session) : Call → Option (StackOp StateId)
  | .push state => (s.run.table.stateId? state).map fun id => .push [id]
  | .pop count => some (.pop count)
  | .reset state => (s.run.table.stateId? state).map .reset
  | _ => none

def ops (s : Session) : Script → List (StackOp StateId)
  | .done => []
  | .call c next =>
      let (s', reply) := s.perform c
      (s.op? c).toList ++ ops s' (next s'.view reply)

theorem stack_perform_eq (s : Session) (call : Call) :
    (s.perform call).1.run.stack = s.run.stack.applied (s.op? call) := by
  cases call with
  | emit stop category => exact (lexer_emit stop category).2
  | emitRange start stop category =>
    exact (lexer_emit stop category).2.trans (lexer_emit start .text).2
  | push name =>
    simp only [perform, push, op?]
    cases s.run.table.stateId? name with
    | none => rfl
    | some id =>
      have hpushed : (s.run.stack.pushAll [id]).1 = (s.run.stack.push id).1 := rfl
      simp only [Option.map_some, Stack.applied, Option.elim, Stack.apply, hpushed]
      split
      · rfl
      · rw [Run.noteRefused_eq]
  | reset name =>
    simp only [perform, reset, op?]
    cases s.run.table.stateId? name <;> rfl
  | pop | continueAt | keep | drop | dropAll | observe => rfl

theorem stack_play_eq (s : Session) (script : Script) :
    (s.play script).run.stack = s.run.stack.applyAll (s.ops script) := by
  induction script generalizing s with
  | done => rfl
  | call c next ih =>
    rw [play, ih, stack_perform_eq, Stack.applied_eq, ← Stack.applyAll_append]
    rfl

end Session

namespace Run

def ops (r : Run) (rule : CompiledRule) (found : Match) : List (StackOp StateId) :=
  let called := match rule.action with
    | .callback f =>
        let s : Session := ⟨r, r.cursor, r.cursor.seek found.stop⟩
        s.ops (f found r.cursor s.view)
    | _ => []
  called ++ rule.op?.toList

theorem stack_follow_ops (runner? : Option Runner) (r : Run) (rule : CompiledRule)
    (found : Match) :
    (r.follow runner? rule found).1.stack = r.stack.applyAll (r.ops rule found) := by
  by_cases hcallback : ∃ f, rule.action = .callback f
  · obtain ⟨f, hf⟩ := hcallback
    let s : Session := ⟨r, r.cursor, r.cursor.seek found.stop⟩
    have hplayed : (r.act runner? rule.action found).1.stack =
        r.stack.applyAll (s.ops (f found r.cursor s.view)) := by
      rw [hf]
      exact (Session.lexer_emit _ _).2.trans (s.stack_play_eq _)
    rw [stack_follow_eq, hplayed, Stack.applied_eq, ← Stack.applyAll_append]
    simp only [ops, hf, s]
  · have hplain : ∀ f, rule.action ≠ .callback f := fun f hf => hcallback ⟨f, hf⟩
    have hops : r.ops rule found = rule.op?.toList := by
      unfold ops
      split
      · next f hf => exact absurd hf (hplain f)
      · rfl
    rw [stack_follow _ _ _ _ hplain, Stack.applied_eq, hops]

def Fitting (r : Run) : Prop := r.stack.depth ≤ Stack.maxDepth

namespace Fitting
variable {r : Run}

theorem fallback (h : r.Fitting) : r.fallback.Fitting := by
  cases hahead : r.cursor.ahead with
  | nil => rwa [Run.fallback, hahead]
  | cons c rest =>
    rw [Fitting, fallback_eq hahead]
    dsimp only
    split
    · exact (Stack.applyAll_onList h [.reset r.table.root]).2.1
    · exact h

theorem follow (h : r.Fitting) (runner? : Option Runner) (rule : CompiledRule) (found : Match) :
    (r.follow runner? rule found).1.Fitting := by
  rw [Fitting, stack_follow_ops]
  exact (Stack.applyAll_onList h _).2.1

theorem scan (h : r.Fitting) : r.scan.Fitting := by
  cases hwinner : r.winner? with
  | none =>
    rw [Run.scan, step_eq, hwinner]
    exact h.fallback
  | some winner =>
    obtain ⟨rule, found⟩ := winner
    have hfollow := h.follow (runner? r.levels) rule found
    rw [scan_of_winner hwinner]
    rcases settle_cases (r.follow (runner? r.levels) rule found).1
        (r.follow (runner? r.levels) rule found).2 r.stack.generation with
      ⟨-, cursor, zeroSteps, hsettle⟩ | ⟨reason, -, zeroSteps, hsettle⟩
    · rw [hsettle]
      exact hfollow
    · rw [hsettle, warn_eq]
      exact fallback hfollow

theorem after (h : r.Fitting) (turns : Nat) : (Point.after turns r).run.Fitting :=
  Point.after_induction h (fun _ _ h => h) (fun _ _ _ h => h.scan) turns

end Fitting

section still
variable {r : Run} {rule : CompiledRule} {found : Match}
  (hwinner : r.winner? = some (rule, found)) (hend : r.cursor.ahead ≠ [])
  (hstill : (r.follow (runner? r.levels) rule found).2.offset ≤ r.position)
include hwinner hend hstill

theorem fallsBack_of_generation_eq
    (hsame : (r.follow (runner? r.levels) rule found).1.stack.generation = r.stack.generation) :
    r.FallsBack r.scan := by
  obtain ⟨c, rest, hahead⟩ := List.exists_cons_of_ne_nil hend
  obtain ⟨piece, hpasses, hemits⟩ :=
    emits_follow (runner?_covering r.levels) r rule (firstMatch_some hwinner).2
  obtain rfl := hpasses.nil_of_offset_le hstill
  have hpending := hemits.pending_eq
  obtain ⟨hlexer, hcursor, -, -, -⟩ := hemits
  have hnot : ¬(r.follow (runner? r.levels) rule found).1.cursor.offset <
      (r.follow (runner? r.levels) rule found).2.offset := by
    rw [hcursor]
    exact Nat.not_lt.2 hstill
  rw [scan_of_winner hwinner, settle, if_neg hnot, if_pos hsame, warn_eq]
  exact fallsBack_fallback hahead hlexer hcursor hpending

/-- A scan that stays in place falls back if all its operations are idle, or it is one too many, and
is counted otherwise. -/
theorem fallsBack_scan_iff (hfits : r.Fitting) (hsteady : r.Steady) :
    (r.FallsBack r.scan ↔ (∀ op ∈ r.ops rule found, op.IdleOn Stack.maxDepth r.stack.toList) ∨
      r.zeroSteps = maxZeroSteps) ∧
    (¬r.FallsBack r.scan → r.scan.cursor = r.cursor ∧ r.scan.pending = r.pending ∧
      r.scan.zeroSteps = r.zeroSteps + 1) := by
  rw [← Stack.generation_applyAll_eq_iff hfits, ← stack_follow_ops (runner? r.levels)]
  by_cases hsame :
      (r.follow (runner? r.levels) rule found).1.stack.generation = r.stack.generation
  · have hfalls := fallsBack_of_generation_eq hwinner hend hstill hsame
    exact ⟨iff_of_true hfalls (.inl hsame), fun hnot => absurd hfalls hnot⟩
  · have hlingers : r.Lingers := ⟨rule, found, hwinner, hstill, hsame⟩
    rw [or_iff_right hsame]
    rcases hlingers.scan hend hsteady with ⟨hfew, hcursor, hpending⟩ | ⟨hmany, hfalls⟩
    · obtain ⟨piece, hstep⟩ := steps_scan hend
      have hnot : ¬r.FallsBack r.scan := by
        intro hfalls
        have hmoved := hfalls.position_lt
        rw [position, position, hcursor] at hmoved
        exact Nat.lt_irrefl _ hmoved
      have hpiece : piece = [] :=
        hstep.passes.nil_of_offset_le (Nat.le_of_eq (congrArg Cursor.offset hcursor))
      exact ⟨iff_of_false hnot (Nat.ne_of_lt hfew),
        fun _ => ⟨hcursor, hpending, (hstep.stays hpiece).1⟩⟩
    · exact ⟨iff_of_true hfalls hmany, fun hnot => absurd hfalls hnot⟩

end still

theorem idle_iff_of_single {r : Run} {rule : CompiledRule} {found : Match} (hfits : r.Fitting)
    (hfew : (r.ops rule found).length ≤ 1) (hplain : ∀ op ∈ r.ops rule found, op.replaces = false) :
    (∀ op ∈ r.ops rule found, op.IdleOn Stack.maxDepth r.stack.toList) ↔
      (r.follow (runner? r.levels) rule found).1.stack.toList = r.stack.toList := by
  rw [stack_follow_ops]
  cases hops : r.ops rule found with
  | nil => simp [Stack.applyAll]
  | cons op ops =>
    rw [hops] at hfew hplain
    obtain rfl : ops = [] := List.length_eq_zero_iff.1 (Nat.le_zero.1 (Nat.le_of_succ_le_succ hfew))
    have honList : (r.stack.applyAll [op]).toList = op.onList Stack.maxDepth r.stack.toList :=
      Stack.toList_apply hfits op
    rw [List.forall_mem_singleton, StackOp.IdleOn, honList,
      and_iff_left (hplain op (List.mem_singleton_self op))]

end Run

/-- At every turn of a run over a text and of every run within it, a scan that stays in place emits
the next character by itself exactly if none of the operations that its callback and its rule make
is a replacement or changes the states, or if it is one more than may stay in a row. One that leaves
other states than there were falls back in the second case only, and where there is no more than
one operation, and no replacement, the states behind the scan decide. -/
theorem still_scans_fall_back_iff (l : Lexer) (text : String) {outer : Run}
    (houter : outer = l.run text ∨ ∃ names, l.runFrom text names = .ok outer) {r : Run}
    (hwithin : outer.Within r) (turns : Nat) :
    let p := Point.after turns r
    let contents := p.run.stack.toList
    p.run.cursor.ahead ≠ [] → ∀ rule found, p.run.winner? = some (rule, found) →
      let followed := p.run.follow (Run.runner? p.run.levels) rule found
      let ops := p.run.ops rule found
      followed.2.offset ≤ p.run.position →
        followed.1.stack.toList =
          ops.foldl (fun contents op => op.onList Stack.maxDepth contents) contents ∧
        (p.run.FallsBack p.run.scan ↔
          (∀ op ∈ ops, op.IdleOn Stack.maxDepth contents) ∨ p.stays = maxZeroSteps) ∧
        (¬p.run.FallsBack p.run.scan → p.run.scan.cursor = p.run.cursor ∧
          p.run.scan.pending = p.run.pending ∧ p.run.scan.zeroSteps = p.run.zeroSteps + 1) ∧
        (followed.1.stack.toList ≠ contents →
          (p.run.FallsBack p.run.scan ↔ p.stays = maxZeroSteps)) ∧
        (ops.length ≤ 1 → (∀ op ∈ ops, op.replaces = false) →
          (p.run.FallsBack p.run.scan ↔
            followed.1.stack.toList = contents ∨ p.stays = maxZeroSteps)) := by
  intro p contents hend rule found hwinner followed ops hstill
  obtain ⟨lexer, states, text, depth, rfl⟩ : ∃ lexer states text depth,
      r = Run.start lexer states text depth := by
    rcases hwithin.start_eq with rfl | ⟨lexer, states, text, depth, -, rfl⟩
    · rcases houter with rfl | ⟨names, hrun⟩
      · exact ⟨l, _, _, _, rfl⟩
      · obtain ⟨states, -, hrun⟩ := bind_ok.1 hrun
        cases hrun
        exact ⟨l, _, _, _, rfl⟩
    · exact ⟨lexer, states, text, depth, rfl⟩
  have hp : p.Holds lexer text depth := .after lexer states text depth turns
  have hstart : (Run.start lexer states text depth).Fitting := Stack.depth_start_le ..
  have hfits : p.run.Fitting := hstart.after turns
  obtain ⟨hiff, hcounts⟩ := Run.fallsBack_scan_iff hwinner hend hstill hfits hp.steady
  rw [hp.stays] at hiff
  have hlist : followed.1.stack.toList =
      ops.foldl (fun contents op => op.onList Stack.maxDepth contents) contents := by
    rw [Run.stack_follow_ops]
    exact (Stack.applyAll_onList hfits ops).1
  refine ⟨hlist, hiff, hcounts, fun hother => ?_, fun hfew hplain => ?_⟩
  · refine hiff.trans (or_iff_right fun hidle => hother ?_)
    have hsame := (Stack.generation_applyAll_eq_iff hfits ops).2 hidle
    rw [← Run.stack_follow_ops (Run.runner? p.run.levels)] at hsame
    by_contra hne
    have hlt := (Stack.applyAll_onList hfits ops).2.2.lt
    rw [← Run.stack_follow_ops (Run.runner? p.run.levels)] at hlt
    exact absurd hsame (Nat.ne_of_gt (hlt hne))
  · rw [hiff, Run.idle_iff_of_single hfits hfew hplain]

/-- Puts its only state in its own place wherever it stands, and counts how often it did. -/
def swappingDraft : TableDraft where
  states := [("root", [(Entry.callback "" fun _ _ v =>
    .run (.keep "count" (.number ((v.memo.number? "count").getD 0 + 1))) .done).replace ["root"]])]

def swappingTable : Table := swappingDraft.compile.toOption.get (by decide +kernel)

def swappingLexer : Lexer := ⟨⟨"swapping", [], [], []⟩, swappingTable, [0], none, []⟩

/-- As many steps have stayed as may. -/
def swappingPoint : Point := .after maxZeroSteps (swappingLexer.run "a")

theorem still_scans_fall_back_iff_swapping :
    swappingPoint.run.cursor.ahead ≠ [] ∧ swappingPoint.stays = maxZeroSteps ∧
      (∃ rule found, swappingPoint.run.winner? = some (rule, found) ∧
        (swappingPoint.run.follow (Run.runner? swappingPoint.run.levels) rule found).2.offset ≤
          swappingPoint.run.position) ∧
      swappingPoint.run.FallsBack swappingPoint.run.scan := by
  have hend : swappingPoint.run.cursor.ahead ≠ [] := by decide +kernel
  have hstays : swappingPoint.stays = maxZeroSteps := by decide +kernel
  have hsome : ∃ winner ∈ swappingPoint.run.winner?,
      (swappingPoint.run.follow (Run.runner? swappingPoint.run.levels) winner.1 winner.2).2.offset ≤
        swappingPoint.run.position := by
    decide +kernel
  obtain ⟨⟨rule, found⟩, hwinner, hstill⟩ := hsome
  have hscan := still_scans_fall_back_iff swappingLexer "a" (.inl rfl) .outermost maxZeroSteps
  rw [← swappingPoint] at hscan
  exact ⟨hend, hstays, ⟨rule, found, hwinner, hstill⟩,
    (hscan hend rule found hwinner hstill).2.1.2 (.inr hstays)⟩

/-- A state that is replaced by itself is no other state than before, and still the step counts as
one that has changed the stack: it emits nothing, and its callback is asked once more for each step
that may stay. -/
theorem replaced_by_itself_counts :
    let r := swappingLexer.run "a"
    (∃ rule found, r.winner? = some (rule, found) ∧
      (r.follow (Run.runner? r.levels) rule found).2.offset ≤ r.position ∧
      (r.follow (Run.runner? r.levels) rule found).1.stack.toList = r.stack.toList) ∧
    ¬r.FallsBack r.scan ∧ r.scan.zeroSteps = 1 ∧
    r.complete.2.memo.number? "count" = some 65 := by
  intro r
  have hsome : ∃ winner ∈ r.winner?,
      (r.follow (Run.runner? r.levels) winner.1 winner.2).2.offset ≤ r.position ∧
      (r.follow (Run.runner? r.levels) winner.1 winner.2).1.stack.toList = r.stack.toList := by
    decide +kernel
  obtain ⟨⟨rule, found⟩, hfirst⟩ := hsome
  have hplace : r.scan.position = r.position := by decide +kernel
  exact ⟨⟨rule, found, hfirst⟩,
    fun hfalls => absurd hfalls.position_lt (Nat.not_lt.2 (Nat.le_of_eq hplace)),
    by decide +kernel, by decide +kernel⟩

end RuleLexer
