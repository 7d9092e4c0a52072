import RuleLexer.Log.Journal
import RuleLexer.Proofs.Entries
import RuleLexer.Proofs.Overriding

/-! The source that events carry. A journal has one place for it, so what comes last of setting it,
clearing it and working within one decides: work within a source leaves none behind, whatever
there was before, and inside another source it ends that one as well. -/
namespace RuleLexer.Log

def Event.under (source? : Option String) (e : Event) : Event :=
  match source? with
  | none => e
  | some path => e.withContext "source" path

theorem Event.get?_under (source? : Option String) (e : Event) :
    (e.under source?).context.get? "source" = source?.or (e.context.get? "source") := by
  cases source? with
  | none => rfl
  | some path => exact Entries.get?_insert.trans (if_pos rfl)

/-- What an activity leaves as the source, if it does anything to it. -/
def Activity.Leaves : Activity → Option String → Prop
  | .log _, _ => False
  | .setSource path, source? => source? = some path
  | .clearSource, source? | .within _ _, source? => source? = none

namespace Journal

theorem log_eq (j : Journal) (e : Event) : j.log e = ⟨j.source?, e.under j.source? :: j.latest⟩ := rfl

theorem performAll_eq (j : Journal) (activities : List Activity) :
    performAll j activities = activities.foldl perform j := by
  induction activities generalizing j with
  | nil => rw [performAll, List.foldl_nil]
  | cons a rest ih => rw [performAll, ih, List.foldl_cons]

theorem performAll_append (j : Journal) (before after : List Activity) :
    performAll j (before ++ after) = performAll (performAll j before) after := by
  simp only [performAll_eq, List.foldl_append]

theorem source_perform (j : Journal) (a : Activity) (source? : Option String) :
    (j.perform a).source? = source? ↔
      a.Leaves source? ∨ (∀ other, ¬a.Leaves other) ∧ j.source? = source? := by
  cases a with
  | log e => simp [perform, log_eq, Activity.Leaves]
  | setSource path => simp [perform, setSource, Activity.Leaves, eq_comm]
  | clearSource => simp [perform, clearSource, Activity.Leaves, eq_comm]
  | within path body => simp [perform, clearSource, Activity.Leaves, eq_comm]

theorem source_performAll (j : Journal) (activities : List Activity) (source? : Option String) :
    (performAll j activities).source? = source? ↔ LastTells Activity.Leaves activities source? ∨
      Silent Activity.Leaves activities ∧ j.source? = source? := by
  rw [performAll_eq]
  exact foldl_iff_lastTells (fun j source? => Journal.source? j = source?) source_perform j

mutual

theorem latest_perform (j : Journal) : (a : Activity) → j.latest <:+ (j.perform a).latest
  | .log e => by
    rw [perform, log_eq]
    exact List.suffix_cons _ _
  | .setSource path => by
    rw [perform]
    exact List.suffix_rfl
  | .clearSource => by
    rw [perform]
    exact List.suffix_rfl
  | .within path body => by
    rw [perform]
    exact latest_performAll (j.setSource path) body

theorem latest_performAll (j : Journal) :
    (activities : List Activity) → j.latest <:+ (performAll j activities).latest
  | [] => by simp only [performAll, List.suffix_rfl]
  | a :: rest => by
    rw [performAll]
    exact (latest_perform j a).trans (latest_performAll (j.perform a) rest)

end

/-- Work within a source leaves none behind. What it notes itself is noted under the source that the
work has left there so far, and under its own source only where it has left none. -/
theorem within_ends_source (j : Journal) (path : String) (body : List Activity) :
    (j.perform (.within path body)).source? = none ∧
    ∀ before e after, body = before ++ .log e :: after →
      let there := performAll (j.setSource path) before
      (∀ source?, there.source? = source? ↔ LastTells Activity.Leaves before source? ∨
        Silent Activity.Leaves before ∧ some path = source?) ∧
      e.under there.source? :: there.latest <:+ (j.perform (.within path body)).latest ∧
      (e.under there.source?).context.get? "source" = there.source?.or (e.context.get? "source") := by
  refine ⟨by rw [perform, clearSource], ?_⟩
  rintro before e after rfl there
  refine ⟨source_performAll (j.setSource path) before, ?_, Event.get?_under _ e⟩
  have hlatest : (j.perform (.within path (before ++ .log e :: after))).latest =
      (performAll (there.log e) after).latest := by
    rw [perform, performAll_append, performAll, perform]
    rfl
  rw [hlatest]
  exact latest_performAll (there.log e) after

/-- The source that was set before is lost, and so is that of the work around a nested one. -/
theorem nested_source_is_lost :
    (({ source? := some "index.html" } : Journal).perform (.within "style.css" [])).source? = none ∧
    (({} : Journal).perform (.within "index.html"
      [.log (.info "before"), .within "style.css" [.log (.info "inside")], .log (.info "after")])).events.map
        (fun e => (e.message, e.context.get? "source")) =
      [("before", some "index.html"), ("inside", some "style.css"), ("after", none)] := by
  constructor <;> rfl

end Journal

end RuleLexer.Log
