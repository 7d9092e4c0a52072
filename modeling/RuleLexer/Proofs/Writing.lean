import RuleLexer.CommandLine.Outcome
import RuleLexer.Proofs.Drain

/-! What work writes. All the work before the last step only reports, so what it has printed when it
fails is nothing; and each function of it ends in one way, whatever was written before. -/
namespace RuleLexer.CommandLine.Work
variable {α β ε : Type} {w : Work α} {f : α → Work β} {a : α} {e : Failure}
  {result : Except Failure β} {first text : String}

def finish (w : Work α) (s : Written) : Except Failure α × Written := w.run.run s

/-- Whatever was written before, the work ends like this and prints this text. -/
def Ends (w : Work α) (result : Except Failure α) (text : String) : Prop :=
  ∀ s, ∃ latest, w.finish s = (result, ⟨s.stdout ++ text, latest⟩)

theorem finish_bind (w : Work α) (f : α → Work β) (s : Written) :
    (w >>= f).finish s = match w.finish s with
      | (.ok a, s) => (f a).finish s
      | (.error e, s) => (.error e, s) := by
  show (ExceptT.bindCont f (w.finish s).1) (w.finish s).2 = _
  obtain ⟨_ | _, _⟩ := w.finish s <;> rfl

namespace Ends

theorem pure (a : α) : Ends (pure a) (.ok a) "" := fun s =>
  ⟨s.latest, by rw [String.append_empty]; rfl⟩

theorem fail (e : Failure) : Ends (fail e : Work α) (.error e) "" := fun s =>
  ⟨s.latest, by rw [String.append_empty]; rfl⟩

theorem report (d : Diagnostic) : Ends (report d) (.ok ()) "" := fun s =>
  ⟨d :: s.latest, by rw [String.append_empty]; rfl⟩

theorem print (text : String) : Ends (print text) (.ok ()) text := fun s => ⟨s.latest, rfl⟩

theorem bind (h : w.Ends (.ok a) first) (hf : (f a).Ends result text) :
    (w >>= f).Ends result (first ++ text) := by
  intro s
  obtain ⟨latest, hw⟩ := h s
  obtain ⟨latest', hlater⟩ := hf ⟨s.stdout ++ first, latest⟩
  refine ⟨latest', ?_⟩
  rw [finish_bind, hw, ← String.append_assoc]
  exact hlater

theorem followed (h : w.Ends (.ok a) "") (hf : (f a).Ends result text) :
    (w >>= f).Ends result text := by
  have hboth := h.bind hf
  rwa [String.empty_append] at hboth

theorem stopped (h : w.Ends (.error e) text) (f : α → Work β) : (w >>= f).Ends (.error e) text := by
  intro s
  obtain ⟨latest, hw⟩ := h s
  exact ⟨latest, by rw [finish_bind, hw]⟩

theorem forM {g : ε → Work Unit} (h : ∀ x, (g x).Ends (.ok ()) "") (list : List ε) :
    (list.forM g).Ends (.ok ()) "" := by
  induction list with
  | nil => exact pure ()
  | cons x list ih => exact (h x).followed ih

theorem log (events : List Log.Event) : Ends (log events) (.ok ()) "" :=
  forM (fun _ => report _) events

theorem accept {failure : ε → Failure} {x : Except ε α} {result : Except Failure α}
    (h : x.mapError failure = result) : Ends (accept failure x) result "" := by
  subst h
  cases x with
  | ok a => exact pure a
  | error e => exact fail (failure e)

/-- Work that prints nothing and does not fail can as well be left out. -/
theorem skippable {w : Work Unit} {f : Unit → Work β} (done : Bool) (h : w.Ends (.ok ()) "")
    (hf : (f ()).Ends result text) : Ends (if done then w >>= f else f ()) result text := by
  cases done with
  | true => exact h.followed hf
  | false => exact hf

end Ends

theorem ends_read {reading : Source.Reading} {file : String} {place : Place}
    {result : Except Failure Source}
    (h : (Source.read reading file place).1.mapError .source = result) :
    Ends (read reading file place) result "" := (Ends.log _).followed (.accept h)

theorem ends_chooseLanguage {name : String} {result : Except Failure Language}
    (h : (Catalog.byAlias? name).elim (.error (.unknownLexer name)) .ok = result) :
    Ends (chooseLanguage name) result "" := by
  subst h
  rw [chooseLanguage]
  cases Catalog.byAlias? name with
  | some language => exact .pure language
  | none => exact .fail _

theorem ends_build {p : Preferences} {language : Language} {options : Options}
    {result : Except Failure Lexer}
    (h : (language.build options).outcome.1.mapError .table = result) :
    Ends (build p language options) result "" := by
  subst h
  rw [build]
  obtain ⟨built, notices⟩ := (language.build options).outcome
  refine (Ends.log _).followed ?_
  cases built with
  | ok lexer =>
    have hwarned := Ends.forM (fun e => .report (.warning e)) lexer.optionErrors
    exact (Ends.pure lexer).followed (hwarned.followed (.pure lexer))
  | error e => exact (Ends.fail (.table e)).stopped _

theorem ends_tokenize (p : Preferences) (lexer : Lexer) (source : Source) :
    Ends (tokenize p lexer source) (.ok (lexer.tokens source.text)) "" :=
  (Ends.log _).followed (.pure _)

theorem ends_verify (lexer : Lexer) (text : String) :
    Ends (verify text (lexer.tokens text)) (.ok ()) "" := by
  have hcheck : Coverage.check text (lexer.tokens text) = .ok () :=
    (Run.covers_tokens lexer lexer.initial text.toList 0).check
  rw [verify, hcheck]
  exact .log _

theorem exists_murphy : ∃ sheet, Style.murphy = .ok sheet := by
  have hok : Style.murphy.isOk = true := by rfl
  cases hmurphy : Style.murphy with
  | ok sheet => exact ⟨sheet, rfl⟩
  | error e =>
    rw [hmurphy] at hok
    cases hok

theorem ends_sheet_of_known {name : String} {sheet : StyleSheet}
    (known : Catalog.foldCase name = "murphy") (h : Style.murphy = .ok sheet) :
    Ends (Work.sheet name) (.ok sheet) "" := by
  rw [Work.sheet, if_pos known, h]
  exact .pure sheet

theorem ends_sheet_of_unknown {name : String} (unknown : Catalog.foldCase name ≠ "murphy") :
    Ends (Work.sheet name) (.error (.unknownStyle name)) "" := by
  rw [Work.sheet, if_neg unknown]
  exact .fail _

end RuleLexer.CommandLine.Work
