import RuleLexer.Proofs.Arguments
import RuleLexer.Proofs.Sources
import RuleLexer.Proofs.Writing
import RuleLexer.Proofs.Xslt

/-! What a command line prints: all or nothing. If anything is wrong with what is asked for, the
work fails before the first character is printed; otherwise the whole listing is printed. Whether
the tokens are checked as well makes no difference to either, since the tokens of a lexer cover
every text. -/
namespace RuleLexer.CommandLine
open RuleLexer.Log

namespace Request

def Chooses (r : Request) (lexer : Lexer) : Prop :=
  ∃ language options, Catalog.byAlias? (r.lexer?.getD "") = some language ∧
    Options.ofAssignments r.assignments = .ok options ∧
    (language.build options).outcome.1 = .ok lexer

inductive Lists (r : Request) (tokens : List Token) : String → Prop
  | raw (format : r.format = .raw) : Lists r tokens (Listing.raw tokens)
  | json (format : r.format = .json) (plain : r.style? = none) :
      Lists r tokens (Listing.json none tokens)
  | styled {name : String} {sheet : StyleSheet} (format : r.format = .json)
      (asked : r.style? = some name) (known : Catalog.foldCase name = "murphy")
      (built : Style.murphy = .ok sheet) : Lists r tokens (Listing.json (some sheet) tokens)

/-- All that there is to print of a text: its scores, or all its tokens. -/
inductive Answers (r : Request) (text : String) : String → Prop
  | scores (scoring : r.scores = true) : Answers r text (Listing.scores text)
  | tokens {lexer : Lexer} {tokens : List Token} {listing : String} (listed : r.scores = false)
      (chosen : r.Chooses lexer) (all : (lexer.run text).Gives tokens)
      (written : r.Lists tokens listing) : Answers r text listing

/-- What can be wrong with a request. The lexer, its options and the style do not matter where they
are not used. -/
inductive Faulty (r : Request) (place : Place) : Prop
  | level {name : String} (asked : r.level? = some name) (unknown : Level.ofText? name = none)
  | file (lacking : place.Lacking)
  | encoding (garbled : place.Garbled)
  | lexer (listed : r.scores = false) (unknown : Catalog.byAlias? (r.lexer?.getD "") = none)
  | assignment {e : OptionError} (listed : r.scores = false)
      (malformed : Options.ofAssignments r.assignments = .error e)
  | table {language : Language} {options : Options} {e : TableError} (listed : r.scores = false)
      (found : Catalog.byAlias? (r.lexer?.getD "") = some language)
      (read : Options.ofAssignments r.assignments = .ok options)
      (rejected : (language.build options).outcome.1 = .error e)
  | style {name : String} (listed : r.scores = false) (format : r.format = .json)
      (asked : r.style? = some name) (unknown : Catalog.foldCase name ≠ "murphy")

variable {r : Request} {place : Place} {text listing : String} {strip : Bool}

theorem Lists.known {tokens : List Token} {name : String} (h : r.Lists tokens listing)
    (format : r.format = .json) (asked : r.style? = some name) :
    Catalog.foldCase name = "murphy" := by
  cases h with
  | raw raw => cases raw.symm.trans format
  | json _ plain => cases plain.symm.trans asked
  | styled _ asked' known _ =>
    cases asked'.symm.trans asked
    exact known

theorem Answers.not_faulty (h : r.Answers text listing) (hholds : place.Holds strip text)
    (hlevel : ∀ name, r.level? = some name → Level.ofText? name ≠ none) : ¬r.Faulty place := by
  have hchosen (listed : r.scores = false) : ∃ lexer tokens, r.Chooses lexer ∧
      r.Lists tokens listing := by
    cases h with
    | scores scoring => cases scoring.symm.trans listed
    | tokens _ chosen _ written => exact ⟨_, _, chosen, written⟩
  intro hfaulty
  cases hfaulty with
  | level asked unknown => exact hlevel _ asked unknown
  | file lacking => exact hholds.not_lacking lacking
  | encoding garbled => exact hholds.not_garbled garbled
  | lexer listed unknown =>
    obtain ⟨_, _, ⟨_, _, found, -, -⟩, -⟩ := hchosen listed
    cases found.symm.trans unknown
  | assignment listed malformed =>
    obtain ⟨_, _, ⟨_, _, -, read, -⟩, -⟩ := hchosen listed
    cases read.symm.trans malformed
  | table listed found read rejected =>
    obtain ⟨_, _, ⟨_, _, found', read', built⟩, -⟩ := hchosen listed
    cases found'.symm.trans found
    cases read'.symm.trans read
    cases built.symm.trans rejected
  | style listed format asked unknown =>
    obtain ⟨_, _, -, written⟩ := hchosen listed
    exact unknown (written.known format asked)

end Request

namespace Work
variable {r : Request}

theorem list_cases (r : Request) (tokens : List Token) :
    (∃ listing, r.Lists tokens listing ∧ Ends (list r tokens) (.ok ()) listing) ∨
    ∃ name e, r.format = .json ∧ r.style? = some name ∧ Catalog.foldCase name ≠ "murphy" ∧
      Ends (list r tokens) (.error e) "" := by
  rw [list.eq_def]
  cases hformat : r.format with
  | raw => exact .inl ⟨_, .raw hformat, .print _⟩
  | json =>
    cases hstyle : r.style? with
    | none => exact .inl ⟨_, .json hformat hstyle, .print _⟩
    | some name =>
      by_cases hknown : Catalog.foldCase name = "murphy"
      · obtain ⟨sheet, hsheet⟩ := exists_murphy
        exact .inl ⟨_, .styled hformat hstyle hknown hsheet,
          (ends_sheet_of_known hknown hsheet).followed (.print _)⟩
      · exact .inr ⟨name, _, rfl, rfl, hknown, (ends_sheet_of_unknown hknown).stopped _⟩

theorem ends_found {name : String} {language : Language}
    (found : Catalog.byAlias? name = some language) :
    Ends (chooseLanguage name) (.ok language) "" := ends_chooseLanguage (by rw [found]; rfl)

theorem ends_options {assignments : List String} {options : Options}
    (read : Options.ofAssignments assignments = .ok options) :
    Ends (accept .option (Options.ofAssignments assignments)) (.ok options) "" :=
  .accept (by rw [read]; rfl)

theorem ends_tokens {p : Preferences} {language : Language} {options : Options}
    (found : Catalog.byAlias? (r.lexer?.getD "") = some language)
    (read : Options.ofAssignments r.assignments = .ok options) {lexer : Lexer}
    (built : (language.build options).outcome.1 = .ok lexer) {source : Source}
    {result : Except Failure Unit} {text : String}
    (hlist : Ends (list r (lexer.tokens source.text)) result text) (verify : Bool) :
    Ends (tokens p { r with verify } source) result text := by
  have hbuild : Ends (build p language options) (.ok lexer) "" := ends_build (by rw [built]; rfl)
  refine (ends_found found).followed ((ends_options read).followed (hbuild.followed ?_))
  refine (Ends.log _).followed ?_
  refine (ends_tokenize p lexer source).followed ((Ends.log _).followed ?_)
  exact .skippable verify (ends_verify lexer source.text) hlist

theorem tokens_cases (p : Preferences) (listed : r.scores = false) (source : Source)
    (place : Place) :
    (∃ listing, r.Answers source.text listing ∧
      ∀ verify, Ends (tokens p { r with verify } source) (.ok ()) listing) ∨
    r.Faulty place ∧ ∃ e, ∀ verify, Ends (tokens p { r with verify } source) (.error e) "" := by
  cases found : Catalog.byAlias? (r.lexer?.getD "") with
  | none =>
    have hlanguage : Ends (chooseLanguage (r.lexer?.getD "")) _ "" :=
      ends_chooseLanguage (by rw [found])
    exact .inr ⟨.lexer listed found, _, fun verify => hlanguage.stopped _⟩
  | some language =>
    cases read : Options.ofAssignments r.assignments with
    | error e =>
      have hoptions : Ends (accept .option (Options.ofAssignments r.assignments)) _ "" :=
        .accept (by rw [read])
      exact .inr ⟨.assignment listed read, _, fun verify =>
        (ends_found found).followed (hoptions.stopped _)⟩
    | ok options =>
      cases built : (language.build options).outcome.1 with
      | error e =>
        have hbuild : Ends (build p language options) _ "" := ends_build (by rw [built])
        exact .inr ⟨.table listed found read built, _, fun verify =>
          (ends_found found).followed ((ends_options read).followed (hbuild.stopped _))⟩
      | ok lexer =>
        obtain ⟨listing, hlists, hlist⟩ | ⟨name, e, format, asked, unknown, hlist⟩ :=
          list_cases r (lexer.tokens source.text)
        · have hall : (lexer.run source.text).Gives (lexer.tokens source.text) :=
            Run.gives_tokens (Run.steady_start ..)
          exact .inl ⟨listing, .tokens listed ⟨language, options, found, read, built⟩ hall hlists,
            ends_tokens found read built hlist⟩
        · exact .inr ⟨.style listed format asked unknown, e, ends_tokens found read built hlist⟩

section perform
variable {p : Preferences} {duration : String} {place : Place} {source : Source} {verify : Bool}
  (hread : (Source.read ⟨p.stripMark, if p.logTimings then some duration else none⟩ r.file
    place).1 = .ok source)
include hread

theorem ends_perform {result : Except Failure Unit} {text : String}
    (h : Ends (if r.scores then print (Listing.scores source.text)
      else tokens p { r with verify } source) result text) :
    Ends (perform p duration { r with verify } place) result text := by
  have hsource : Ends (read _ r.file place) (.ok source) "" := ends_read (by rw [hread]; rfl)
  exact hsource.followed h

theorem ends_perform_scores (scoring : r.scores = true) :
    Ends (perform p duration { r with verify } place) (.ok ()) (Listing.scores source.text) := by
  refine ends_perform hread ?_
  rw [if_pos scoring]
  exact .print _

theorem ends_perform_tokens (listed : r.scores = false) {result : Except Failure Unit}
    {text : String} (h : Ends (tokens p { r with verify } source) result text) :
    Ends (perform p duration { r with verify } place) result text := by
  refine ends_perform hread ?_
  rwa [if_neg (by rw [listed]; exact Bool.false_ne_true)]

end perform

theorem perform_cases (p : Preferences) (duration : String) (hfile : r.file ≠ "") (place : Place) :
    (∃ text listing, place.Holds p.stripMark text ∧ r.Answers text listing ∧
      ∀ verify, Ends (perform p duration { r with verify } place) (.ok ()) listing) ∨
    r.Faulty place ∧
      ∃ e, ∀ verify, Ends (perform p duration { r with verify } place) (.error e) "" := by
  obtain ⟨source, hsource, hholds⟩ | ⟨e, herror, hplace⟩ := Source.read_cases
    ⟨p.stripMark, if p.logTimings then some duration else none⟩ hfile place
  · obtain scoring | listed := Bool.eq_false_or_eq_true r.scores
    · exact .inl ⟨source.text, _, hholds, .scores scoring, fun _ =>
        ends_perform_scores hsource scoring⟩
    · obtain ⟨listing, hanswers, hdone⟩ | ⟨hfaulty, e, hfailed⟩ :=
        tokens_cases p listed source place
      · exact .inl ⟨source.text, listing, hholds, hanswers, fun verify =>
          ends_perform_tokens hsource listed (hdone verify)⟩
      · exact .inr ⟨hfaulty, e, fun verify => ends_perform_tokens hsource listed (hfailed verify)⟩
  · have hread : Ends (read _ r.file place) _ "" := ends_read (by rw [herror])
    exact .inr ⟨hplace.elim .file .encoding, _, fun verify => hread.stopped _⟩

end Work

namespace Request
variable {r : Request} {p environment : Preferences} {duration : String} {place : Place}

theorem preferences_cases (r : Request) (environment : Preferences) :
    (∃ p, r.preferences environment = .ok p ∧ p.stripMark = environment.stripMark ∧
      ∀ name, r.level? = some name → Level.ofText? name ≠ none) ∨
    ∃ message name, r.preferences environment = .error message ∧ r.level? = some name ∧
      Level.ofText? name = none := by
  unfold preferences
  dsimp only
  split
  · next hlevel => exact .inl ⟨_, rfl, rfl, fun name asked => by cases hlevel.symm.trans asked⟩
  · next name hlevel =>
    split
    · next level hname =>
      refine .inl ⟨_, rfl, rfl, fun other asked unknown => ?_⟩
      cases hlevel.symm.trans asked
      cases hname.symm.trans unknown
    · next hname => exact .inr ⟨_, name, rfl, hlevel, hname⟩

theorem outcome_of_refused {message : String} (h : r.preferences environment = .error message) :
    (r.outcome environment duration place).exit = 1 ∧
      (r.outcome environment duration place).stdout = "" := by
  rw [outcome, h]
  exact ⟨rfl, rfl⟩

section ends
variable (hp : r.preferences environment = .ok p)
include hp

theorem outcome_of_done {listing : String}
    (h : (Work.perform p duration r place).Ends (.ok ()) listing) :
    (r.outcome environment duration place).exit = 0 ∧
      (r.outcome environment duration place).stdout = listing := by
  obtain ⟨latest, hfinish⟩ := h { latest := [.event Limits.event, .event Setup.readyEvent] }
  rw [Work.finish] at hfinish
  simp only [outcome, hp, hfinish, String.empty_append, and_self]

theorem outcome_of_failed {e : Failure}
    (h : (Work.perform p duration r place).Ends (.error e) "") :
    (r.outcome environment duration place).exit = 1 ∧
      (r.outcome environment duration place).stdout = "" := by
  obtain ⟨latest, hfinish⟩ := h { latest := [.event Limits.event, .event Setup.readyEvent] }
  rw [Work.finish] at hfinish
  simp only [outcome, hp, hfinish, String.empty_append, and_self]

end ends

/-- One outcome with a check and without it: the whole answer where nothing is wrong, and nothing
where something is. -/
theorem outcome_cases (environment : Preferences) (duration : String) (hfile : r.file ≠ "")
    (place : Place) : ∃ exit stdout,
    (∀ verify, ({ r with verify }.outcome environment duration place).exit = exit ∧
      ({ r with verify }.outcome environment duration place).stdout = stdout) ∧
    ((exit = 0 ∧ ¬r.Faulty place ∧
        ∃ text, place.Holds environment.stripMark text ∧ r.Answers text stdout) ∨
      exit = 1 ∧ r.Faulty place ∧ stdout = "") := by
  obtain ⟨p, hp, hstrip, hlevel⟩ | ⟨message, name, hp, asked, unknown⟩ :=
    r.preferences_cases environment
  · have hverify (verify : Bool) : preferences { r with verify } environment = .ok p := hp
    obtain ⟨text, listing, hholds, hanswers, hdone⟩ | ⟨hfaulty, e, hfailed⟩ :=
      Work.perform_cases p duration hfile place
    · rw [hstrip] at hholds
      exact ⟨0, listing, fun verify => outcome_of_done (hverify verify) (hdone verify), .inl ⟨rfl,
        hanswers.not_faulty hholds hlevel, text, hholds, hanswers⟩⟩
    · exact ⟨1, "", fun verify => outcome_of_failed (hverify verify) (hfailed verify),
        .inr ⟨rfl, hfaulty, rfl⟩⟩
  · have hverify (verify : Bool) : preferences { r with verify } environment = .error message := hp
    exact ⟨1, "", fun verify => outcome_of_refused (hverify verify),
      .inr ⟨rfl, .level asked unknown, rfl⟩⟩

/-- A command line that is accepted fails where something is wrong, whatever it is, and then it has
printed nothing. Otherwise it has printed the whole answer for the text of its file, after the mark
at its start has been left out where the environment wants that. A check that is asked for as well,
by no more than its switch, changes nothing of this. -/
theorem prints_all_or_nothing {arguments : List String} {request : Request}
    (accepted : ofArguments arguments = .ok request) (value? : String → Option String)
    (duration : String) (place : Place) :
    let environment := Preferences.ofEnvironment value?
    let outcome := request.outcome environment duration place
    (outcome.exit = 0 ↔ ¬request.Faulty place) ∧ (outcome.exit = 1 ↔ request.Faulty place) ∧
    (outcome.exit = 1 → outcome.stdout = "") ∧
    (outcome.exit = 0 →
      ∃ text, place.Holds environment.stripMark text ∧ request.Answers text outcome.stdout) ∧
    (request.verify = false →
      ofArguments ("--verify" :: arguments) = .ok { request with verify := true }) ∧
    ∀ verify, let other := { request with verify }.outcome environment duration place
      other.exit = outcome.exit ∧ other.stdout = outcome.stdout := by
  intro environment outcome
  obtain ⟨exit, stdout, hsame, hcases⟩ :=
    outcome_cases environment duration (file_ne_empty accepted) place
  obtain ⟨hexit, hstdout⟩ : outcome.exit = exit ∧ outcome.stdout = stdout := hsame request.verify
  rw [hexit, hstdout]
  suffices h : (exit = 0 ↔ ¬request.Faulty place) ∧ (exit = 1 ↔ request.Faulty place) ∧
      (exit = 1 → stdout = "") ∧ (exit = 0 →
        ∃ text, place.Holds environment.stripMark text ∧ request.Answers text stdout) by
    exact ⟨h.1, h.2.1, h.2.2.1, h.2.2.2, ofArguments_verify accepted, hsame⟩
  obtain ⟨rfl, hsound, hanswer⟩ | ⟨rfl, hfaulty, hempty⟩ := hcases
  · exact ⟨iff_of_true rfl hsound, iff_of_false Nat.zero_ne_one hsound,
      fun hone => absurd hone Nat.zero_ne_one, fun _ => hanswer⟩
  · exact ⟨iff_of_false Nat.one_ne_zero (not_not_intro hfaulty), iff_of_true rfl hfaulty,
      fun _ => hempty, fun hzero => absurd hzero Nat.one_ne_zero⟩

/-- A style that is not known goes unnoticed in a raw listing, checked or not, but not as JSON. -/
theorem prints_all_or_nothing_style :
    let environment := Preferences.ofEnvironment fun _ => none
    let place := Place.file "/page.xml" 4 (.ok "<a/>".toUTF8)
    ∃ plain structured : Request,
      ofArguments ["page.xml", "-l", "xml", "-s", "monokai"] = .ok plain ∧
      ofArguments ["page.xml", "-l", "xml", "-s", "monokai", "-f", "json"] = .ok structured ∧
      (∀ verify, ({ plain with verify }.outcome environment "0" place).exit = 0) ∧
      (structured.outcome environment "0" place).exit = 1 ∧
      (structured.outcome environment "0" place).stdout = "" := by
  intro environment place
  obtain ⟨t, htable, -⟩ := Language.Xml.surveyed_table.exists_table
  let plain : Request :=
    { file := "page.xml", lexer? := some "xml", assignments := [], format := .raw
      style? := some "monokai", level? := none, verify := false, scores := false
      traceFallback := false }
  let structured : Request := { plain with format := .json }
  have hplain : ofArguments ["page.xml", "-l", "xml", "-s", "monokai"] = .ok plain := rfl
  have hstructured :
      ofArguments ["page.xml", "-l", "xml", "-s", "monokai", "-f", "json"] = .ok structured := rfl
  have hfound : Catalog.byAlias? "xml" =
      some ⟨Language.Xml.info, fun _ => Language.Xml.lexer, Language.Sniff.xml⟩ := rfl
  have hlexer : plain.Chooses (Language.Xml.lexerOf t) :=
    ⟨_, _, hfound, rfl, (Language.Xml.yields_lexer htable).outcome⟩
  have hsound : ¬plain.Faulty place := by
    have hanswers : plain.Answers "<a/>" (Listing.raw ((Language.Xml.lexerOf t).tokens "<a/>")) :=
      .tokens rfl hlexer (Run.gives_tokens (Run.steady_start ..)) (.raw rfl)
    have hholds : place.Holds false "<a/>" := ⟨_, _, _, rfl, by decide, .kept _⟩
    exact hanswers.not_faulty hholds nofun
  have hfaulty : structured.Faulty place := .style rfl rfl rfl (by decide)
  obtain ⟨hexit, -, -, -, -, hsame⟩ := prints_all_or_nothing hplain (fun _ => none) "0" place
  obtain ⟨-, hfails, hempty, -⟩ := prints_all_or_nothing hstructured (fun _ => none) "0" place
  have hone : (structured.outcome environment "0" place).exit = 1 := hfails.2 hfaulty
  exact ⟨plain, structured, hplain, hstructured, fun verify =>
    (hsame verify).1.trans (hexit.2 hsound), hone, hempty hone⟩

end Request

end RuleLexer.CommandLine
