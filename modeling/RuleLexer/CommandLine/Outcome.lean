import RuleLexer.CommandLine.Request
import RuleLexer.Coverage
import RuleLexer.Listing
import RuleLexer.Log.Journal
import RuleLexer.Log.Render
import RuleLexer.Log.Report
import RuleLexer.Setup
import RuleLexer.Source
import RuleLexer.Style.Murphy

/-! The work that a command line asks for: read a file, cut it into tokens and list them, or list
scores. Work writes as it goes: what it lists to the output, and what it reports elsewhere. -/
namespace RuleLexer.CommandLine
open RuleLexer.Log

inductive Failure
  | source (e : SourceError)
  | unknownLexer (name : String)
  | unknownStyle (name : String)
  | option (e : OptionError)
  | table (e : TableError)
  | style (e : StyleError)
  | coverage (v : Coverage.Violation)
deriving DecidableEq, Repr

namespace Failure

def message : Failure → String
  | source e => e.message
  | unknownLexer name => s!"no lexer for alias '{name}'"
  | unknownStyle name => s!"unknown style '{name}'"
  | option e => e.message
  | table e => e.message
  | style e => e.message
  | coverage v => s!"tokens do not cover the input: {v.message}"

def code : Failure → Code
  | source e => e.code
  | unknownLexer _ | unknownStyle _ => .unknownLexer
  | option e => e.code
  | table e => e.code
  | style e => e.code
  | coverage _ => .coverageViolation

def event (f : Failure) : Event :=
  (Event.error f.code "weblex failed").withContext "error" f.message

end Failure

/-- One report on the work. -/
inductive Diagnostic
  | event (e : Event)
  | warning (e : OptionError)
  | failure (message : String)
deriving DecidableEq, Repr

namespace Diagnostic

/-- As it is written: an event as an entry of a text log or as a JSON object. -/
def text (structured : Bool) (time : Timestamp) : Diagnostic → String
  | event e =>
      if structured then (e.json (some time)).compact
      else
        let label := e.level.label.pushn ' ' (5 - e.level.label.length)
        s!"[{time.toSecond}Z {label}] {e.entry}"
  | warning e => "warning: " ++ e.message
  | failure message => "error: " ++ message

/-- Events below a threshold are left out. -/
def isShown (threshold : Level) : Diagnostic → Bool
  | event e => e.level.passes threshold
  | warning _ | failure _ => true

end Diagnostic

structure Outcome where
  exit : Nat
  stdout : String
  stderr : List Diagnostic
deriving DecidableEq, Repr

/-- What has been written so far. -/
structure Written where
  stdout : String := ""
  /-- Latest first. -/
  latest : List Diagnostic := []
deriving DecidableEq, Repr

/-- Work that writes, and that can fail. What was written before it fails stays written. -/
abbrev Work := ExceptT Failure (StateM Written)

namespace Work

def print (text : String) : Work Unit := modify fun w => { w with stdout := w.stdout ++ text }

def report (d : Diagnostic) : Work Unit := modify fun w => { w with latest := d :: w.latest }

def log (events : List Event) : Work Unit := events.forM fun e => report (.event e)

def fail {α : Type} (f : Failure) : Work α := throw f

def accept {ε α : Type} (failure : ε → Failure) : Except ε α → Work α
  | .ok a => pure a
  | .error e => fail (failure e)

def read (reading : Source.Reading) (file : String) (place : Place) : Work Source := do
  let (result, events) := Source.read reading file place
  log events
  accept .source result

def chooseLanguage (name : String) : Work Language :=
  match Catalog.byAlias? name with
  | some language => pure language
  | none => fail (.unknownLexer name)

/-- A lexer, with warnings about the options that it could not use. -/
def build (p : Preferences) (language : Language) (options : Options) : Work Lexer := do
  let (result, notices) := (language.build options).outcome
  log (Notice.events p notices)
  let lexer ← accept .table result
  lexer.optionErrors.forM fun e => report (.warning e)
  pure lexer

/-- What a run reports names the file. -/
def tokenize (p : Preferences) (lexer : Lexer) (source : Source) : Work (List Token) := do
  let (tokens, run) := (lexer.run source.text).complete
  let journal : Journal := { source? := some source.path }
  log (journal.logAll (Notice.events p run.notices.reverse)).events
  pure tokens

def verify (text : String) (tokens : List Token) : Work Unit :=
  match Coverage.check text tokens with
  | .ok () =>
      log [(Event.success .coverageVerified "Tokens cover the input").withContexts
        [("tokens", toString tokens.length), ("bytes", toString text.utf8ByteSize)]]
  | .error v => do
      log [((Event.error .coverageViolation "Tokens do not cover the input").about
        v.span).withContext "violation" v.message]
      fail (.coverage v)

/-- A style sheet by name; the case of ASCII letters does not matter. -/
def sheet (name : String) : Work StyleSheet :=
  if Catalog.foldCase name = "murphy" then
    match Style.murphy with
    | .ok sheet => pure sheet
    | .error e => do
        log [e.event "murphy"]
        fail (.style e)
  else fail (.unknownStyle name)

def list (request : Request) (tokens : List Token) : Work Unit :=
  match request.format, request.style? with
  | .raw, _ => print (Listing.raw tokens)
  | .json, none => print (Listing.json none tokens)
  | .json, some name => do
      let sheet ← sheet name
      print (Listing.json (some sheet) tokens)

def tokens (p : Preferences) (request : Request) (source : Source) : Work Unit := do
  let language ← chooseLanguage (request.lexer?.getD "")
  let options ← accept .option (Options.ofAssignments request.assignments)
  let lexer ← build p language options
  log [(Event.info "Lexer selected").withContexts
    [("lexer", language.info.name), ("file", request.file)]]
  let tokens ← tokenize p lexer source
  log [(Event.success .tokensComplete "Tokenization complete").withContexts
    [("lexer", language.info.name), ("tokens", toString tokens.length)]]
  if request.verify then verify source.text tokens
  list request tokens

/-- All the work on what a path leads to. -/
def perform (p : Preferences) (duration : String) (request : Request) (place : Place) :
    Work Unit := do
  let duration? := if p.logTimings then some duration else none
  let source ← read { stripMark := p.stripMark, duration? } request.file place
  if request.scores then print (Listing.scores source.text) else tokens p request source

end Work

namespace Request

/-- A request can ask for more than the environment. -/
def preferences (request : Request) (p : Preferences) : Except String Preferences :=
  let p := { p with logFallback := p.logFallback || request.traceFallback }
  match request.level? with
  | none => .ok p
  | some name =>
      match Level.ofText? name with
      | some level => .ok { p with level }
      | none => .error s!"unknown log level '{name}'"

/-- The outcome under the preferences of the environment. The milliseconds that reading takes are
given by whoever reads. -/
def outcome (request : Request) (environment : Preferences) (duration : String)
    (place : Place) : Outcome :=
  match request.preferences environment with
  | .error message => ⟨1, "", [.failure message]⟩
  | .ok p =>
      let start : Written := { latest := [.event Limits.event, .event Setup.readyEvent] }
      let (result, written) := ((Work.perform p duration request place).run).run start
      match result with
      | .ok () => ⟨0, written.stdout, written.latest.reverse.filter (Diagnostic.isShown p.threshold)⟩
      | .error f =>
          let latest := .failure f.message :: .event f.event :: written.latest
          ⟨1, written.stdout, latest.reverse.filter (Diagnostic.isShown p.threshold)⟩

end Request

end RuleLexer.CommandLine
