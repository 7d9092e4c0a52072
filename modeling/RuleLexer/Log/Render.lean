import RuleLexer.Log.Event
import RuleLexer.Log.Timestamp
import RuleLexer.Text.Json

/-! Events as text: in one line, in detail, and as a JSON object whose keys are in alphabetical
order at every level. -/
namespace RuleLexer.Log
open RuleLexer.Text

namespace Event

/-- The level, the code, the message and where in the text. -/
def line (e : Event) : String :=
  let place := match e.span? with
    | none => ""
    | some span => s!" at bytes {span.start}..{span.stop}"
  s!"[{e.level.label}] {e.code.text} - {e.message}" ++ place

/-- The line with the context behind it, as a text log holds it. -/
def lineWithContext (e : Event) : String :=
  e.line ++ String.join (e.context.map fun entry => " " ++ entry.1 ++ "=" ++ entry.2)

/-- The line with its context as an entry of a text log: lines after the first are set in by four
blanks. -/
def entry (e : Event) : String := "\n    ".intercalate (e.lineWithContext.splitOn "\n")

def known (label text unknown : String) : String :=
  if text = unknown then "" else "\n  " ++ label ++ ": " ++ text

def detailed (e : Event) : String :=
  let classified := s!"\n  Category: {e.code.area}\n  Severity: {e.code.severity.name}"
  let recovery :=
    if e.level = .error then
      s!"\n  Recoverable: {e.code.isRecoverable}\n  Requires halt: {e.code.requiresHalt}"
    else ""
  let context :=
    if e.context.isEmpty then ""
    else "\n  Context:" ++
      String.join (e.context.map fun entry => "\n    " ++ entry.1 ++ ": " ++ entry.2)
  e.line ++ classified ++ recovery ++
    known "Description" e.code.description "Unknown error" ++
    known "Recommended action" e.code.action "No specific action available" ++ context

/-- Errors carry how they are to be treated. An event without a time leaves it out. -/
def json (e : Event) (time? : Option Timestamp) : Json :=
  let context :=
    if e.context.isEmpty then []
    else [("context", Json.object (e.context.map fun entry => (entry.1, .text entry.2)))]
  let treatment :=
    if e.level = .error then
      [("error_metadata", Json.object
        [("description", .text e.code.description),
          ("recommended_action", .text e.code.action),
          ("recoverable", .bool e.code.isRecoverable),
          ("requires_halt", .bool e.code.requiresHalt)])]
    else []
  let span := match e.span? with
    | none => []
    | some span =>
        [("span", Json.object [("end", .number span.stop), ("start", .number span.start)])]
  let time := match time? with
    | none => []
    | some time => [("timestamp", Json.text time.text)]
  .object <|
    [("category", .text e.code.area), ("code", .text e.code.text)] ++ context ++ treatment ++
      [("level", .text e.level.label), ("message", .text e.message),
        ("severity", .text e.code.severity.name)] ++ span ++ time

end Event

end RuleLexer.Log
