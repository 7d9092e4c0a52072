import RuleLexer.Regex.Basic
import RuleLexer.Text.Cursor
import RuleLexer.Token

/-! Patterns of rules. A pattern matches at one place of the text and nowhere else, but its anchors
see what stands before that place. What follows the body under `ahead?` has to be there, and is
neither consumed nor shown in a group. -/
namespace RuleLexer
open RuleLexer.Text

/-- How the patterns of a table are read. -/
structure PatternFlags where
  ignoreCase : Bool := false
  multiLine : Bool := true
  dotAll : Bool := false
deriving DecidableEq, Repr

namespace PatternFlags

def none : PatternFlags := ⟨false, false, false⟩

/-- The flags as a pattern sets them in front; nothing when there are none. -/
def header (flags : PatternFlags) : String :=
  let letters := (if flags.ignoreCase then "i" else "") ++ (if flags.multiLine then "m" else "")
    ++ (if flags.dotAll then "s" else "")
  if letters.isEmpty then "" else "(?" ++ letters ++ ")"

end PatternFlags

/-- A place where a rule matched: how far the match reaches, and what its groups hold. -/
structure Match where
  start : Nat
  stop : Nat
  groups : List (Option Span)
deriving DecidableEq, Repr

namespace Match

def isEmpty (m : Match) : Bool := m.start == m.stop

/-- The span of a group; group 0 is the whole match. -/
def group? (m : Match) : Nat → Option Span
  | 0 => some ⟨m.start, m.stop⟩
  | i + 1 => m.groups[i]?.join

/-- The same match without its groups. -/
def whole (m : Match) : Match := { m with groups := [] }

end Match

structure Pattern where
  source : String
  ahead? : Option String
  regex : Regex
  groupCount : Nat
deriving Repr

namespace Pattern

/-- The group that holds what has to follow. -/
def aheadGroup : String := "ahead"

def fullSource (source : String) (ahead? : Option String) (flags : PatternFlags) : String :=
  flags.header ++ "(?:" ++ source ++ ")" ++
    match ahead? with
    | none => ""
    | some ahead => "(?P<" ++ aheadGroup ++ ">" ++ ahead ++ ")"

/-- The last group of a pattern with something to follow counts as that something. -/
def compile (source : String) (ahead? : Option String) (flags : PatternFlags) :
    Except Regex.SyntaxError Pattern := do
  let regex ← Regex.compile (fullSource source ahead? flags).toList
  .ok ⟨source, ahead?, regex, regex.groupCount - (if ahead?.isSome then 1 else 0)⟩

/-- Where a match of the whole stops: before what has to follow, if that took part. -/
def stopOf (p : Pattern) (found : Regex.Found) : Nat :=
  match p.ahead? with
  | none => found.stop
  | some _ =>
      match (p.regex.groupNamed? aheadGroup).bind found.group? with
      | some (start, _) => start
      | none => found.stop

/-- The part of a group before `stop`; a group that starts behind it is not there. -/
def clip (stop : Nat) : Nat × Nat → Option Span
  | (first, last) => if first ≤ min last stop then some ⟨first, min last stop⟩ else none

def matchAt (p : Pattern) (place : Cursor) : Option Match :=
  (p.regex.matchAt place.passed.head? place.offset place.ahead).map fun found =>
    let stop := p.stopOf found
    ⟨place.offset, stop,
      (List.range p.groupCount).map fun i => (found.group? (i + 1)).bind (clip stop)⟩

end Pattern

end RuleLexer
