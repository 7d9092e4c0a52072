/-! What a command line asks for. Options have a long name, and some a letter; the value of an
option follows in the same argument or in the next one. Behind two dashes every argument is a
file. -/
namespace RuleLexer.CommandLine

inductive Format
  | raw
  | json
deriving DecidableEq, Repr

/-- Why a command line asks for no work. -/
inductive Refusal
  | wrong
  | help
  | version
deriving DecidableEq, Repr

inductive Switch
  | verify
  | scores
  | traceFallback
  | help
  | version
deriving DecidableEq, Repr

inductive Setting
  | lexer
  | assignment
  | format
  | style
  | level
deriving DecidableEq, Repr

/-- One argument, read on its own. -/
inductive Argument
  | file (path : String)
  | switch (s : Switch)
  | setting (s : Setting) (value? : Option String)
deriving DecidableEq, Repr

namespace Argument

def longSwitches : List (String × Switch) :=
  [("verify", .verify), ("scores", .scores), ("trace-fallback", .traceFallback), ("help", .help),
    ("version", .version)]

def longSettings : List (String × Setting) :=
  [("lexer", .lexer), ("option", .assignment), ("format", .format), ("style", .style),
    ("log-level", .level)]

def switchLetters : List (Char × Switch) := [('h', .help), ('V', .version)]

def settingLetters : List (Char × Setting) :=
  [('l', .lexer), ('O', .assignment), ('f', .format), ('s', .style)]

/-- The text behind two dashes. A switch has no value. -/
def long (text : List Char) : Except Refusal Argument :=
  let name := String.ofList (text.takeWhile (· != '='))
  let value? : Option String := match text.dropWhile (· != '=') with
    | [] => none
    | _ :: value => some (String.ofList value)
  match longSettings.lookup name, longSwitches.lookup name, value? with
  | some s, _, _ => .ok (.setting s value?)
  | none, some s, none => .ok (.switch s)
  | none, _, _ => .error .wrong

/-- A letter behind one dash, and what follows it; an equals sign in front of a value is left
out. -/
def short (letter : Char) (rest : List Char) : Except Refusal Argument :=
  match switchLetters.lookup letter, settingLetters.lookup letter, rest with
  | some s, _, _ => .ok (.switch s)
  | none, some s, [] => .ok (.setting s none)
  | none, some s, '=' :: value => .ok (.setting s (some (String.ofList value)))
  | none, some s, value => .ok (.setting s (some (String.ofList value)))
  | none, none, _ => .error .wrong

/-- A dash alone is a file. -/
def ofText (text : String) : Except Refusal Argument :=
  match text.toList with
  | '-' :: '-' :: rest => long rest
  | '-' :: letter :: rest => short letter rest
  | _ => .ok (.file text)

/-- An argument that stands for itself is no value of the one before it. -/
def isValue (text : String) : Bool :=
  match text.toList with
  | '-' :: _ :: _ => false
  | _ => true

end Argument

/-- What the arguments read so far ask for. -/
structure Draft where
  file? : Option String := none
  lexer? : Option String := none
  /-- Latest first. -/
  assignments : List String := []
  format? : Option Format := none
  style? : Option String := none
  level? : Option String := none
  switches : List Switch := []
deriving DecidableEq, Repr

namespace Draft

/-- Sets what is not set yet. -/
def once {α : Type} (old? : Option α) (value : α) : Except Refusal (Option α) :=
  match old? with
  | none => .ok (some value)
  | some _ => .error .wrong

def takeFile (d : Draft) (path : String) : Except Refusal Draft := do
  if path.isEmpty then .error .wrong
  else .ok { d with file? := ← once d.file? path }

def takeSwitch (d : Draft) (s : Switch) : Except Refusal Draft :=
  match s with
  | .help => .error .help
  | .version => .error .version
  | _ => if d.switches.contains s then .error .wrong else .ok { d with switches := s :: d.switches }

def readFormat : String → Except Refusal Format
  | "raw" => .ok .raw
  | "json" => .ok .json
  | _ => .error .wrong

/-- Only assignments can come more than once. -/
def takeSetting (d : Draft) (s : Setting) (value : String) : Except Refusal Draft := do
  match s with
  | .lexer => .ok { d with lexer? := ← once d.lexer? value }
  | .assignment => .ok { d with assignments := value :: d.assignments }
  | .format => .ok { d with format? := ← once d.format? (← readFormat value) }
  | .style => .ok { d with style? := ← once d.style? value }
  | .level => .ok { d with level? := ← once d.level? value }

/-- Takes one argument after the other. -/
def takeAll (d : Draft) : List String → Except Refusal Draft
  | [] => .ok d
  | text :: rest =>
      if text = "--" then rest.foldlM takeFile d
      else
        match Argument.ofText text with
        | .error refusal => .error refusal
        | .ok (.file path) => do takeAll (← d.takeFile path) rest
        | .ok (.switch s) => do takeAll (← d.takeSwitch s) rest
        | .ok (.setting s (some value)) => do takeAll (← d.takeSetting s value) rest
        | .ok (.setting s none) =>
            match rest with
            | [] => .error .wrong
            | value :: rest =>
                if Argument.isValue value then do takeAll (← d.takeSetting s value) rest
                else .error .wrong

end Draft

structure Request where
  file : String
  lexer? : Option String
  assignments : List String
  format : Format
  style? : Option String
  level? : Option String
  verify : Bool
  scores : Bool
  traceFallback : Bool
deriving DecidableEq, Repr

namespace Request

/-- A file is needed, and unless scores are asked for a lexer too. -/
def ofDraft (d : Draft) : Except Refusal Request :=
  let scores := d.switches.contains .scores
  match d.file? with
  | none => .error .wrong
  | some file =>
      if d.lexer?.isNone && !scores then .error .wrong
      else
        .ok
          { file, scores
            lexer? := d.lexer?
            assignments := d.assignments.reverse
            format := d.format?.getD .raw
            style? := d.style?
            level? := d.level?
            verify := d.switches.contains .verify
            traceFallback := d.switches.contains .traceFallback }

def ofArguments (arguments : List String) : Except Refusal Request := do
  ofDraft (← Draft.takeAll {} arguments)

end Request

end RuleLexer.CommandLine
