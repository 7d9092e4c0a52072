/-! How much an event of the log matters. -/
namespace RuleLexer.Log

/-- From what matters most to what matters least. -/
inductive Level
  | error
  | warning
  | info
  | debug
deriving DecidableEq, Repr

namespace Level

def number : Level → Nat
  | error => 0
  | warning => 1
  | info => 2
  | debug => 3

/-- The word for a level in a line of the log. -/
def label : Level → String
  | error => "ERROR"
  | warning => "WARN"
  | info => "INFO"
  | debug => "DEBUG"

/-- The word for a level in a stored configuration. -/
def name : Level → String
  | error => "Error"
  | warning => "Warning"
  | info => "Info"
  | debug => "Debug"

/-- A word in any case or a number. Only letters that have an ASCII lower case occur in the words
that count. -/
def ofText? (text : String) : Option Level :=
  let word := String.ofList (text.toList.map Char.toLower)
  if ["error", "0"].contains word then some error
  else if ["warning", "warn", "1"].contains word then some warning
  else if ["info", "2"].contains word then some info
  else if ["debug", "3"].contains word then some debug
  else none

/-- Under a threshold, what matters at least as much passes. -/
def passes (level threshold : Level) : Bool := decide (level.number ≤ threshold.number)

def max (a b : Level) : Level := if a.number ≤ b.number then b else a

end Level

end RuleLexer.Log
