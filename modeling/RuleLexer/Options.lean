import RuleLexer.Entries
import RuleLexer.Text.Blank
import RuleLexer.Text.Quoted

/-! Options of a lexer: texts under names, in the order of the names. A lexer reads those it knows
as a truth value, an integer or a list; where a value cannot be read that way its own default
stands, and the report says why. -/
namespace RuleLexer
open RuleLexer.Text

inductive OptionError
  | invalidValue (option value expected : String)
  | unknownValue (option value : String) (known : List String)
  | malformedAssignment (assignment : String)
deriving DecidableEq, Repr

namespace OptionError

def quoted (text : String) : String := String.ofList (Quoted.encode text.toList)

def message : OptionError → String
  | invalidValue option value expected =>
      s!"Invalid value {quoted value} for option '{option}': expected {expected}"
  | unknownValue option value known =>
      let known := String.intercalate ", " known
      s!"Unknown value {quoted value} for option '{option}' (known: {known})"
  | malformedAssignment assignment =>
      s!"Option assignment {quoted assignment} is not of the form key=value"

def option? : OptionError → Option String
  | invalidValue option _ _ | unknownValue option _ _ => some option
  | malformedAssignment _ => none

end OptionError

structure Options where
  entries : Entries := []
deriving DecidableEq, Repr

namespace Options

def set (o : Options) (name value : String) : Options := ⟨o.entries.insert name value⟩

def get? (o : Options) (name : String) : Option String := o.entries.get? name

def isEmpty (o : Options) : Bool := o.entries.isEmpty

/-- The name and the value of an assignment, without blanks around them. -/
def parseAssignment (assignment : String) : Except OptionError (String × String) :=
  let text := assignment.toList
  let name := trim (text.takeWhile (· != '='))
  match text.dropWhile (· != '=') with
  | [] => .error (.malformedAssignment assignment)
  | _ :: value =>
      if name.isEmpty then .error (.malformedAssignment assignment)
      else .ok (String.ofList name, String.ofList (trim value))

/-- Of two assignments to one name the later one stands. -/
def ofAssignments (assignments : List String) : Except OptionError Options :=
  assignments.foldlM (fun o assignment => do
    let (name, value) ← parseAssignment assignment
    .ok (o.set name value)) {}

/-- Only letters that have an ASCII lower case occur in the words that count. -/
def truthValue? (value : String) : Option Bool :=
  let word := String.ofList (value.toList.map Char.toLower)
  if ["1", "yes", "true", "on"].contains word then some true
  else if ["0", "no", "false", "off"].contains word then some false
  else none

def digits? : (value : Nat) → List Char → Option Nat
  | value, [] => some value
  | value, c :: rest =>
      if c.isDigit then digits? (value * 10 + (c.toNat - '0'.toNat)) rest else none

def minInteger : Int := -9223372036854775808

def maxInteger : Int := 9223372036854775807

/-- An integer with an optional sign, when it fits into 64 bits. -/
def integer? (value : String) : Option Int :=
  let signed? (negative : Bool) (digits : List Char) : Option Int :=
    if digits.isEmpty then none
    else (digits? 0 digits).bind fun n =>
      let i : Int := if negative then - (n : Int) else n
      if minInteger ≤ i ∧ i ≤ maxInteger then some i else none
  match trim value.toList with
  | '-' :: rest => signed? true rest
  | '+' :: rest => signed? false rest
  | text => signed? false text

/-- The items of a list stand between blanks and commas. -/
def items (value : String) : List String :=
  (pieces (fun c => Unicode.isSpace c || c == ',') value.toList).map String.ofList

/-- An option that is not set has no value, which is no error. -/
def read? {α : Type} (o : Options) (name expected : String) (parse : String → Option α) :
    Except OptionError (Option α) :=
  match o.get? name with
  | none => .ok none
  | some value =>
      match parse value with
      | some a => .ok (some a)
      | none => .error (.invalidValue name value expected)

def flag? (o : Options) (name : String) : Except OptionError (Option Bool) :=
  o.read? name "one of 1, yes, true, on, 0, no, false, off" truthValue?

def int? (o : Options) (name : String) : Except OptionError (Option Int) :=
  o.read? name "an integer" integer?

def list? (o : Options) (name : String) : Option (List String) := (o.get? name).map items

end Options

/-- Options read for one lexer, and what was wrong with them, latest first. -/
structure OptionReport where
  lexer : String
  options : Options
  latest : List OptionError := []
deriving Repr

namespace OptionReport

def errors (r : OptionReport) : List OptionError := r.latest.reverse

def add (r : OptionReport) (e : OptionError) : OptionReport := { r with latest := e :: r.latest }

/-- The value that was read, or the default and a note why. -/
def resolve {α : Type} (r : OptionReport) (value : Except OptionError (Option α)) (otherwise : α) :
    α × OptionReport :=
  match value with
  | .ok value => (value.getD otherwise, r)
  | .error e => (otherwise, r.add e)

def flag (r : OptionReport) (name : String) (otherwise : Bool) : Bool × OptionReport :=
  r.resolve (r.options.flag? name) otherwise

def int (r : OptionReport) (name : String) (otherwise : Int) : Int × OptionReport :=
  r.resolve (r.options.int? name) otherwise

def list (r : OptionReport) (name : String) (otherwise : List String) : List String :=
  (r.options.list? name).getD otherwise

end OptionReport

end RuleLexer
