import RuleLexer.Category

/-! How tokens of a category are shown. A definition is a list of words; each word decides one
attribute, the last word on an attribute stands, and what no word decides is inherited. -/
namespace RuleLexer
open RuleLexer.Text

inductive StyleError
  | invalidWord (category : Category) (word : String)
  | invalidColor (category : Category) (value : String)
deriving DecidableEq, Repr

namespace StyleError

def category : StyleError → Category
  | invalidWord category _ | invalidColor category _ => category

def message : StyleError → String
  | invalidWord category word =>
      s!"Invalid word '{word}' in style definition for {category.fullName}"
  | invalidColor category value => s!"Invalid color '{value}' for {category.fullName}"

end StyleError

/-- Colors are six digits of base sixteen. -/
structure Style where
  color? : Option String := none
  background? : Option String := none
  border? : Option String := none
  bold : Bool := false
  italic : Bool := false
  underline : Bool := false
deriving DecidableEq, Repr

namespace Style

inductive Word
  /-- Inherits from the style of the whole sheet, wherever it stands. -/
  | noInherit
  /-- Hints at a kind of font, which decides nothing. -/
  | family
  | bold (yes : Bool)
  | italic (yes : Bool)
  | underline (yes : Bool)
  | color (value? : Option String)
  | background (value? : Option String)
  | border (value? : Option String)
deriving DecidableEq, Repr

def isHexDigit (c : Char) : Bool :=
  c.isDigit || decide ('a' ≤ c ∧ c ≤ 'f') || decide ('A' ≤ c ∧ c ≤ 'F')

/-- Three digits are doubled, and an empty value is no color. -/
def readColor : List Char → Option (Option String)
  | [] => some none
  | '#' :: digits =>
      if digits.all isHexDigit then
        match digits with
        | [a, b, c] => some (some (String.ofList [a, a, b, b, c, c]))
        | [_, _, _, _, _, _] => some (some (String.ofList digits))
        | _ => none
      else none
  | _ => none

namespace Word

def plain : List (String × Word) :=
  [("noinherit", noInherit), ("bold", bold true), ("nobold", bold false),
    ("italic", italic true), ("noitalic", italic false), ("underline", underline true),
    ("nounderline", underline false), ("roman", family), ("sans", family), ("mono", family)]

/-- What follows a label. -/
def after? : (label word : List Char) → Option (List Char)
  | [], word => some word
  | _ :: _, [] => none
  | l :: label, c :: word => if l = c then after? label word else none

def colored (category : Category) (make : Option String → Word) (value : List Char) :
    Except StyleError Word :=
  match readColor value with
  | some c => .ok (make c)
  | none => .error (.invalidColor category (String.ofList value))

def read (category : Category) (word : List Char) : Except StyleError Word :=
  match plain.lookup (String.ofList word) with
  | some w => .ok w
  | none =>
      match after? "bg:".toList word, after? "border:".toList word, word with
      | some value, _, _ => colored category background value
      | none, some value, _ => colored category border value
      | none, none, '#' :: _ => colored category color word
      | none, none, _ => .error (.invalidWord category (String.ofList word))

end Word

def set (s : Style) : Word → Style
  | .noInherit | .family => s
  | .bold yes => { s with bold := yes }
  | .italic yes => { s with italic := yes }
  | .underline yes => { s with underline := yes }
  | .color value? => { s with color? := value? }
  | .background value? => { s with background? := value? }
  | .border value? => { s with border? := value? }

/-- The words of a definition, or the first word that is wrong. -/
def read (category : Category) (definition : String) : Except StyleError (List Word) :=
  (words definition.toList).mapM (Word.read category)

def apply (base inherited : Style) (words : List Word) : Style :=
  words.foldl set (if words.contains .noInherit then base else inherited)

/-- The style that a definition gives a category under a base and an inherited style. -/
def define (category : Category) (base inherited : Style) (definition : String) :
    Except StyleError Style :=
  (read category definition).map (apply base inherited)

end Style

end RuleLexer
