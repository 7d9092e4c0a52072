/-! How likely a text is in a language, from 0 to 1 in steps of a hundredth. -/
namespace RuleLexer.Language

structure Score where
  hundredths : Nat
deriving DecidableEq, Repr

namespace Score

def none : Score := ⟨0⟩

def add (a b : Score) : Score := ⟨a.hundredths + b.hundredths⟩

/-- So many hundredths if something was found. -/
def found (hundredths : Nat) (yes : Bool) : Score := if yes then ⟨hundredths⟩ else none

/-- With two decimal places. -/
def twoPlaces (s : Score) : String :=
  let digits := toString (s.hundredths % 100)
  toString (s.hundredths / 100) ++ "." ++ (if digits.length = 1 then "0" else "") ++ digits

/-- With as few decimal places as it takes. -/
def text (s : Score) : String :=
  if s.hundredths % 100 = 0 then toString (s.hundredths / 100)
  else if s.hundredths % 10 = 0 then
    toString (s.hundredths / 100) ++ "." ++ toString (s.hundredths / 10 % 10)
  else s.twoPlaces

end Score

end RuleLexer.Language
