/-! Numbers of single precision: 24 significant binary digits, on a grid of `2 ^ (-149)`. They are
read from decimals to the nearest, of two equally near ones the one with an even last digit, and
written with the fewest decimal places that read back. -/
namespace RuleLexer.Number

inductive Single
  /-- A sign, and so many steps of the grid. -/
  | finite (negative : Bool) (steps : Nat)
  | infinite (negative : Bool)
  | notANumber
deriving DecidableEq, Repr

namespace Single

def powerOfTwo (n : Nat) : Nat := Nat.pow 2 n

def powerOfTen (n : Nat) : Nat := Nat.pow 10 n

/-- Steps of the grid in one. -/
def one : Nat := powerOfTwo 149

def zero : Single := finite false 0

/-- From here on a number is too large to be finite. -/
def limit : Nat := powerOfTwo 277

/-- What is above so many steps has numbers only every `2 ^ gapBits` steps. -/
def gapBits (steps : Nat) : Nat := Nat.log2 steps - 23

/-- A quotient to the nearest integer, a half to the even one. -/
def roundQuotient (n d : Nat) : Nat :=
  let q := n / d
  let twice := 2 * (n % d)
  if twice < d then q
  else if d < twice then q + 1
  else if q % 2 = 0 then q
  else q + 1

/-- The number nearest to a quotient of steps. -/
def ofQuotient (negative : Bool) (n d : Nat) : Single :=
  let gap := powerOfTwo (gapBits (n / d))
  let steps := roundQuotient n (d * gap) * gap
  if steps < limit then finite negative steps else infinite negative

/-- The number nearest to `digits * 10 ^ exponent`, for so many digits. Where the exponent alone
decides, no power is computed. -/
def ofDecimal (negative : Bool) (count digits : Nat) (exponent : Int) : Single :=
  if digits = 0 ∨ count + exponent < -60 then finite negative 0
  else if 60 < exponent then infinite negative
  else
    ofQuotient negative (digits * one * powerOfTen exponent.toNat)
      (powerOfTen (-exponent).toNat)

def digitsValue (digits : List Char) : Nat :=
  digits.foldl (fun n c => 10 * n + (c.toNat - '0'.toNat)) 0

/-- Digits alone, and at least one. -/
def natural? (digits : List Char) : Option Nat :=
  if digits.isEmpty || !digits.all Char.isDigit then none else some (digitsValue digits)

def exponent? : List Char → Option Int
  | [] => some 0
  | '-' :: digits => (natural? digits).map fun n => - (n : Int)
  | '+' :: digits | digits => (natural? digits).map fun n => (n : Int)

/-- Digits with a point among, before or behind them, and a power of ten. -/
def decimal? (negative : Bool) (text : List Char) : Option Single :=
  let isMark (c : Char) : Bool := c == 'e' || c == 'E'
  let mantissa := text.takeWhile fun c => !isMark c
  let whole := mantissa.takeWhile (· != '.')
  let places := (mantissa.dropWhile (· != '.')).drop 1
  let power? := match text.dropWhile fun c => !isMark c with
    | [] => some 0
    | _ :: [] => none
    | _ :: power => exponent? power
  let digits := whole ++ places
  match natural? digits, power? with
  | some n, some power => some (ofDecimal negative digits.length n (power - places.length))
  | _, _ => none

def unsigned? (negative : Bool) (text : List Char) : Option Single :=
  match String.ofList (text.map Char.toLower) with
  | "inf" | "infinity" => some (infinite negative)
  | "nan" => some notANumber
  | _ => decimal? negative text

def ofText? (text : String) : Option Single :=
  match text.toList with
  | '-' :: rest => unsigned? true rest
  | '+' :: rest | rest => unsigned? false rest

/-- The nearest number from zero to one; what is no number counts as zero. -/
def clampToUnit : Single → Single
  | finite negative steps =>
      if negative then if steps = 0 then finite true 0 else zero else finite false (min steps one)
  | infinite negative => if negative then zero else finite false one
  | notANumber => zero

/-- Whether `digits / 10 ^ places` is nearest to a number of steps. The gap below a power of two is
half the one above it. -/
def readsBack (steps digits places : Nat) : Bool :=
  let gap := powerOfTwo (gapBits steps)
  let below := if steps = powerOfTwo 23 * gap ∧ 1 < gap then gap else 2 * gap
  let value := 4 * digits * one
  let low := (4 * steps - below) * powerOfTen places
  let high := (4 * steps + 2 * gap) * powerOfTen places
  if steps / gap % 2 = 0 then decide (low ≤ value ∧ value ≤ high)
  else decide (low < value ∧ value < high)

/-- The digits with so many decimal places that read back, of two choices the nearer. -/
def digits? (steps places : Nat) : Option Nat :=
  let scaled := steps * powerOfTen places
  let down := scaled / one
  match readsBack steps down places, readsBack steps (down + 1) places with
  | true, true => some (if 2 * scaled < (2 * down + 1) * one then down else down + 1)
  | true, false => some down
  | false, true => some (down + 1)
  | false, false => none

/-- More places than any number needs before it reads back. -/
def maxPlaces : Nat := 54

/-- The digits and the number of places; a number that needs more places than any is exact. -/
def shortest (steps : Nat) : Nat × Nat :=
  ((List.range maxPlaces).findSome? fun places =>
    (digits? steps places).map (·, places)).getD (steps * Nat.pow 5 149, 149)

/-- Digits with a point before the last places. -/
def positional (digits places : Nat) : String :=
  let whole := toString (digits / powerOfTen places)
  if places = 0 then whole
  else
    let fraction := toString (digits % powerOfTen places)
    whole ++ "." ++ String.ofList (List.replicate (places - fraction.length) '0') ++ fraction

def text : Single → String
  | finite negative steps =>
      let (digits, places) := shortest steps
      (if negative then "-" else "") ++ positional digits places
  | infinite negative => if negative then "-inf" else "inf"
  | notANumber => "NaN"

end Single

end RuleLexer.Number
