import RuleLexer.Unicode.Extender
import RuleLexer.Unicode.GeneralCategory

/-! Text between double quotes. Quotes and backslashes get a backslash, a few controls a letter, and
every character that does not show by itself (controls, formats, separators, unassigned and
private characters, and those that extend the one before) its code point in braces. `decode` reads
back what `encode` writes. -/
namespace RuleLexer.Text.Quoted
open RuleLexer.Unicode

/-- Shows by itself. -/
def isPlain (c : Char) : Bool :=
  if c.toNat < 128 then decide (' ' ≤ c ∧ c ≤ '~')
  else
    !isExtender c &&
    match generalCategory c with
    | .control | .format | .privateUse | .unassigned | .lineSeparator | .paragraphSeparator
    | .spaceSeparator => false
    | _ => true

def hexDigits (n : Nat) : List Char := Nat.toDigits 16 n

def escapeCode (c : Char) : List Char :=
  ['\\', 'u', '\x7b'] ++ hexDigits c.toNat ++ ['\x7d']

def escape (c : Char) : List Char :=
  match c with
  | '\x00' => ['\\', '0']
  | '\t' => ['\\', 't']
  | '\r' => ['\\', 'r']
  | '\n' => ['\\', 'n']
  | '"' => ['\\', '"']
  | '\\' => ['\\', '\\']
  | c => if isPlain c then [c] else escapeCode c

def encode (text : List Char) : List Char := '"' :: text.flatMap escape ++ ['"']

def hexDigitValue? (c : Char) : Option Nat :=
  if '0' ≤ c ∧ c ≤ '9' then some (c.toNat - '0'.toNat)
  else if 'a' ≤ c ∧ c ≤ 'f' then some (c.toNat - 'a'.toNat + 10)
  else none

/-- The code point up to a closing brace. -/
def decodeCode (code : Nat) : List Char → Option (Char × List Char)
  | [] => none
  | '\x7d' :: rest => some (Char.ofNat code, rest)
  | c :: rest => (hexDigitValue? c).bind fun d => decodeCode (code * 16 + d) rest

/-- One character as `escape` writes it. -/
def decodeChar : List Char → Option (Char × List Char)
  | '\\' :: '0' :: rest => some ('\x00', rest)
  | '\\' :: 't' :: rest => some ('\t', rest)
  | '\\' :: 'r' :: rest => some ('\r', rest)
  | '\\' :: 'n' :: rest => some ('\n', rest)
  | '\\' :: '"' :: rest => some ('"', rest)
  | '\\' :: '\\' :: rest => some ('\\', rest)
  | '\\' :: 'u' :: '\x7b' :: rest => decodeCode 0 rest
  | '\\' :: _ => none
  | c :: rest => some (c, rest)
  | [] => none

def decodeBody : (fuel : Nat) → List Char → Option (List Char)
  | 0, _ => none
  | _ + 1, ['"'] => some []
  | fuel + 1, text => do
      let (c, rest) ← decodeChar text
      (c :: ·) <$> decodeBody fuel rest

/-- Every character takes at least one to write, so the length bounds their number. -/
def decode : List Char → Option (List Char)
  | '"' :: rest => decodeBody rest.length rest
  | _ => none

end RuleLexer.Text.Quoted
