import RuleLexer.Text.Cursor
import RuleLexer.Text.Json

/-! Reading a JSON document that is to be a string. Where it is not one, the error says what stands
there instead, and at which line and column. -/
namespace RuleLexer.Text.Json

/-- What is wrong, and how many bytes of the text are left there. -/
structure Fault where
  what : String
  left : Nat
deriving DecidableEq, Repr

abbrev Reading := Except Fault

/-- The line, and the bytes of it, that lie in front of the last bytes of a text. -/
def place (text : List Char) (left : Nat) : Nat × Nat :=
  let passed := takeBytes (byteLength text - left) text
  let last := (passed.reverse.takeWhile (· != '\n')).reverse
  (passed.count '\n' + 1, byteLength last)

def Fault.message (f : Fault) (text : List Char) : String :=
  let (line, column) := place text f.left
  s!"{f.what} at line {line} column {column}"

/-- What was read last is wrong. -/
def wrong {α : Type} (what : String) (rest : List Char) : Reading α :=
  .error ⟨what, byteLength rest⟩

/-- What is to be read next is wrong. -/
def wrongNext {α : Type} (what : String) (rest : List Char) : Reading α :=
  .error ⟨what, byteLength rest - 1⟩

def hexValue? (c : Char) : Option Nat :=
  if '0' ≤ c ∧ c ≤ '9' then some (c.toNat - '0'.toNat)
  else if 'a' ≤ c ∧ c ≤ 'f' then some (c.toNat - 'a'.toNat + 10)
  else if 'A' ≤ c ∧ c ≤ 'F' then some (c.toNat - 'A'.toNat + 10)
  else none

/-- A number of four digits. -/
def readHex (text : List Char) : Reading (Nat × List Char) :=
  match text.take 4, (text.take 4).mapM hexValue? with
  | [_, _, _, _], some [a, b, c, d] => .ok (((a * 16 + b) * 16 + c) * 16 + d, text.drop 4)
  | _, _ =>
      if byteLength text < 4 then wrong "EOF while parsing a string" []
      else .error ⟨"invalid escape", byteLength text - 4⟩

def isLeading (code : Nat) : Bool := decide (0xd800 ≤ code ∧ code ≤ 0xdbff)

def isTrailing (code : Nat) : Bool := decide (0xdc00 ≤ code ∧ code ≤ 0xdfff)

/-- A code point in hexadecimal; one beyond four digits is written as two halves. -/
def readCode (text : List Char) : Reading (Char × List Char) := do
  let (code, rest) ← readHex text
  if isTrailing code then wrong "lone leading surrogate in hex escape" rest
  else if !isLeading code then .ok (Char.ofNat code, rest)
  else
    match rest with
    | '\\' :: 'u' :: rest => do
        let (second, rest) ← readHex rest
        if isTrailing second then
          .ok (Char.ofNat ((code - 0xd800) * 1024 + (second - 0xdc00) + 0x10000), rest)
        else wrong "lone leading surrogate in hex escape" rest
    | [] | ['\\'] => wrong "EOF while parsing a string" []
    | '\\' :: rest | rest => wrongNext "unexpected end of hex escape" rest

/-- What follows a backslash. -/
def readEscape : List Char → Reading (Char × List Char)
  | [] => wrong "EOF while parsing a string" []
  | '"' :: rest => .ok ('"', rest)
  | '\\' :: rest => .ok ('\\', rest)
  | '/' :: rest => .ok ('/', rest)
  | 'b' :: rest => .ok ('\x08', rest)
  | 'f' :: rest => .ok ('\x0c', rest)
  | 'n' :: rest => .ok ('\n', rest)
  | 'r' :: rest => .ok ('\r', rest)
  | 't' :: rest => .ok ('\t', rest)
  | 'u' :: rest => readCode rest
  | _ :: rest => wrong "invalid escape" rest

/-- The characters up to the closing quote. Every step takes at least one character. -/
def readQuoted : (fuel : Nat) → List Char → Reading (List Char × List Char)
  | 0, _ | _, [] => wrong "EOF while parsing a string" []
  | _ + 1, '"' :: rest => .ok ([], rest)
  | fuel + 1, c :: rest => do
      let (c, rest) ←
        if c = '\\' then readEscape rest
        else if c.toNat < 32 then
          wrong "control character (\\u0000-\\u001F) found while parsing a string" rest
        else .ok (c, rest)
      let (cs, rest) ← readQuoted fuel rest
      .ok (c :: cs, rest)

def isBlank (c : Char) : Bool := c == ' ' || c == '\n' || c == '\t' || c == '\r'

/-- The rest of a word that is no string. -/
def readWord (shown : String) : (word text : List Char) → Reading Unit
  | [], rest => wrong s!"invalid type: {shown}, expected a string" rest
  | _ :: _, [] => wrong "EOF while parsing a value" []
  | w :: word, c :: rest =>
      if w = c then readWord shown word rest else wrong "expected ident" rest

/-- A number that is no string, behind its sign. -/
def readNumber (sign : String) (text : List Char) : Reading Unit :=
  let whole := text.takeWhile Char.isDigit
  match whole, text.dropWhile Char.isDigit with
  | [], [] => wrong "EOF while parsing a value" []
  | [], rest => wrong "invalid number" (rest.drop 1)
  | '0' :: _ :: _, _ => wrongNext "invalid number" (text.drop 1)
  | _, '.' :: rest =>
      let shown := sign ++ String.ofList (whole ++ '.' :: rest.takeWhile Char.isDigit)
      wrong s!"invalid type: floating point \x60{shown}\x60, expected a string"
        (rest.dropWhile Char.isDigit)
  | _, rest =>
      let shown := sign ++ String.ofList whole
      wrong s!"invalid type: integer \x60{shown}\x60, expected a string" rest

/-- What stands where a string should. -/
def refuse (text : List Char) : Reading Unit :=
  match text with
  | 'n' :: rest => readWord "null" "ull".toList rest
  | 't' :: rest => readWord "boolean \x60true\x60" "rue".toList rest
  | 'f' :: rest => readWord "boolean \x60false\x60" "alse".toList rest
  | '-' :: rest => readNumber "-" rest
  | '[' :: _ => wrong "invalid type: sequence, expected a string" text
  | '{' :: _ => wrong "invalid type: map, expected a string" text
  | [] => wrongNext "EOF while parsing a value" []
  | c :: _ => if c.isDigit then readNumber "" text else wrongNext "expected value" text

/-- A string, and what follows it. -/
def readString (text : List Char) : Reading (String × List Char) :=
  match text.dropWhile isBlank with
  | '"' :: rest => do
      let (content, rest) ← readQuoted rest.length rest
      .ok (String.ofList content, rest)
  | rest => do
      refuse rest
      wrongNext "expected value" rest

/-- Nothing but blanks follows a document. -/
def readEnd (text : List Char) : Reading Unit :=
  match text.dropWhile isBlank with
  | [] => .ok ()
  | rest => wrongNext "trailing characters" rest

end RuleLexer.Text.Json
