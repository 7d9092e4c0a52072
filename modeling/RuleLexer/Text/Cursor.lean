/-! A place in a text. A cursor holds the characters passed, last one first, those ahead, and the
byte offset between them; every position the lexer works with is such a place, so it never lies
inside a character. -/
namespace RuleLexer.Text

/-- The length of a text in UTF-8. -/
def byteLength (text : List Char) : Nat := text.foldl (fun n c => n + c.utf8Size) 0

/-- The longest part of a text from its start that has no more than so many bytes. -/
def takeBytes : (bytes : Nat) → List Char → List Char
  | _, [] => []
  | bytes, c :: rest => if c.utf8Size ≤ bytes then c :: takeBytes (bytes - c.utf8Size) rest else []

structure Cursor where
  passed : List Char
  ahead : List Char
  offset : Nat
deriving DecidableEq, Repr

namespace Cursor

def start (text : List Char) : Cursor := ⟨[], text, 0⟩

def text (c : Cursor) : List Char := c.passed.reverse ++ c.ahead

def atEnd (c : Cursor) : Bool := c.ahead.isEmpty

/-- Passes over so many bytes, to the end of the character they end in. -/
def forward : (bytes : Nat) → (passed ahead : List Char) → (offset : Nat) → Cursor
  | 0, passed, ahead, offset => ⟨passed, ahead, offset⟩
  | _ + 1, passed, [], offset => ⟨passed, [], offset⟩
  | bytes + 1, passed, c :: ahead, offset =>
      forward (bytes + 1 - c.utf8Size) (c :: passed) ahead (offset + c.utf8Size)

/-- Goes back over whole characters as long as no more than so many bytes are passed. -/
def backward : (bytes : Nat) → (passed ahead : List Char) → (offset : Nat) → Cursor
  | _, [], ahead, offset => ⟨[], ahead, offset⟩
  | bytes, c :: passed, ahead, offset =>
      if c.utf8Size ≤ bytes then
        backward (bytes - c.utf8Size) passed (c :: ahead) (offset - c.utf8Size)
      else ⟨c :: passed, ahead, offset⟩

/-- The first place at or after a byte offset, or the end of the text. -/
def seek (c : Cursor) (offset : Nat) : Cursor :=
  if c.offset ≤ offset then forward (offset - c.offset) c.passed c.ahead c.offset
  else backward (c.offset - offset) c.passed c.ahead c.offset

/-- The place at a byte offset, none inside a character and beyond the end. -/
def seek? (c : Cursor) (offset : Nat) : Option Cursor :=
  let found := c.seek offset
  if found.offset = offset then some found else none

/-- The text from one place up to a later one. -/
def upTo (c : Cursor) (offset : Nat) : List Char :=
  (forward (offset - c.offset) [] c.ahead c.offset).passed.reverse

end Cursor

end RuleLexer.Text
