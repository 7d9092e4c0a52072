/-! Messages of the log. A message that is too long is cut, between characters, and ends in dots. -/
namespace RuleLexer.Log

/-- Bytes of a message. -/
def maxMessage : Nat := 4096

/-- Why a text could not be cut. -/
inductive CutError
  /-- Not even the start of the text was taken for a place between characters. -/
  | belowZero
  | insideCharacter (offset : Nat)
deriving DecidableEq, Repr

/-- Whether a byte offset lies between characters, or at an end of the text. -/
def isBoundary (text : String) (offset : Nat) : Bool := String.Pos.Raw.isValid text ⟨offset⟩

/-- Goes back from an offset, byte by byte, to one that lies between characters. -/
def searchBack (text : String) : (offset : Nat) → Except CutError Nat
  | 0 => if isBoundary text 0 then .ok 0 else .error .belowZero
  | offset + 1 =>
      if isBoundary text (offset + 1) then .ok (offset + 1) else searchBack text offset

/-- The text up to an offset that is taken to lie between characters. -/
def upTo (text : String) (offset : Nat) : Except CutError String :=
  match text.pos? ⟨offset⟩ with
  | some place => .ok (text.sliceTo place).copy
  | none => .error (.insideCharacter offset)

/-- The start of a message, and dots. -/
def shorten (message : String) : Except CutError String := do
  let stop ← searchBack message maxMessage
  let start ← upTo message stop
  return start ++ "..."

/-- No message fails to be shortened. -/
def cutMessage (message : String) : String :=
  if message.utf8ByteSize ≤ maxMessage then message
  else
    match shorten message with
    | .ok short => short
    | .error _ => ""

end RuleLexer.Log
