/-! Bytes as text. Where bytes are not text, the first place at which no character can be read is
what an error names. -/
namespace RuleLexer.Text.Utf8

/-- What a first byte asks for: so many bytes behind it, the first of them in a range. -/
structure Lead where
  following : Nat
  low : UInt8 := 0x80
  high : UInt8 := 0xbf
deriving DecidableEq, Repr

/-- Bounds on the second byte exclude longer forms than needed, surrogates, and what lies beyond the
last code point. -/
def lead? (b : UInt8) : Option Lead :=
  if b < 0x80 then some { following := 0 }
  else if b < 0xc2 then none
  else if b < 0xe0 then some { following := 1 }
  else if b = 0xe0 then some { following := 2, low := 0xa0 }
  else if b = 0xed then some { following := 2, high := 0x9f }
  else if b < 0xf0 then some { following := 2 }
  else if b = 0xf0 then some { following := 3, low := 0x90 }
  else if b < 0xf4 then some { following := 3 }
  else if b = 0xf4 then some { following := 3, high := 0x8f }
  else none

def isContinuation (b : UInt8) : Bool := decide (0x80 ≤ b ∧ b ≤ 0xbf)

/-- Whether the bytes behind a first byte start with what it asks for. -/
def Lead.isFollowed (l : Lead) (bytes : List UInt8) : Bool :=
  let body := bytes.take l.following
  decide (body.length = l.following) && body.all isContinuation &&
    match body with
    | [] => true
    | second :: _ => decide (l.low ≤ second ∧ second ≤ l.high)

/-- The offset behind the characters that can be read, when so many bytes are read already. -/
def validUpTo (offset : Nat) : List UInt8 → Nat
  | [] => offset
  | b :: rest =>
      match lead? b with
      | none => offset
      | some lead =>
          if lead.isFollowed rest then
            validUpTo (offset + 1 + lead.following) (rest.drop lead.following)
          else offset
termination_by bytes => bytes.length
decreasing_by simp only [List.length_drop, List.length_cons]; omega

/-- The text, or the offset at which it stops being one. -/
def decode (bytes : ByteArray) : Except Nat String :=
  match String.fromUTF8? bytes with
  | some text => .ok text
  | none => .error (validUpTo 0 bytes.toList)

end RuleLexer.Text.Utf8
