import RuleLexer.Token

/-! Coverage: whether tokens cut a text into its pieces, in order, with no gap and no empty token.
`check` reads the tokens once and names the first that is wrong. -/
namespace RuleLexer.Coverage
open RuleLexer.Text

inductive Violation
  | discontinuity (index expected found : Nat)
  | emptyToken (index offset : Nat)
  | textMismatch (index offset : Nat)
  | incomplete (covered length : Nat)
deriving DecidableEq, Repr

namespace Violation

/-- The bytes of the text that the violation is about. -/
def span : Violation → Span
  | discontinuity _ expected found => ⟨min expected found, max expected found⟩
  | emptyToken _ offset | textMismatch _ offset => ⟨offset, offset⟩
  | incomplete covered length => ⟨covered, length⟩

def message : Violation → String
  | discontinuity index expected found =>
      s!"token {index} starts at byte {found} but the previous token ended at {expected}"
  | textMismatch index offset => s!"token {index} does not match the input at byte {offset}"
  | emptyToken index offset => s!"token {index} at byte {offset} is empty"
  | incomplete covered length => s!"tokens cover {covered} of {length} bytes"

end Violation

/-- The text behind a token's text, none when the text starts otherwise. -/
def dropText? : (piece text : List Char) → Option (List Char)
  | [], text => some text
  | _ :: _, [] => none
  | p :: piece, c :: text => if p = c then dropText? piece text else none

/-- Reads tokens to the end or to the first that is wrong, and notes those whose end it adds up: the
ones that it compares with the text, also the one that turns out to differ. -/
def checkNoting (index offset : Nat) (text : List Char) :
    List Token → Except Violation Unit × List Token
  | [] =>
      if text.isEmpty then (.ok (), [])
      else (.error (.incomplete offset (offset + byteLength text)), [])
  | t :: tokens =>
      if t.offset ≠ offset then (.error (.discontinuity index offset t.offset), [])
      else if t.isEmpty then (.error (.emptyToken index offset), [])
      else match dropText? t.text.toList text with
        | none => (.error (.textMismatch index offset), [t])
        | some rest =>
          let later := checkNoting (index + 1) t.stop rest tokens
          (later.1, t :: later.2)

def checkFrom (index offset : Nat) (text : List Char) (tokens : List Token) :
    Except Violation Unit :=
  (checkNoting index offset text tokens).1

theorem checkFrom_nil (index offset : Nat) (text : List Char) :
    checkFrom index offset text [] =
      if text.isEmpty then .ok ()
      else .error (.incomplete offset (offset + byteLength text)) := by
  rw [checkFrom, checkNoting]
  split <;> rfl

theorem checkFrom_cons (index offset : Nat) (text : List Char) (t : Token) (tokens : List Token) :
    checkFrom index offset text (t :: tokens) =
      if t.offset ≠ offset then .error (.discontinuity index offset t.offset)
      else if t.isEmpty then .error (.emptyToken index offset)
      else match dropText? t.text.toList text with
        | none => .error (.textMismatch index offset)
        | some rest => checkFrom (index + 1) t.stop rest tokens := by
  rw [checkFrom, checkNoting]
  split
  · rfl
  split
  · rfl
  split <;> rfl

def check (text : String) (tokens : List Token) : Except Violation Unit :=
  checkFrom 0 0 text.toList tokens

/-- The tokens of a text from an offset on, one after the other to its end. -/
inductive Covers : Nat → List Char → List Token → Prop
  | nil (offset : Nat) : Covers offset [] []
  | cons {t : Token} {rest : List Char} {tokens : List Token} (nonempty : t.text ≠ "")
      (later : Covers t.stop rest tokens) :
      Covers t.offset (t.text.toList ++ rest) (t :: tokens)

end RuleLexer.Coverage
