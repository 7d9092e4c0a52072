import RuleLexer.Unicode.Space

/-! Blanks around and between words. -/
namespace RuleLexer.Text
open RuleLexer.Unicode

def trimStart (text : List Char) : List Char := text.dropWhile isSpace

def trim (text : List Char) : List Char := (trimStart (trimStart text).reverse).reverse

/-- The pieces of a text between the characters of a class, without the empty ones. `piece` holds
the current piece in reverse. -/
def piecesFrom (isBetween : Char → Bool) (piece : List Char) : List Char → List (List Char)
  | [] => if piece.isEmpty then [] else [piece.reverse]
  | c :: rest =>
      if isBetween c then
        if piece.isEmpty then piecesFrom isBetween [] rest
        else piece.reverse :: piecesFrom isBetween [] rest
      else piecesFrom isBetween (c :: piece) rest

def pieces (isBetween : Char → Bool) (text : List Char) : List (List Char) :=
  piecesFrom isBetween [] text

def words (text : List Char) : List (List Char) := pieces isSpace text

theorem trimStart_eq_nil {text : List Char} : trimStart text = [] ↔ ∀ c ∈ text, isSpace c := by
  induction text with
  | nil => simp [trimStart]
  | cons c rest ih => by_cases h : isSpace c <;> simp_all [trimStart]

theorem trim_eq_nil {text : List Char} : trim text = [] ↔ ∀ c ∈ text, isSpace c := by
  constructor
  · intro h
    have inner : trimStart (trimStart text).reverse = [] := by simpa [trim] using h
    have suffix := trimStart_eq_nil.mp inner
    have all : ∀ c ∈ trimStart text, isSpace c := fun c member =>
      suffix c (List.mem_reverse.mpr member)
    cases rest : trimStart text with
    | nil => exact trimStart_eq_nil.mp rest
    | cons c tail =>
        have kept : isSpace c = false := by
          have := List.head?_dropWhile_not isSpace text
          rw [show text.dropWhile isSpace = c :: tail from rest] at this
          simpa using this
        have blank := all c (by simp [rest])
        simp [kept] at blank
  · intro h
    rw [trim, trimStart_eq_nil.mpr h]
    rfl

end RuleLexer.Text
