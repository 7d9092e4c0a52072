import RuleLexer.Regex.Parser

/-! Patterns for word lists. The alternatives stand longest first, so that no word hides a longer
one that starts with it. -/
namespace RuleLexer

namespace Words

/-- A pattern that matches just this text. -/
def escape (text : List Char) : List Char :=
  text.flatMap fun c => if Regex.isMeta c then ['\\', c] else [c]

/-- Longer words first, words of equal length in the order of their characters. -/
def before (a b : String) : Bool :=
  if a.utf8ByteSize = b.utf8ByteSize then decide (a ≤ b)
  else decide (b.utf8ByteSize < a.utf8ByteSize)

/-- Drops each entry that repeats the one before it. -/
def dedup : List String → List String
  | a :: b :: rest => if a = b then dedup (b :: rest) else a :: dedup (b :: rest)
  | rest => rest

def insert (word : String) : List String → List String
  | [] => [word]
  | w :: rest => if before word w then word :: w :: rest else w :: insert word rest

def sorted (words : List String) : List String := dedup (words.foldr insert [])

end Words

/-- The pattern for any of some words between two patterns. -/
def words (list : List String) (before after : String) : String :=
  let alternatives := (Words.sorted list).map fun w => String.ofList (Words.escape w.toList)
  before ++ "(?:" ++ String.intercalate "|" alternatives ++ ")" ++ after

end RuleLexer
