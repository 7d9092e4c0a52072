import RuleLexer.Category
import RuleLexer.Text.Cursor

/-! Tokens: pieces of a text with their byte offset and their category. -/
namespace RuleLexer

/-- Byte offsets from one place to another. -/
structure Span where
  start : Nat
  stop : Nat
deriving DecidableEq, Repr

structure Token where
  offset : Nat
  category : Category
  text : String
deriving DecidableEq, Repr

namespace Token

def size (t : Token) : Nat := t.text.utf8ByteSize

def stop (t : Token) : Nat := t.offset + t.size

def span (t : Token) : Span := ⟨t.offset, t.stop⟩

def isEmpty (t : Token) : Bool := t.text.isEmpty

/-- The same token in a text that has so many bytes more in front. -/
def shift (t : Token) (bytes : Nat) : Token := { t with offset := t.offset + bytes }

def retag (t : Token) (category : Category) : Token := { t with category }

def concat (tokens : List Token) : String := String.join (tokens.map (·.text))

end Token

end RuleLexer
