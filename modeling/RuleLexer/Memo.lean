/-! What callbacks keep between matches of one run: named texts, numbers and flags. -/
namespace RuleLexer

inductive MemoValue
  | text (value : String)
  | number (value : Int)
  | flag (value : Bool)
deriving DecidableEq, Repr

abbrev Memo := List (String × MemoValue)

namespace Memo

def empty : Memo := []

def get? (m : Memo) (key : String) : Option MemoValue := m.lookup key

/-- Each key is there once. -/
def set (m : Memo) (key : String) (value : MemoValue) : Memo :=
  (key, value) :: m.filter fun entry => entry.1 != key

def erase (m : Memo) (key : String) : Memo := m.filter fun entry => entry.1 != key

def contains (m : Memo) (key : String) : Bool := (m.get? key).isSome

def size (m : Memo) : Nat := m.length

def text? (m : Memo) (key : String) : Option String :=
  match m.get? key with
  | some (.text value) => some value
  | _ => none

def number? (m : Memo) (key : String) : Option Int :=
  match m.get? key with
  | some (.number value) => some value
  | _ => none

/-- A key that holds anything but a raised flag counts as lowered. -/
def flag (m : Memo) (key : String) : Bool := m.get? key == some (.flag true)

end Memo

end RuleLexer
