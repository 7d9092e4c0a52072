/-! Sets of code points written as text. A row is a hexadecimal code point or a range such as
`41-5A`; rows are separated by blanks and ascend. `CodeTable.contains` decides membership. Tables
are united, cut and complemented range by range. -/
namespace RuleLexer.Unicode

/-- Only upper-case digits occur in tables. -/
def hexDigit? (c : Char) : Option Nat :=
  if '0' ≤ c ∧ c ≤ '9' then some (c.toNat - '0'.toNat)
  else if 'A' ≤ c ∧ c ≤ 'F' then some (c.toNat - 'A'.toNat + 10)
  else none

/-- The numbers of a table row, each with the mark written before it. -/
abbrev Row := List (Char × Nat)

structure RowReader where
  rows : List Row
  row : Row
  mark : Char
  code : Option Nat

def RowReader.closeNumber (r : RowReader) : RowReader :=
  match r.code with
  | none => r
  | some code => { r with row := r.row ++ [(r.mark, code)], code := none }

def RowReader.closeRow (r : RowReader) : RowReader :=
  let r := r.closeNumber
  if r.row.isEmpty then r else { r with rows := r.row :: r.rows, row := [], mark := ' ' }

def RowReader.read (r : RowReader) (c : Char) : RowReader :=
  match hexDigit? c with
  | some digit => { r with code := some (r.code.getD 0 * 16 + digit) }
  | none =>
      if c = ' ' ∨ c = '\n' then r.closeRow
      else { r.closeNumber with mark := c }

def rowsOf (table : String) : List Row :=
  (table.toList.foldl RowReader.read ⟨[], [], ' ', none⟩).closeRow.rows.reverse

structure CodeRange where
  first : Nat
  last : Nat
deriving DecidableEq, Repr

def maxCode : Nat := 0x10FFFF

/-- Ranges in ascending order, without overlap. -/
abbrev CodeTable := List CodeRange

def CodeTable.ofText (table : String) : CodeTable :=
  (rowsOf table).filterMap fun
    | [(_, code)] => some ⟨code, code⟩
    | (_, first) :: (_, last) :: _ => some ⟨first, last⟩
    | [] => none

def CodeTable.contains : CodeTable → Nat → Bool
  | [], _ => false
  | r :: rest, n => !decide (n < r.first) && (decide (n ≤ r.last) || contains rest n)

namespace CodeTable

/-- Ranges that overlap or touch become one; the first range stands apart. -/
def join (r : CodeRange) : CodeTable → CodeTable
  | [] => [r]
  | s :: rest =>
      if s.first ≤ r.last + 1 then join ⟨r.first, max r.last s.last⟩ rest else r :: join s rest

/-- A range before the first one that starts behind it; `rest` takes in what stands there. -/
def place (r : CodeRange) (rest : CodeTable → CodeTable) : CodeTable → CodeTable
  | [] => r :: rest []
  | s :: later =>
      if r.first ≤ s.first then r :: rest (s :: later) else s :: place r rest later

/-- The ranges of both tables, in ascending order. -/
def merge : CodeTable → CodeTable → CodeTable
  | [], b => b
  | r :: a, b => place r (merge a) b

def union (a b : CodeTable) : CodeTable :=
  match merge a b with
  | [] => []
  | r :: rest => join r rest

/-- What lies between the ranges, from `next` on. -/
def gaps (next : Nat) : CodeTable → CodeTable
  | [] => if next ≤ maxCode then [⟨next, maxCode⟩] else []
  | r :: rest =>
      if next < r.first then ⟨next, r.first - 1⟩ :: gaps (r.last + 1) rest
      else gaps (r.last + 1) rest

def compl (a : CodeTable) : CodeTable := gaps 0 a

def inter (a b : CodeTable) : CodeTable := compl (union (compl a) (compl b))

def diff (a b : CodeTable) : CodeTable := inter a (compl b)

/-- A code point in front of the first one that is not smaller. -/
def insertCode (n : Nat) : List Nat → List Nat
  | [] => [n]
  | m :: rest => if n ≤ m then n :: m :: rest else m :: insertCode n rest

/-- The table of some code points, in any order. -/
def ofCodes (codes : List Nat) : CodeTable :=
  match (codes.foldr insertCode []).map fun n => CodeRange.mk n n with
  | [] => []
  | r :: rest => join r rest

/-- The character of a table that has no other. -/
def only? : CodeTable → Option Char
  | [r] => if r.first = r.last then some (Char.ofNat r.first) else none
  | _ => none

def size (a : CodeTable) : Nat := a.foldl (fun n r => n + (r.last + 1 - r.first)) 0

def codes (a : CodeTable) : List Nat :=
  a.flatMap fun r => (List.range (r.last + 1 - r.first)).map (r.first + ·)

end CodeTable

end RuleLexer.Unicode
