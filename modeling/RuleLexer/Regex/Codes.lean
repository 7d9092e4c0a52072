import RuleLexer.Regex.CharSet

/-! The characters of a set as a table of code points, worked out from the operations it was
written with. Two sets with the same table have the same members, however they were written. -/
namespace RuleLexer.Regex
open RuleLexer.Unicode

/-- Without the code points that are no characters, which stand between two that are. -/
def scalars (table : CodeTable) : CodeTable :=
  table.flatMap fun r =>
    if r.last < 0xD800 ∨ 0xDFFF < r.first then [r]
    else
      (if r.first < 0xD800 then [⟨r.first, 0xD7FF⟩] else []) ++
        (if 0xDFFF < r.last then [⟨0xE000, r.last⟩] else [])

def CharProperty.codes : CharProperty → CodeTable
  | .any => [⟨0, maxCode⟩]
  | .ascii => [⟨0, 127⟩]
  | .digit => digitTable
  | .space => spaceTable
  | .word => wordTable
  | .cased => .ofCodes casedCodes
  | .category among => (among.map GeneralCategory.codes).foldr CodeTable.union []
  | .listed table => .union table []

/-- The other characters that fold like one of a table. -/
def variantCodes (table : CodeTable) : CodeTable :=
  let codes := if table.size ≤ 64 then table.codes else casedCodes.filter table.contains
  .ofCodes (codes.flatMap fun n => (caseVariants (Char.ofNat n)).map Char.toNat)

namespace CharSet

def allCodes : CharSet → CodeTable
  | range first last => if first ≤ last then [⟨first.toNat, last.toNat⟩] else []
  | property p => p.codes
  | union a b => a.allCodes.union b.allCodes
  | inter a b => a.allCodes.inter b.allCodes
  | either a b =>
      let left := a.allCodes
      let right := b.allCodes
      (left.diff right).union (right.diff left)
  | compl a => a.allCodes.compl
  | upToCase a =>
      let table := a.allCodes
      table.union (variantCodes table)

/-- The characters of a set. -/
def codes (s : CharSet) : CodeTable := scalars s.allCodes

/-- The character of a set that has no other. -/
def only? : CharSet → Option Char
  | range first last => if first = last then some first else .none
  | property .word | property .space | property .digit => .none
  | s => s.codes.only?

end CharSet

end RuleLexer.Regex
