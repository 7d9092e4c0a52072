import RuleLexer.Unicode.CaseFold
import RuleLexer.Unicode.Digit
import RuleLexer.Unicode.GeneralCategory
import RuleLexer.Unicode.Space
import RuleLexer.Unicode.Word

/-! Character sets as a pattern writes them, and membership in them. A set keeps the operations
it was written with; `mem` gives each its meaning, so union, complement and the other laws of sets
hold by definition. -/
namespace RuleLexer.Regex
open RuleLexer.Unicode

/-- What a character can be asked for without naming it. -/
inductive CharProperty
  | any
  | ascii
  | digit
  | space
  | word
  /-- Folds like some other character. -/
  | cased
  | category (among : List GeneralCategory)
  | listed (table : CodeTable)
deriving DecidableEq, Repr

def CharProperty.holds : CharProperty → Char → Bool
  | .any, _ => true
  | .ascii, c => decide (c.toNat < 128)
  | .digit, c => isDigit c
  | .space, c => isSpace c
  | .word, c => isWord c
  | .cased, c => !(caseVariants c).isEmpty
  | .category among, c => among.any (·.contains c)
  | .listed table, c => table.contains c.toNat

inductive CharSet
  | range (first last : Char)
  | property (p : CharProperty)
  | union (a b : CharSet)
  | inter (a b : CharSet)
  /-- What is in one of the two sets and not in the other. -/
  | either (a b : CharSet)
  | compl (a : CharSet)
  | upToCase (a : CharSet)
deriving DecidableEq, Repr

namespace CharSet

def mem : CharSet → Char → Bool
  | range first last, c => decide (first.toNat ≤ c.toNat) && decide (c.toNat ≤ last.toNat)
  | property p, c => p.holds c
  | union a b, c => a.mem c || b.mem c
  | inter a b, c => a.mem c && b.mem c
  | either a b, c => a.mem c != b.mem c
  | compl a, c => !a.mem c
  | upToCase a, c => a.mem c || (caseVariants c).any a.mem

def single (c : Char) : CharSet := range c c

def all : CharSet := property .any

def none : CharSet := compl all

def diff (a b : CharSet) : CharSet := inter a (compl b)

/-- The code points of a table. -/
def listed (table : CodeTable) : CharSet := property (.listed table)

def category (among : List GeneralCategory) : CharSet := property (.category among)

/-- With a character it holds every other that folds alike. -/
def isClosed : CharSet → Bool
  | range _ _ => false
  | property p => p == .any || p == .word || p == .digit || p == .space
  | union a b | inter a b | either a b => a.isClosed && b.isClosed
  | compl a => a.isClosed
  | upToCase _ => true

/-- The set up to case. A set that is closed already stays as it is, so closing it once more at
every bracket around it costs nothing. -/
def closeCase : CharSet → CharSet
  | union a b => union (closeCase a) (closeCase b)
  | range a b =>
      if a = b ∧ (caseVariants a).isEmpty then range a b else upToCase (range a b)
  | s => if s.isClosed then s else upToCase s

def unions : List CharSet → CharSet
  | [] => none
  | [a] => a
  | a :: rest => union a (unions rest)

def ranges (bounds : List (Char × Char)) : CharSet :=
  unions (bounds.map fun b => range b.1 b.2)

theorem mem_single (c d : Char) : (single c).mem d = (c == d) := by
  rw [Bool.eq_iff_iff]
  simp only [single, mem, Bool.and_eq_true, decide_eq_true_eq, beq_iff_eq]
  constructor
  · rintro ⟨low, high⟩
    exact Char.toNat_inj.mp (Nat.le_antisymm low high)
  · rintro rfl
    exact ⟨Nat.le_refl _, Nat.le_refl _⟩

theorem mem_unions (sets : List CharSet) (c : Char) :
    (unions sets).mem c = sets.any (·.mem c) := by
  induction sets with
  | nil => rfl
  | cons a rest ih =>
      cases rest with
      | nil => simp [unions]
      | cons b rest => simp [unions, mem, ih]

end CharSet

end RuleLexer.Regex
