import RuleLexer.Unicode.CodeTable

/-! Blank characters: the White_Space property. -/
namespace RuleLexer.Unicode

def spaceTable : CodeTable := .ofText "9-D 20 85 A0 1680 2000-200A 2028-2029 202F 205F 3000"

/-- The first clause decides the table's ASCII part without reading it. -/
def isSpace (c : Char) : Bool :=
  if c.toNat < 128 then c.toNat == 32 || (9 ≤ c.toNat && c.toNat ≤ 13)
  else spaceTable.contains c.toNat

end RuleLexer.Unicode
