import RuleLexer.Unicode.CodeTable

/-! Characters of identifiers beside those whose general category says so. -/
namespace RuleLexer.Unicode

def otherStartTable : CodeTable := .ofText "1885-1886 2118 212E 309B-309C"

def otherContinueTable : CodeTable := .ofText "B7 387 1369-1371 19DA 200C-200D 30FB FF65"

/-- Signs that can start a mathematical identifier. -/
def mathStartTable : CodeTable := .ofText "
  2202 2207 221E 1D6C1 1D6DB 1D6FB 1D715 1D735 1D74F 1D76F 1D789 1D7A9 1D7C3"

/-- Signs that can only go on in one. -/
def mathContinueTable : CodeTable := .ofText "B2-B3 B9 2070 2074-207E 2080-208E"

/-- Would not start an identifier any more after compatibility composition. -/
def unstableStartTable : CodeTable := .ofText "
  37A E33 EB3 309B-309C FC5E-FC63 FDFA-FDFB FE70 FE72 FE74 FE76 FE78 FE7A FE7C FE7E FF9E-FF9F"

/-- Would not go on in an identifier any more after compatibility composition. -/
def unstableContinueTable : CodeTable := .ofText "
  37A 309B-309C FC5E-FC63 FDFA-FDFB FE70 FE72 FE74 FE76 FE78 FE7A FE7C FE7E"

end RuleLexer.Unicode
