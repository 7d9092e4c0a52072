import RuleLexer.Unicode.CodeTable

/-! Characters that do not show by themselves but tell how others are to be shown or joined, and
code points that are no characters. -/
namespace RuleLexer.Unicode

def bidiControlTable : CodeTable := .ofText "61C 200E-200F 202A-202E 2066-2069"

def joinControlTable : CodeTable := .ofText "200C-200D"

/-- Not shown where it is not supported, though its general category does not say so. -/
def otherIgnorableTable : CodeTable := .ofText "
  34F 115F-1160 17B4-17B5 2065 3164 FFA0 FFF0-FFF8 E0000 E0002-E001F E0080-E00FF E01F0-E0FFF"

/-- Written in front of the number or word it encloses. -/
def prependedMarkTable : CodeTable := .ofText "600-605 6DD 70F 890-891 8E2 110BD 110CD"

def noncharacterTable : CodeTable := .ofText "
  FDD0-FDEF FFFE-FFFF 1FFFE-1FFFF 2FFFE-2FFFF 3FFFE-3FFFF 4FFFE-4FFFF 5FFFE-5FFFF 6FFFE-6FFFF
  7FFFE-7FFFF 8FFFE-8FFFF 9FFFE-9FFFF AFFFE-AFFFF BFFFE-BFFFF CFFFE-CFFFF DFFFE-DFFFF EFFFE-EFFFF
  FFFFE-FFFFF 10FFFE-10FFFF"

def deprecatedTable : CodeTable := .ofText "149 673 F77 F79 17A3-17A4 206A-206F 2329-232A E0001"

/-- Written before the consonant it is spoken after. -/
def visualOrderTable : CodeTable := .ofText "
  E40-E44 EC0-EC4 19B5-19B7 19BA AAB5-AAB6 AAB9 AABB-AABC"

end RuleLexer.Unicode
