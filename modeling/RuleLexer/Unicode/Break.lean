import RuleLexer.Unicode.CodeTable

/-! Characters that the rules for breaking text treat in their own way: the parts and the whole
syllables of Hangul, letters written in front of others, and scripts without blanks. -/
namespace RuleLexer.Unicode

def leadingConsonantTable : CodeTable := .ofText "1100-115F A960-A97C"

def medialVowelTable : CodeTable := .ofText "1160-11A7 D7B0-D7C6 16D63 16D67-16D6A"

def trailingConsonantTable : CodeTable := .ofText "11A8-11FF D7CB-D7FB"

/-- The syllables stand in 399 blocks of 28: one without a trailing consonant, then the others. -/
def syllableBlocks : List Nat := (List.range 399).map fun i => 0xAC00 + 28 * i

def openSyllableTable : CodeTable := syllableBlocks.map fun n => ⟨n, n⟩

def closedSyllableTable : CodeTable := syllableBlocks.map fun n => ⟨n + 1, n + 27⟩

/-- Letters that form one unit with the letter behind them. -/
def frontLetterTable : CodeTable := .ofText "
  D4E 111C2-111C3 113D1 1193F 11941 11A3A 11A84-11A89 11D46 11F02"

/-- Spacing marks that form no unit with the letter before them. -/
def looseMarkTable : CodeTable := .ofText "
  102B-102C 1038 1062-1064 1067-106D 1083 1087-108C 108F 109A-109C 1A61 1A63-1A64 AA7B AA7D
  11720-11721"

/-- Written without blanks between words, so that only a dictionary finds them. -/
def unspacedTable : CodeTable := .ofText "
  E01-E3A E40-E4E E81-E82 E84 E86-E8A E8C-EA3 EA5 EA7-EBD EC0-EC4 EC6 EC8-ECE EDC-EDF 1000-103F
  1050-108F 109A-109F 1780-17D3 17D7 17DC-17DD 1950-196D 1970-1974 1980-19AB 19B0-19C9 19DA
  19DE-19DF 1A20-1A5E 1A60-1A7C 1AA0-1AAD A9E0-A9EF A9FA-A9FE AA60-AAC2 AADB-AADF 11700-1171A
  1171D-1172B 1173A-1173B 1173F-11746"

/-- Modifier letters and signs that words hold though they are not alphabetic. -/
def wordSignTable : CodeTable := .ofText "
  B8 2C2-2C5 2D2-2D7 2DE-2DF 2E5-2EB 2ED 2EF-2FF 55A-55C 55E 58A 5F3 70F A708-A716 A720-A721
  A789-A78A AB5B"

end RuleLexer.Unicode
