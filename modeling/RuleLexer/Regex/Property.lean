import RuleLexer.Regex.CharSet
import RuleLexer.Unicode.CaseChange
import RuleLexer.Unicode.Control
import RuleLexer.Unicode.Emoji
import RuleLexer.Unicode.Identifier
import RuleLexer.Unicode.Ideograph
import RuleLexer.Unicode.Letter
import RuleLexer.Unicode.Mark
import RuleLexer.Unicode.Punctuation

/-! Properties that a character has or has not, as sets. A property that the standard derives from
others is written with the operations of its derivation. -/
namespace RuleLexer.Regex.Property
open RuleLexer.Unicode

def letters : List GeneralCategory :=
  [.upperLetter, .lowerLetter, .titleLetter, .modifierLetter, .otherLetter]

def marks : List GeneralCategory := [.nonspacingMark, .spacingMark, .enclosingMark]

def numbers : List GeneralCategory := [.decimalNumber, .letterNumber, .otherNumber]

def punctuation : List GeneralCategory :=
  [.connector, .dash, .openPunctuation, .closePunctuation, .initialQuote, .finalQuote,
    .otherPunctuation]

def symbols : List GeneralCategory :=
  [.mathSymbol, .currencySymbol, .modifierSymbol, .otherSymbol]

def separators : List GeneralCategory := [.spaceSeparator, .lineSeparator, .paragraphSeparator]

def others : List GeneralCategory := [.control, .format, .privateUse, .unassigned]

/-! Letters and case -/

def alphabetic : CharSet :=
  .union (.category (letters ++ [.letterNumber])) (.listed otherAlphabeticTable)

def lowercase : CharSet := .union (.category [.lowerLetter]) (.listed otherLowercaseTable)

def uppercase : CharSet := .union (.category [.upperLetter]) (.listed otherUppercaseTable)

def cased : CharSet := .unions [lowercase, uppercase, .category [.titleLetter]]

def caseIgnorable : CharSet :=
  .union
    (.category [.nonspacingMark, .enclosingMark, .format, .modifierLetter, .modifierSymbol])
    (.listed wordMiddleTable)

def changesInLower : CharSet :=
  .union (.inter (.property .cased) (.union uppercase (.category [.titleLetter])))
    (.listed lowersToSeveralTable)

def changesInUpper : CharSet :=
  .union (.diff (.property .cased) changesInLower) (.listed uppersToSeveralTable)

def changesInTitle : CharSet :=
  .union (.diff changesInUpper (.listed titleFormTable)) (.listed titleSourceTable)

def changesInCase : CharSet := .unions [changesInLower, changesInUpper, changesInTitle]

def changesInFolding : CharSet :=
  .diff (.union changesInLower (.listed foldsToSeveralTable)) (.listed foldTargetTable)

/-! Marks -/

def graphemeExtend : CharSet :=
  .union (.category [.nonspacingMark, .enclosingMark]) (.listed otherExtendTable)

def graphemeBase : CharSet :=
  .compl (.union (.category (others ++ [.lineSeparator, .paragraphSeparator])) graphemeExtend)

/-! Identifiers -/

def patternCharacters : CharSet :=
  .union (.listed patternSyntaxTable) (.listed patternBlankTable)

def identifierStart : CharSet :=
  .diff (.union (.category (letters ++ [.letterNumber])) (.listed otherStartTable))
    patternCharacters

def identifierContinue : CharSet :=
  .diff
    (.unions [identifierStart,
      .category [.nonspacingMark, .spacingMark, .decimalNumber, .connector],
      .listed otherContinueTable])
    patternCharacters

def stableStart : CharSet := .diff identifierStart (.listed unstableStartTable)

def stableContinue : CharSet := .diff identifierContinue (.listed unstableContinueTable)

def mathContinue : CharSet := .union (.listed mathStartTable) (.listed mathContinueTable)

/-! Use -/

def math : CharSet := .union (.category [.mathSymbol]) (.listed otherMathTable)

/-- Annotation marks and the format characters of hieroglyphs show by themselves. -/
def visibleFormat : CharSet :=
  .unions [.range '\uFFF9' '\uFFFB', .range (Char.ofNat 0x13430) (Char.ofNat 0x13440),
    .listed prependedMarkTable]

def ignorable : CharSet :=
  .diff
    (.unions [.listed otherIgnorableTable, .category [.format], .listed variationSelectorTable])
    visibleFormat

def asciiHexDigit : CharSet := .inter (.listed hexDigitTable) (.property .ascii)

end RuleLexer.Regex.Property
