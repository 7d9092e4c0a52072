import RuleLexer.Regex.Property
import RuleLexer.Unicode.Break
import RuleLexer.Unicode.Script

/-! The classes of characters by which text is broken into units that a reader takes for one
character, into words and into sentences. The classes of one kind do not overlap. -/
namespace RuleLexer.Regex
open RuleLexer.Unicode

def CharSet.chars (cs : List Char) : CharSet := .unions (cs.map .single)

namespace TextBreak

def joiner : CharSet := .single '\u200D'

/-- The zero-width characters that neither join nor part what the format characters do. -/
def zeroWidth : CharSet := .range '\u200B' '\u200D'

def paragraphEnds : CharSet := .chars ['\x85', '\u2028', '\u2029']

/-- Digits and what counts as one: decimal digits, separators between digits, and number signs. -/
def numeric : CharSet :=
  .unions [.category [.decimalNumber], .chars ['\u066B', '\u066C'],
    .diff (.listed prependedMarkTable) (.single '\u070F')]

end TextBreak

namespace GraphemeBreak
open TextBreak

def extend : CharSet := .union Property.graphemeExtend (.listed emojiModifierTable)

def prepend : CharSet := .union (.listed frontLetterTable) (.listed prependedMarkTable)

def control : CharSet :=
  .diff
    (.union (.category [.lineSeparator, .paragraphSeparator, .control, .format])
      (.inter (.category [.unassigned]) Property.ignorable))
    (.unions [.chars ['\r', '\n'], joiner, prepend, extend])

def spacingMark : CharSet :=
  .diff (.union (.category [.spacingMark]) (.chars ['\u0E33', '\u0EB3']))
    (.union extend (.listed looseMarkTable))

end GraphemeBreak

namespace WordBreak
open TextBreak

/-- What stays with the character before it. -/
def extend : CharSet :=
  .diff
    (.unions [Property.graphemeExtend, .category [.spacingMark], .listed emojiModifierTable])
    joiner

def format : CharSet :=
  .diff (.category [.format])
    (.unions [zeroWidth, GraphemeBreak.prepend, Property.graphemeExtend])

def scriptNamed (code : String) : CharSet :=
  .unions ((scripts.filter fun s => s.names.contains code).map fun s => .listed s.table)

def katakana : CharSet :=
  .unions [scriptNamed "Kana", .range '\u3031' '\u3035',
    .chars ['\u309B', '\u309C', '\u30A0', '\u30FC', '\uFF70']]

def hebrewLetter : CharSet := .inter (scriptNamed "Hebr") (.category [.otherLetter])

def letter : CharSet :=
  .diff (.union Property.alphabetic (.listed wordSignTable))
    (.unions [.listed ideographTable, katakana, .listed unspacedTable, scriptNamed "Hira", extend,
      hebrewLetter])

def middleAnywhere : CharSet :=
  .chars ['.', '\u2018', '\u2019', '\u2024', '\uFE52', '\uFF07', '\uFF0E']

def middleOfLetters : CharSet :=
  .chars [':', '\xB7', '\u0387', '\u055F', '\u05F4', '\u2027', '\uFE13', '\uFE55', '\uFF1A']

def middleOfNumbers : CharSet :=
  .chars [',', ';', '\u037E', '\u0589', '\u060C', '\u060D', '\u066C', '\u07F8', '\u2044', '\uFE10',
    '\uFE14', '\uFE50', '\uFE54', '\uFF0C', '\uFF1B']

def number : CharSet := .diff numeric (.single '\u066C')

def connector : CharSet := .union (.category [.connector]) (.single '\u202F')

def newline : CharSet :=
  .union (.chars ['\x0B', '\x0C']) paragraphEnds

/-- Blanks that may be broken. -/
def blank : CharSet :=
  .diff (.category [.spaceSeparator]) (.chars ['\xA0', '\u2007', '\u202F'])

end WordBreak

namespace SentenceBreak
open TextBreak

def extend : CharSet :=
  .unions [Property.graphemeExtend, .category [.spacingMark], joiner]

def format : CharSet :=
  .diff (.category [.format]) (.unions [extend, .range '\u200C' '\u200D', numeric])

def blank : CharSet := .diff (.property .space) (.union paragraphEnds (.chars ['\r', '\n']))

/-- Georgian has a second form of its letters, but sentences do not start with it. -/
def georgian : CharSet := .union (.range '\u10D0' '\u10FA') (.range '\u10FD' '\u10FF')

def georgianCapital : CharSet := .union (.range '\u1C90' '\u1CBA') (.range '\u1CBD' '\u1CBF')

def lower : CharSet :=
  .diff Property.lowercase (.union Property.graphemeExtend georgian)

def upper : CharSet :=
  .diff (.union Property.uppercase (.category [.titleLetter])) georgianCapital

def letter : CharSet :=
  .diff (.union Property.alphabetic (.single '\u05F3')) (.unions [lower, upper, extend])

/-- A full stop, which does not end every sentence. -/
def stop : CharSet := .chars ['.', '\u2024', '\uFE52', '\uFF0E']

/-- A sentence goes on behind these. -/
def goesOn : CharSet :=
  .unions [.chars [',', '-', ':', ';', '\u037E', '\u055D', '\u060C', '\u060D', '\u07F8', '\u1802',
      '\u1808', '\u2013', '\u2014', '\u3001', '\uFE10', '\uFE11', '\uFE13', '\uFE14', '\uFE31',
      '\uFE32', '\uFE50', '\uFE51'],
    .chars ['\uFE54', '\uFE55', '\uFE58', '\uFE63', '\uFF0C', '\uFF0D', '\uFF1A', '\uFF1B',
      '\uFF64']]

def terminal : CharSet := .diff (.listed sentenceTerminalTable) stop

def quotes : CharSet :=
  .unions [.category [.openPunctuation, .closePunctuation, .initialQuote, .finalQuote],
    .chars ['"', '\x27', '\u2E0B'], .range '\u275B' '\u2760', .range '\u2E00' '\u2E01',
    .range '\u2E06' '\u2E08', .range (Char.ofNat 0x1F676) (Char.ofNat 0x1F678)]

/-- Brackets and quotation marks around a sentence. -/
def close : CharSet := .diff quotes (.unions [stop, terminal, goesOn])

end SentenceBreak

end RuleLexer.Regex
