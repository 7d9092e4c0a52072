import RuleLexer.Regex.TextBreak
import RuleLexer.Unicode.Age
import RuleLexer.Unicode.Extender
import RuleLexer.Unicode.ScriptUse

/-! Names of character properties as patterns write them. Case, blanks, hyphens, underscores and a
leading `is` do not count. -/
namespace RuleLexer.Regex
open RuleLexer.Unicode

namespace PropertyName

def normalize (name : List Char) : String :=
  let startsWithIs := match name with
    | i :: s :: _ => i.toLower == 'i' && s.toLower == 's'
    | _ => false
  let kept := (if startsWithIs then name.drop 2 else name).filter fun c =>
    c != ' ' && c != '_' && c != '-' && decide (c.toNat < 128)
  let lowered := kept.map Char.toLower
  if startsWithIs && lowered == ['c'] then "isc" else String.ofList lowered

/-- Sets, each with the names it goes by. -/
abbrev Entries := List (List String × CharSet)

/-- The set that has a name, which is given normalized. -/
def lookup (entries : Entries) (name : String) : Option CharSet :=
  (entries.find? fun entry => entry.1.any fun n => normalize n.toList == name).map Prod.snd

/-! Properties without a value -/

def letterEntries : Entries :=
  [(["Alpha", "Alphabetic"], Property.alphabetic),
    (["Lower", "Lowercase"], Property.lowercase),
    (["Upper", "Uppercase"], Property.uppercase),
    (["Cased"], Property.cased),
    (["CI", "Case_Ignorable"], Property.caseIgnorable),
    (["CWL", "Changes_When_Lowercased"], Property.changesInLower),
    (["CWU", "Changes_When_Uppercased"], Property.changesInUpper),
    (["CWT", "Changes_When_Titlecased"], Property.changesInTitle),
    (["CWCM", "Changes_When_Casemapped"], Property.changesInCase),
    (["CWCF", "Changes_When_Casefolded"], Property.changesInFolding),
    (["SD", "Soft_Dotted"], .listed softDottedTable),
    (["OAlpha", "Other_Alphabetic"], .listed otherAlphabeticTable),
    (["OLower", "Other_Lowercase"], .listed otherLowercaseTable),
    (["OUpper", "Other_Uppercase"], .listed otherUppercaseTable)]

def ideographEntries : Entries :=
  [(["Ideo", "Ideographic"], .listed ideographTable),
    (["UIdeo", "Unified_Ideograph"], .listed unifiedIdeographTable),
    (["Radical"], .listed radicalTable),
    (["IDSU", "IDS_Unary_Operator"], .listed unaryOperatorTable),
    (["IDSB", "IDS_Binary_Operator"], .listed binaryOperatorTable),
    (["IDST", "IDS_Trinary_Operator"], .listed ternaryOperatorTable)]

def identifierEntries : Entries :=
  [(["IDS", "ID_Start"], Property.identifierStart),
    (["IDC", "ID_Continue"], Property.identifierContinue),
    (["XIDS", "XID_Start"], Property.stableStart),
    (["XIDC", "XID_Continue"], Property.stableContinue),
    (["OIDS", "Other_ID_Start"], .listed otherStartTable),
    (["OIDC", "Other_ID_Continue"], .listed otherContinueTable),
    (["ID_Compat_Math_Start"], .listed mathStartTable),
    (["ID_Compat_Math_Continue"], Property.mathContinue),
    (["Pat_Syn", "Pattern_Syntax"], .listed patternSyntaxTable),
    (["Pat_WS", "Pattern_White_Space"], .listed patternBlankTable)]

def markEntries : Entries :=
  [(["Dia", "Diacritic"], .listed diacriticTable),
    (["Ext", "Extender"], .listed lengthenerTable),
    (["Gr_Base", "Grapheme_Base"], Property.graphemeBase),
    (["Gr_Ext", "Grapheme_Extend"], Property.graphemeExtend),
    (["Gr_Link", "Grapheme_Link"], .listed linkerTable),
    (["OGr_Ext", "Other_Grapheme_Extend"], .listed otherExtendTable),
    (["MCM", "Modifier_Combining_Mark"], .listed modifierMarkTable),
    (["VS", "Variation_Selector"], .listed variationSelectorTable)]

def emojiEntries : Entries :=
  [(["Emoji"], .listed emojiTable),
    (["EComp", "Emoji_Component"], .listed emojiComponentTable),
    (["EMod", "Emoji_Modifier"], .listed emojiModifierTable),
    (["EBase", "Emoji_Modifier_Base"], .listed emojiBaseTable),
    (["EPres", "Emoji_Presentation"], .listed emojiPresentationTable),
    (["ExtPict", "Extended_Pictographic"], .listed pictographTable),
    (["RI", "Regional_Indicator"], .listed regionalIndicatorTable)]

def otherEntries : Entries :=
  [(["AHex", "ASCII_Hex_Digit"], Property.asciiHexDigit),
    (["Hex", "Hex_Digit"], .listed hexDigitTable),
    (["Dash"], .listed dashMarkTable),
    (["Hyphen"], .listed hyphenTable),
    (["Math"], Property.math),
    (["OMath", "Other_Math"], .listed otherMathTable),
    (["QMark", "Quotation_Mark"], .listed quotationMarkTable),
    (["STerm", "Sentence_Terminal"], .listed sentenceTerminalTable),
    (["Term", "Terminal_Punctuation"], .listed terminalTable),
    (["WSpace", "White_Space", "space"], .property .space),
    (["Bidi_C", "Bidi_Control"], .listed bidiControlTable),
    (["Join_C", "Join_Control"], .listed joinControlTable),
    (["DI", "Default_Ignorable_Code_Point"], Property.ignorable),
    (["ODI", "Other_Default_Ignorable_Code_Point"], .listed otherIgnorableTable),
    (["PCM", "Prepended_Concatenation_Mark"], .listed prependedMarkTable),
    (["NChar", "Noncharacter_Code_Point"], .listed noncharacterTable),
    (["Dep", "Deprecated"], .listed deprecatedTable),
    (["LOE", "Logical_Order_Exception"], .listed visualOrderTable)]

def binary? (name : String) : Option CharSet :=
  lookup (letterEntries ++ ideographEntries ++ identifierEntries ++ markEntries ++ emojiEntries ++
    otherEntries) name

/-! Properties with a value -/

def categoryNames : List (List String × List GeneralCategory) :=
  [(["L", "Letter"], Property.letters),
    (["LC", "Cased_Letter"], [.upperLetter, .lowerLetter, .titleLetter]),
    (["Lu", "Uppercase_Letter"], [.upperLetter]),
    (["Ll", "Lowercase_Letter"], [.lowerLetter]),
    (["Lt", "Titlecase_Letter"], [.titleLetter]),
    (["Lm", "Modifier_Letter"], [.modifierLetter]),
    (["Lo", "Other_Letter"], [.otherLetter]),
    (["M", "Mark", "Combining_Mark"], Property.marks),
    (["Mn", "Nonspacing_Mark"], [.nonspacingMark]),
    (["Mc", "Spacing_Mark"], [.spacingMark]),
    (["Me", "Enclosing_Mark"], [.enclosingMark]),
    (["N", "Number"], Property.numbers),
    (["Nd", "Decimal_Number", "digit"], [.decimalNumber]),
    (["Nl", "Letter_Number"], [.letterNumber]),
    (["No", "Other_Number"], [.otherNumber]),
    (["P", "Punctuation", "punct"], Property.punctuation),
    (["Pc", "Connector_Punctuation"], [.connector]),
    (["Pd", "Dash_Punctuation"], [.dash]),
    (["Ps", "Open_Punctuation"], [.openPunctuation]),
    (["Pe", "Close_Punctuation"], [.closePunctuation]),
    (["Pi", "Initial_Punctuation"], [.initialQuote]),
    (["Pf", "Final_Punctuation"], [.finalQuote]),
    (["Po", "Other_Punctuation"], [.otherPunctuation]),
    (["S", "Symbol"], Property.symbols),
    (["Sm", "Math_Symbol"], [.mathSymbol]),
    (["Sc", "Currency_Symbol"], [.currencySymbol]),
    (["Sk", "Modifier_Symbol"], [.modifierSymbol]),
    (["So", "Other_Symbol"], [.otherSymbol]),
    (["Z", "Separator"], Property.separators),
    (["Zs", "Space_Separator"], [.spaceSeparator]),
    (["Zl", "Line_Separator"], [.lineSeparator]),
    (["Zp", "Paragraph_Separator"], [.paragraphSeparator]),
    (["C", "Other"], Property.others),
    (["Cc", "Control", "cntrl"], [.control]),
    (["Cf", "Format"], [.format]),
    (["Co", "Private_Use"], [.privateUse]),
    (["Cn", "Unassigned"], [.unassigned])]

def generalCategory? (name : String) : Option CharSet :=
  lookup
    ((["Any"], .all) :: (["ASCII"], .property .ascii) ::
      (["Assigned"], .compl (.category [.unassigned])) ::
      categoryNames.map fun entry => (entry.1, .category entry.2))
    name

def scriptNamed? (name : String) : Option Script :=
  scripts.find? fun s => s.names.any fun n => normalize n.toList == name

def script? (name : String) : Option CharSet :=
  (scriptNamed? name).map fun s => .listed s.table

def ScriptUse.isOf (u : ScriptUse) (s : Script) : Bool :=
  (u.codes.splitToList Char.isWhitespace).any s.names.contains

/-- The characters a script uses: its own, but for those whose use is told apart, and those told to
be in use there. -/
def scriptUse? (name : String) : Option CharSet :=
  (scriptNamed? name).map fun s =>
    let tables := fun (uses : List ScriptUse) => CharSet.unions (uses.map fun u => .listed u.table)
    .union (tables (scriptUses.filter (ScriptUse.isOf · s)))
      (.diff (.listed s.table) (tables scriptUses))

def Version.names (v : Version) : List String :=
  [toString v.major ++ "." ++ toString v.minor, "V" ++ toString v.major ++ "_" ++ toString v.minor]

/-- What a version of the standard assigns, with all that was assigned before. -/
def age? (name : String) : Option CharSet :=
  let isNamed := fun v => (Version.names v).any fun n => normalize n.toList == name
  let before := versions.takeWhile fun v => !isNamed v
  (versions.find? isNamed).map fun v => .unions ((before ++ [v]).map fun v => .listed v.table)

def graphemeBreaks : Entries :=
  [(["CN", "Control"], GraphemeBreak.control),
    (["CR"], .single '\r'),
    (["LF"], .single '\n'),
    (["EX", "Extend"], GraphemeBreak.extend),
    (["PP", "Prepend"], GraphemeBreak.prepend),
    (["SM", "SpacingMark"], GraphemeBreak.spacingMark),
    (["L"], .listed leadingConsonantTable),
    (["V"], .listed medialVowelTable),
    (["T"], .listed trailingConsonantTable),
    (["LV"], .listed openSyllableTable),
    (["LVT"], .listed closedSyllableTable),
    (["RI", "Regional_Indicator"], .listed regionalIndicatorTable),
    (["ZWJ"], TextBreak.joiner)]

def wordBreaks : Entries :=
  [(["CR"], .single '\r'),
    (["LF"], .single '\n'),
    (["NL", "Newline"], WordBreak.newline),
    (["Extend"], WordBreak.extend),
    (["FO", "Format"], WordBreak.format),
    (["KA", "Katakana"], WordBreak.katakana),
    (["HL", "Hebrew_Letter"], WordBreak.hebrewLetter),
    (["LE", "ALetter"], WordBreak.letter),
    (["SQ", "Single_Quote"], .single '\x27'),
    (["DQ", "Double_Quote"], .single '"'),
    (["MB", "MidNumLet"], WordBreak.middleAnywhere),
    (["ML", "MidLetter"], WordBreak.middleOfLetters),
    (["MN", "MidNum"], WordBreak.middleOfNumbers),
    (["NU", "Numeric"], WordBreak.number),
    (["EX", "ExtendNumLet"], WordBreak.connector),
    (["WSegSpace"], WordBreak.blank),
    (["RI", "Regional_Indicator"], .listed regionalIndicatorTable),
    (["ZWJ"], TextBreak.joiner)]

def sentenceBreaks : Entries :=
  [(["CR"], .single '\r'),
    (["LF"], .single '\n'),
    (["SE", "Sep"], TextBreak.paragraphEnds),
    (["EX", "Extend"], SentenceBreak.extend),
    (["FO", "Format"], SentenceBreak.format),
    (["SP", "Sp"], SentenceBreak.blank),
    (["LO", "Lower"], SentenceBreak.lower),
    (["UP", "Upper"], SentenceBreak.upper),
    (["LE", "OLetter"], SentenceBreak.letter),
    (["NU", "Numeric"], TextBreak.numeric),
    (["AT", "ATerm"], SentenceBreak.stop),
    (["SC", "SContinue"], SentenceBreak.goesOn),
    (["ST", "STerm"], SentenceBreak.terminal),
    (["CL", "Close"], SentenceBreak.close)]

/-- The set a single name stands for. -/
def find? (name : List Char) : Option CharSet :=
  let name := normalize name
  (binary? name).or ((generalCategory? name).or (script? name))

/-- The set that a name and a value stand for together. -/
def findValue? (name value : List Char) : Option CharSet :=
  let value := normalize value
  match normalize name with
  | "gc" | "generalcategory" => generalCategory? value
  | "sc" | "script" => script? value
  | "scx" | "scriptextensions" => scriptUse? value
  | "age" => age? value
  | "gcb" | "graphemeclusterbreak" => lookup graphemeBreaks value
  | "wb" | "wordbreak" => lookup wordBreaks value
  | "sb" | "sentencebreak" => lookup sentenceBreaks value
  | _ => none

end PropertyName

end RuleLexer.Regex
