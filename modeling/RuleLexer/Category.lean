import RuleLexer.Text.Blank

/-! Token categories. They form a tree under `token`; a category is each of its ancestors, so
whoever asks for `comment` is also given `commentPreproc`. `all` lists a parent before its
children. -/
namespace RuleLexer

inductive Category
  | token
  | text
  | whitespace
  | error
  | other
  | keyword
  | keywordConstant
  | keywordDeclaration
  | keywordNamespace
  | keywordPseudo
  | keywordReserved
  | keywordType
  | name
  | nameAttribute
  | nameBuiltin
  | nameBuiltinPseudo
  | nameClass
  | nameConstant
  | nameDecorator
  | nameEntity
  | nameException
  | nameFunction
  | nameLabel
  | nameNamespace
  | nameOther
  | namePseudo
  | nameTag
  | nameVariable
  | nameVariableClass
  | nameVariableGlobal
  | nameVariableInstance
  | literal
  | literalDate
  | string
  | stringBacktick
  | stringChar
  | stringDoc
  | stringDouble
  | stringEscape
  | stringHeredoc
  | stringInterpol
  | stringOther
  | stringRegex
  | stringSingle
  | stringSymbol
  | number
  | numberFloat
  | numberHex
  | numberInteger
  | numberIntegerLong
  | numberOct
  | operator
  | operatorWord
  | punctuation
  | comment
  | commentMultiline
  | commentPreproc
  | commentSingle
  | commentSpecial
  | generic
  | genericDeleted
  | genericEmph
  | genericError
  | genericHeading
  | genericInserted
  | genericOutput
  | genericPrompt
  | genericStrong
  | genericSubheading
  | genericTraceback
deriving DecidableEq, Repr

namespace Category

def all : List Category :=
  [.token, .text, .whitespace, .error, .other, .keyword, .keywordConstant, .keywordDeclaration,
    .keywordNamespace, .keywordPseudo, .keywordReserved, .keywordType, .name, .nameAttribute,
    .nameBuiltin, .nameBuiltinPseudo, .nameClass, .nameConstant, .nameDecorator, .nameEntity,
    .nameException, .nameFunction, .nameLabel, .nameNamespace, .nameOther, .namePseudo,
    .nameTag, .nameVariable, .nameVariableClass, .nameVariableGlobal, .nameVariableInstance,
    .literal, .literalDate, .string, .stringBacktick, .stringChar, .stringDoc, .stringDouble,
    .stringEscape, .stringHeredoc, .stringInterpol, .stringOther, .stringRegex, .stringSingle,
    .stringSymbol, .number, .numberFloat, .numberHex, .numberInteger, .numberIntegerLong,
    .numberOct, .operator, .operatorWord, .punctuation, .comment, .commentMultiline,
    .commentPreproc, .commentSingle, .commentSpecial, .generic, .genericDeleted, .genericEmph,
    .genericError, .genericHeading, .genericInserted, .genericOutput, .genericPrompt,
    .genericStrong, .genericSubheading, .genericTraceback]

/-- The dotted path below the root. -/
def path : Category → String
  | token => "Token"
  | text => "Text"
  | whitespace => "Text.Whitespace"
  | error => "Error"
  | other => "Other"
  | keyword => "Keyword"
  | keywordConstant => "Keyword.Constant"
  | keywordDeclaration => "Keyword.Declaration"
  | keywordNamespace => "Keyword.Namespace"
  | keywordPseudo => "Keyword.Pseudo"
  | keywordReserved => "Keyword.Reserved"
  | keywordType => "Keyword.Type"
  | name => "Name"
  | nameAttribute => "Name.Attribute"
  | nameBuiltin => "Name.Builtin"
  | nameBuiltinPseudo => "Name.Builtin.Pseudo"
  | nameClass => "Name.Class"
  | nameConstant => "Name.Constant"
  | nameDecorator => "Name.Decorator"
  | nameEntity => "Name.Entity"
  | nameException => "Name.Exception"
  | nameFunction => "Name.Function"
  | nameLabel => "Name.Label"
  | nameNamespace => "Name.Namespace"
  | nameOther => "Name.Other"
  | namePseudo => "Name.Pseudo"
  | nameTag => "Name.Tag"
  | nameVariable => "Name.Variable"
  | nameVariableClass => "Name.Variable.Class"
  | nameVariableGlobal => "Name.Variable.Global"
  | nameVariableInstance => "Name.Variable.Instance"
  | literal => "Literal"
  | literalDate => "Literal.Date"
  | string => "Literal.String"
  | stringBacktick => "Literal.String.Backtick"
  | stringChar => "Literal.String.Char"
  | stringDoc => "Literal.String.Doc"
  | stringDouble => "Literal.String.Double"
  | stringEscape => "Literal.String.Escape"
  | stringHeredoc => "Literal.String.Heredoc"
  | stringInterpol => "Literal.String.Interpol"
  | stringOther => "Literal.String.Other"
  | stringRegex => "Literal.String.Regex"
  | stringSingle => "Literal.String.Single"
  | stringSymbol => "Literal.String.Symbol"
  | number => "Literal.Number"
  | numberFloat => "Literal.Number.Float"
  | numberHex => "Literal.Number.Hex"
  | numberInteger => "Literal.Number.Integer"
  | numberIntegerLong => "Literal.Number.Integer.Long"
  | numberOct => "Literal.Number.Oct"
  | operator => "Operator"
  | operatorWord => "Operator.Word"
  | punctuation => "Punctuation"
  | comment => "Comment"
  | commentMultiline => "Comment.Multiline"
  | commentPreproc => "Comment.Preproc"
  | commentSingle => "Comment.Single"
  | commentSpecial => "Comment.Special"
  | generic => "Generic"
  | genericDeleted => "Generic.Deleted"
  | genericEmph => "Generic.Emph"
  | genericError => "Generic.Error"
  | genericHeading => "Generic.Heading"
  | genericInserted => "Generic.Inserted"
  | genericOutput => "Generic.Output"
  | genericPrompt => "Generic.Prompt"
  | genericStrong => "Generic.Strong"
  | genericSubheading => "Generic.Subheading"
  | genericTraceback => "Generic.Traceback"

def parent? : Category → Option Category
  | token => none
  | text | error | other | keyword | name | literal | operator | punctuation | comment | generic =>
      some token
  | whitespace => some text
  | keywordConstant | keywordDeclaration | keywordNamespace | keywordPseudo | keywordReserved |
  keywordType =>
      some keyword
  | nameAttribute | nameBuiltin | nameClass | nameConstant | nameDecorator | nameEntity |
  nameException | nameFunction | nameLabel | nameNamespace | nameOther | namePseudo | nameTag
  | nameVariable =>
      some name
  | nameBuiltinPseudo => some nameBuiltin
  | nameVariableClass | nameVariableGlobal | nameVariableInstance => some nameVariable
  | literalDate | string | number => some literal
  | stringBacktick | stringChar | stringDoc | stringDouble | stringEscape | stringHeredoc |
  stringInterpol | stringOther | stringRegex | stringSingle | stringSymbol =>
      some string
  | numberFloat | numberHex | numberInteger | numberOct => some number
  | numberIntegerLong => some numberInteger
  | operatorWord => some operator
  | commentMultiline | commentPreproc | commentSingle | commentSpecial => some comment
  | genericDeleted | genericEmph | genericError | genericHeading | genericInserted |
  genericOutput | genericPrompt | genericStrong | genericSubheading | genericTraceback =>
      some generic

def index (c : Category) : Nat := all.idxOf c

/-- The longest way from a category up to the root. -/
def height : Nat := 4

def chain : (fuel : Nat) → Category → List Category
  | 0, c => [c]
  | fuel + 1, c => c :: (match c.parent? with | none => [] | some p => chain fuel p)

/-- The category, its parent, and so on up to the root. -/
def ancestors (c : Category) : List Category := chain height c

def isA (c ancestor : Category) : Bool := c.ancestors.contains ancestor

/-- The number of steps up to the root. -/
def depth (c : Category) : Nat := c.ancestors.length - 1

/-- Strings and numbers leave out that they are literals. -/
def shortPath (c : Category) : String :=
  if c.isA string || c.isA number then
    match c.path.toList with
    | 'L' :: 'i' :: 't' :: 'e' :: 'r' :: 'a' :: 'l' :: '.' :: rest => String.ofList rest
    | _ => c.path
  else c.path

/-- The path as tokens are printed, from the root down. -/
def fullName (c : Category) : String :=
  if c = token then "Token" else "Token." ++ c.shortPath

/-- The short path run together into one word; white space is named by its last part alone. -/
def identifier (c : Category) : String :=
  if c = whitespace then "Whitespace"
  else String.ofList (c.shortPath.toList.filter (· != '.'))

/-- Reads a path in its full or its short form, with or without the root in front. -/
def ofPath? (text : String) : Option Category :=
  let path := Text.trim text.toList
  if path = [] ∨ path = "Token".toList then some token
  else
    let path := String.ofList (match path with
      | 'T' :: 'o' :: 'k' :: 'e' :: 'n' :: '.' :: rest => rest
      | _ => path)
    all.find? fun c => c.path == path || c.shortPath == path

/-- What there is to say of a path that `ofPath?` does not read. -/
def unknown (path : String) : String := s!"unknown token category '{path}'"

end Category

end RuleLexer
