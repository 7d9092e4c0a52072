import RuleLexer.Regex.PropertyName
import RuleLexer.Regex.Syntax

/-! Reading a pattern. The reader keeps the open groups and alternations on a stack of frames and
takes one construct per step, so a run over the pattern is a run of a small machine: `step` reads
one construct, `loop` repeats it, `parse` starts with no frame and must end with none. -/
namespace RuleLexer.Regex
open RuleLexer.Unicode

/-- What a reader found, or why it failed. A reader of a prefix of the text also gives the rest. -/
abbrev Reading := Except SyntaxError

/-- Drops blanks and comments, which run from `#` to the end of the line. -/
def dropBlank : (inComment : Bool) → List Char → List Char
  | _, [] => []
  | true, c :: rest => dropBlank (c != '\n') rest
  | false, c :: rest =>
      if isSpace c then dropBlank false rest
      else if c = '#' then dropBlank true rest
      else c :: rest

/-- Blanks and comments do not count in verbose mode. -/
def skip (verbose : Bool) (text : List Char) : List Char :=
  if verbose then dropBlank false text else text

/-- At most `limit` characters of a class, with the blanks between and after them dropped in
verbose mode. -/
def takeRun (verbose : Bool) (p : Char → Bool) :
    (limit : Nat) → (inComment : Bool) → List Char → List Char × List Char
  | _, _, [] => ([], [])
  | limit, true, c :: rest => takeRun verbose p limit (c != '\n') rest
  | limit, false, c :: rest =>
      if verbose && isSpace c then takeRun verbose p limit false rest
      else if verbose && c == '#' then takeRun verbose p limit true rest
      else match limit with
        | limit + 1 =>
            if p c then
              let (taken, after) := takeRun verbose p limit false rest
              (c :: taken, after)
            else ([], c :: rest)
        | 0 => ([], c :: rest)

def isAsciiDigit (c : Char) : Bool := decide ('0' ≤ c ∧ c ≤ '9')

def hexValue? (c : Char) : Option Nat :=
  if '0' ≤ c ∧ c ≤ '9' then some (c.toNat - '0'.toNat)
  else if 'a' ≤ c ∧ c ≤ 'f' then some (c.toNat - 'a'.toNat + 10)
  else if 'A' ≤ c ∧ c ≤ 'F' then some (c.toNat - 'A'.toNat + 10)
  else none

/-- The code point written by hexadecimal digits, none for a surrogate or beyond the last one. -/
def charOfHex? (digits : List Char) : Option Char :=
  let code := digits.foldl (fun n d => n * 16 + (hexValue? d).getD 0) 0
  if code < 0xD800 ∨ (0xDFFF < code ∧ code ≤ 0x10FFFF) then some (Char.ofNat code) else none

/-! Counted repetitions -/

def maxCount : Nat := 4294967295

def readCount (verbose : Bool) (text : List Char) : Reading (Nat × List Char) :=
  let (digits, rest) := takeRun verbose isAsciiDigit text.length false (text.dropWhile isSpace)
  let count := digits.foldl (fun n d => n * 10 + (d.toNat - '0'.toNat)) 0
  if digits.isEmpty || decide (maxCount < count) then .error .repetitionCount
  else .ok (count, rest.dropWhile isSpace)

structure Bounds where
  low : Nat
  high : Option Nat
  lazyMark : Bool
deriving DecidableEq, Repr

def closeBounds (verbose : Bool) (low : Nat) (high : Option Nat) :
    List Char → Reading (Bounds × List Char)
  | '}' :: rest =>
      if high.all (low ≤ ·) then
        match skip verbose rest with
        | '?' :: rest => .ok (⟨low, high, true⟩, rest)
        | rest => .ok (⟨low, high, false⟩, rest)
      else .error .repetitionRange
  | _ => .error .repetitionCount

/-- The bounds after an opening brace. -/
def readBounds (verbose : Bool) (text : List Char) : Reading (Bounds × List Char) := do
  let (low, rest) ← readCount verbose (skip verbose text)
  match rest with
  | ',' :: rest =>
      match skip verbose rest with
      | '}' :: rest => closeBounds verbose low none ('}' :: rest)
      | rest =>
          let (high, rest) ← readCount verbose rest
          closeBounds verbose low (some high) rest
  | rest => closeBounds verbose low (some low) rest

/-! Flags -/

def Flags.set (flags : Flags) (letter : Char) (value : Bool) : Flags :=
  match letter with
  | 'i' => { flags with ignoreCase := value }
  | 'm' => { flags with multiLine := value }
  | 's' => { flags with dotAll := value }
  | 'R' => { flags with crlf := value }
  | 'U' => { flags with swapGreed := value }
  | 'u' => { flags with unicode := value }
  | 'x' => { flags with verbose := value }
  | _ => flags

/-- Letters before a hyphen switch their flag on, letters after it switch it off. -/
def Flags.apply (flags : Flags) (letters : List Char) : Flags :=
  let on := letters.takeWhile (· != '-')
  let off := letters.dropWhile (· != '-')
  off.foldl (fun f c => f.set c false) (on.foldl (fun f c => f.set c true) flags)

def flagLetters : List Char := ['i', 'm', 's', 'R', 'U', 'u', 'x', '-']

/-- The flag letters up to the colon or parenthesis that ends them, which stays in the rest. -/
def readFlags (text : List Char) : Reading (List Char × List Char) :=
  let letters := text.takeWhile fun c => c != ':' && c != ')'
  let rest := text.dropWhile fun c => c != ':' && c != ')'
  if letters.all flagLetters.contains && decide letters.Nodup && letters.getLast? != some '-' &&
      !rest.isEmpty
  then .ok (letters, rest)
  else .error .flag

/-! Escapes -/

/-- One construct that stands for itself, inside brackets or outside. -/
inductive Primitive
  | literal (c : Char) (byte : Bool)
  | set (s : CharSet)
  | look (l : Look)
deriving DecidableEq, Repr

/-- No letter or digit is one. -/
def isMeta (c : Char) : Bool :=
  !c.isAlphanum && "\\.+*?()|[]\x7b\x7d^$#&-~".toList.contains c

/-- A character that may follow a backslash and then stands for itself. -/
def isEscapable (c : Char) : Bool :=
  isMeta c || (decide (c.toNat < 128) && !c.isAlphanum && c != '<' && c != '>')

def asciiWord : CharSet := .ranges [('0', '9'), ('A', 'Z'), ('_', '_'), ('a', 'z')]

def asciiSpace : CharSet := .ranges [('\t', '\r'), (' ', ' ')]

def asciiDigit : CharSet := .range '0' '9'

/-- Without Unicode a complement could match part of a character, so there it is refused. -/
def negateIf (flags : Flags) (negated : Bool) (s : CharSet) : Reading CharSet :=
  if !negated then .ok s else if flags.unicode then .ok (.compl s) else .error .needsUnicode

/-- The classes written by one letter; the capital letter is the complement. -/
def perlSet (flags : Flags) (letter : Char) : Reading CharSet :=
  negateIf flags letter.isUpper <| match letter.toLower with
    | 'd' => if flags.unicode then CharSet.property .digit else asciiDigit
    | 's' => if flags.unicode then .property .space else asciiSpace
    | _ => if flags.unicode then .property .word else asciiWord

def foldCase (flags : Flags) (s : CharSet) : CharSet :=
  if flags.ignoreCase then s.closeCase else s

/-- A name in braces may compare a property with a value by `=`, `:` or `!=`. -/
def namedProperty? (name : List Char) : Option (CharSet × Bool) :=
  let split := fun (at_ : Nat) (width : Nat) =>
    PropertyName.findValue? (name.take at_) (name.drop (at_ + width))
  match (List.range name.length).find? (fun i => ['!', '='].isPrefixOf (name.drop i)) with
  | some i => (split i 2).map (·, true)
  | none =>
      match name.idxOf? ':' with
      | some i => (split i 1).map (·, false)
      | none =>
          match name.idxOf? '=' with
          | some i => (split i 1).map (·, false)
          | none => (PropertyName.find? name).map (·, false)

/-- A property class after `\p` or `\P`. -/
def readProperty (flags : Flags) (negated : Bool) (text : List Char) :
    Reading (CharSet × List Char) := do
  let (found, rest) ← match skip flags.verbose text with
    | '{' :: rest =>
        match takeRun flags.verbose (· != '}') rest.length false rest with
        | (name, '}' :: rest) => .ok (namedProperty? name, rest)
        | _ => .error .escape
    | '\\' :: _ => .error .unicodeProperty
    | c :: rest => .ok ((PropertyName.find? [c]).map (·, false), skip flags.verbose rest)
    | [] => .error .escape
  match found with
  | none => .error .unicodeProperty
  | some (s, differs) =>
      if flags.unicode then .ok (← negateIf flags (negated != differs) (foldCase flags s), rest)
      else .error .needsUnicode

/-- A code point after `\x`, `\u` or `\U`, in braces or as a fixed count of digits. -/
def readHex (flags : Flags) (count : Nat) (text : List Char) : Reading (Primitive × List Char) :=
  let finish := fun (digits : List Char) (byte : Bool) (rest : List Char) =>
    match charOfHex? digits with
    | some c => .ok (.literal c byte, rest)
    | none => .error .codePoint
  let isHex := fun c => (hexValue? c).isSome
  match skip flags.verbose text with
  | '{' :: rest =>
      match takeRun flags.verbose isHex rest.length false rest with
      | (digits, '}' :: rest) =>
          if digits.isEmpty then .error .escape
          else finish digits false (skip flags.verbose rest)
      | _ => .error .escape
  | rest =>
      let (digits, rest) := takeRun flags.verbose isHex count false rest
      if digits.length = count then finish digits (count == 2) rest else .error .escape

/-- After `\b` a name in braces selects one side of a word. Anything in braces that does not start
with a letter or hyphen is a repetition and is left alone. -/
def readWordEdge (flags : Flags) (text : List Char) : Reading (WordEdge × List Char) :=
  let isNameChar := fun (c : Char) => c.isAlpha || c == '-'
  match text with
  | '{' :: inside =>
      match skip flags.verbose inside with
      | [] => .error .escape
      | c :: rest =>
          if isNameChar c then
            match takeRun flags.verbose isNameChar text.length false (c :: rest) with
            | (name, '}' :: rest) =>
                match String.ofList name with
                | "start" => .ok (.start, rest)
                | "end" => .ok (.stop, rest)
                | "start-half" => .ok (.startHalf, rest)
                | "end-half" => .ok (.stopHalf, rest)
                | _ => .error .escape
            | _ => .error .escape
          else .ok (.boundary, text)
  | _ => .ok (.boundary, text)

/-- What a backslash introduces; the text starts after it. -/
def readEscape (flags : Flags) (text : List Char) : Reading (Primitive × List Char) :=
  match text with
  | [] => .error .escape
  | c :: rest =>
      let literal := fun c => .ok (Primitive.literal c false, rest)
      let look := fun l => .ok (Primitive.look l, rest)
      match c with
      | 'x' => readHex flags 2 rest
      | 'u' => readHex flags 4 rest
      | 'U' => readHex flags 8 rest
      | 'p' | 'P' => do
          let (s, rest) ← readProperty flags (c == 'P') rest
          .ok (.set s, rest)
      | 'd' | 's' | 'w' | 'D' | 'S' | 'W' => do .ok (.set (← perlSet flags c), rest)
      | 'a' => literal '\x07'
      | 'f' => literal '\x0C'
      | 't' => literal '\t'
      | 'n' => literal '\n'
      | 'r' => literal '\r'
      | 'v' => literal '\x0B'
      | 'A' => look .textStart
      | 'z' => look .textEnd
      | 'b' => do
          let (edge, rest) ← readWordEdge flags rest
          .ok (.look (.word edge flags.unicode), rest)
      | 'B' => look (.word .interior flags.unicode)
      | '<' => look (.word .start flags.unicode)
      | '>' => look (.word .stop flags.unicode)
      | c =>
          if isEscapable c then literal c
          else if isAsciiDigit c then .error .backreference
          else .error .escape

/-! Bracketed classes -/

/-- Something read and how deep it nests: the most brackets, operators, repetitions, sequences and
alternations that stand inside one another in it. -/
structure Nested (α : Type) where
  value : α
  depth : Nat
deriving DecidableEq, Repr

namespace Nested

def flat {α : Type} (value : α) : Nested α := ⟨value, 0⟩

/-- Parts that stand side by side, the last one first; two or more are one level. -/
def gather {α β : Type} (f : List α → β) : List (Nested α) → Nested β
  | [a] => ⟨f [a.value], a.depth⟩
  | [] => flat (f [])
  | parts => ⟨f (parts.map value).reverse, (parts.map depth).foldl max 0 + 1⟩

end Nested

inductive SetOp
  | inter
  | diff
  | either
deriving DecidableEq, Repr

def SetOp.apply : SetOp → CharSet → CharSet → CharSet
  | inter, a, b => .inter a b
  | diff, a, b => a.diff b
  | either, a, b => .either a b

/-- What an inner bracket or operator interrupted. -/
inductive ClassFrame
  | bracket (outer : List (Nested CharSet)) (negated : Bool)
  | operand (op : SetOp) (left : Nested CharSet)
deriving DecidableEq, Repr

structure ClassReader where
  items : List (Nested CharSet)
  frames : List ClassFrame
  rest : List Char
deriving DecidableEq, Repr

/-- The operand read so far, joined to a pending operator's left operand. -/
def joinOperand (flags : Flags) (items : List (Nested CharSet)) :
    List ClassFrame → Nested CharSet × List ClassFrame
  | .operand op left :: frames =>
      let right := Nested.gather .unions items
      (⟨op.apply (foldCase flags left.value) (foldCase flags right.value),
        max left.depth right.depth + 1⟩, frames)
  | frames => (.gather .unions items, frames)

def leadingHyphens (verbose : Bool) :
    Nat → List Char → List (Nested CharSet) → List (Nested CharSet) × List Char
  | fuel + 1, '-' :: rest, items =>
      leadingHyphens verbose fuel (skip verbose rest) (.flat (.single '-') :: items)
  | _, rest, items => (items, rest)

/-- After an opening bracket: a circumflex negates, hyphens and then a first closing bracket stand
for themselves. -/
def openClass (flags : Flags) (r : ClassReader) (text : List Char) :
    Reading ClassReader :=
  let (negated, rest) := match skip flags.verbose text with
    | '^' :: rest => (true, skip flags.verbose rest)
    | rest => (false, rest)
  let frames := ClassFrame.bracket r.items negated :: r.frames
  match leadingHyphens flags.verbose rest.length rest [] with
  | ([], ']' :: rest) =>
      let rest := skip flags.verbose rest
      if rest.isEmpty then .error .unclosedClass else .ok ⟨[.flat (.single ']')], frames, rest⟩
  | (items, rest) =>
      if rest.isEmpty then .error .unclosedClass else .ok ⟨items, frames, rest⟩

def posixSet? (name : List Char) : Option CharSet :=
  let digits := [('0', '9')]
  let upper := [('A', 'Z')]
  let lower := [('a', 'z')]
  match String.ofList name with
  | "alnum" => some (.ranges (digits ++ upper ++ lower))
  | "alpha" => some (.ranges (upper ++ lower))
  | "ascii" => some (.range '\x00' '\x7F')
  | "blank" => some (.ranges [('\t', '\t'), (' ', ' ')])
  | "cntrl" => some (.ranges [('\x00', '\x1F'), ('\x7F', '\x7F')])
  | "digit" => some (.ranges digits)
  | "graph" => some (.range '!' '~')
  | "lower" => some (.ranges lower)
  | "print" => some (.range ' ' '~')
  | "punct" => some (.ranges [('!', '/'), (':', '@'), ('[', '\x60'), ('\x7b', '~')])
  | "space" => some asciiSpace
  | "upper" => some (.ranges upper)
  | "word" => some asciiWord
  | "xdigit" => some (.ranges (digits ++ [('A', 'F'), ('a', 'f')]))
  | _ => none

/-- A class such as `[:alpha:]`, the text starting after its bracket; none when it is not one and
the bracket opens an ordinary inner class. -/
def posixClass? (flags : Flags) (text : List Char) : Option (Reading CharSet × List Char) :=
  match text with
  | ':' :: rest =>
      let (negated, rest) := match rest with
        | '^' :: rest => (true, rest)
        | rest => (false, rest)
      match rest.dropWhile (· != ':') with
      | ':' :: ']' :: after =>
          (posixSet? (rest.takeWhile (· != ':'))).map fun s =>
            (negateIf flags negated (foldCase flags s), after)
      | _ => none
  | _ => none

/-- The character after a hyphen that decides whether the hyphen makes a range. In verbose mode
blanks before it do not count, nor does one comment mark. -/
def afterHyphen? (verbose : Bool) (text : List Char) : Option Char :=
  if verbose then
    let visible := match text.dropWhile isSpace with
      | '#' :: rest => rest.dropWhile isSpace
      | rest => rest
    visible.head?.or text.head?
  else text.head?

def classPrimitive (flags : Flags) : List Char → Reading (Primitive × List Char)
  | '\\' :: rest => readEscape flags rest
  | c :: rest => .ok (.literal c false, rest)
  | [] => .error .unclosedClass

def classChar (flags : Flags) : Primitive → Reading Char
  | .literal c _ => if flags.unicode || decide (c.toNat < 128) then .ok c else .error .needsUnicode
  | _ => .error .classRange

/-- A single member of a class, or a range of characters. -/
def classItem (flags : Flags) (text : List Char) : Reading (CharSet × List Char) := do
  let (left, rest) ← classPrimitive flags text
  let rest := skip flags.verbose rest
  let alone := match left with
    | .set s => .ok (s, rest)
    | .look _ => .error .classItem
    | left => do .ok (.single (← classChar flags left), rest)
  match rest with
  | [] => .error .unclosedClass
  | '-' :: after =>
      match afterHyphen? flags.verbose after with
      | some ']' | some '-' => alone
      | _ =>
          match skip flags.verbose after with
          | [] => .error .unclosedClass
          | after => do
              let (right, rest) ← classPrimitive flags after
              let first ← classChar flags left
              let last ← classChar flags right
              if first ≤ last then .ok (.range first last, rest) else .error .classRange
  | _ => alone

/-- A finished class, or a reader that goes on. -/
inductive ClassStep
  | done (s : Nested CharSet) (rest : List Char)
  | more (r : ClassReader)
deriving DecidableEq, Repr

def classOperator (flags : Flags) (r : ClassReader) (op : SetOp) (rest : List Char) :
    ClassStep :=
  let (left, frames) := joinOperand flags r.items r.frames
  .more ⟨[], .operand op left :: frames, rest⟩

def closeClass (flags : Flags) (r : ClassReader) (rest : List Char) : Reading ClassStep :=
  match joinOperand flags r.items r.frames with
  | (s, .bracket outer negated :: frames) => do
      let s := ⟨← negateIf flags negated (foldCase flags s.value), s.depth + 1⟩
      if frames.isEmpty then .ok (.done s rest) else .ok (.more ⟨s :: outer, frames, rest⟩)
  | (s, _) => .ok (.done s rest)

def classStep (flags : Flags) (r : ClassReader) : Reading ClassStep :=
  match skip flags.verbose r.rest with
  | [] => .error .unclosedClass
  | '[' :: rest =>
      match posixClass? flags rest with
      | some (s, rest) => do .ok (.more { r with items := .flat (← s) :: r.items, rest })
      | none => (openClass flags r rest).map .more
  | ']' :: rest => closeClass flags r rest
  | '&' :: '&' :: rest => .ok (classOperator flags r .inter rest)
  | '-' :: '-' :: rest => .ok (classOperator flags r .diff rest)
  | '~' :: '~' :: rest => .ok (classOperator flags r .either rest)
  | text => do
      let (s, rest) ← classItem flags text
      .ok (.more { r with items := .flat s :: r.items, rest })

def classLoop (flags : Flags) : (fuel : Nat) → ClassReader → Reading (Nested CharSet × List Char)
  | 0, _ => .error .unclosedClass
  | fuel + 1, r => do
      match ← classStep flags r with
      | .done s rest => .ok (s, rest)
      | .more r => classLoop flags fuel r

/-- A bracketed class; the text starts after its bracket. Every step consumes a character, so the
length of the text bounds their number. Without Unicode no letter beyond ASCII counts as the other
case of one within. -/
def readClass (flags : Flags) (text : List Char) : Reading (Nested CharSet × List Char) := do
  let r ← openClass flags ⟨[], [], text⟩ text
  let (s, rest) ← classLoop flags (text.length + 1) r
  .ok (if flags.unicode then s else ⟨.inter s.value (.property .ascii), s.depth⟩, rest)

/-! The machine -/

/-- A part of a sequence. A flag directive is a part that nothing can repeat. -/
inductive Item
  | directive
  | tree (a : Ast)
deriving DecidableEq, Repr

/-- How a closed group is put into the tree around it. -/
inductive GroupKind
  | scope
  | capture (index : Nat) (name : Option (List Char))
deriving DecidableEq, Repr

def GroupKind.wrap : GroupKind → Ast → Ast
  | scope, a => .scope a
  | capture index name, a => .group index name a

inductive Frame
  | group (outer : List (Nested Item)) (flags : Flags) (kind : GroupKind)
  | branches (before : List (Nested Ast))
deriving DecidableEq, Repr

structure Parser where
  rest : List Char
  flags : Flags
  items : List (Nested Item)
  frames : List Frame
  groups : Nat
  names : List (List Char)
deriving DecidableEq, Repr

def sequence : List (Nested Item) → Nested Ast :=
  .gather fun items => .seqs <| items.filterMap fun
    | .directive => none
    | .tree a => some a

/-- The sequence or alternation read since the last group was opened. -/
def closeBranches (items : List (Nested Item)) : List Frame → Nested Ast × List Frame
  | .branches before :: frames => (.gather .alts (sequence items :: before), frames)
  | frames => (sequence items, frames)

/-- The first clause decides what is ASCII without reading a table. -/
def isNameChar (first : Bool) (c : Char) : Bool :=
  if c.toNat < 128 then
    c == '_' || c.isAlpha || (!first && (c == '.' || c == '[' || c == ']' || c.isDigit))
  else Property.alphabetic.mem c || (!first && Property.numbers.any (·.contains c))

def validName (name : List Char) : Bool :=
  match name with
  | [] => false
  | c :: rest => isNameChar true c && rest.all (isNameChar false)

def openGroup (p : Parser) (kind : GroupKind) (flags : Flags) (rest : List Char) : Parser :=
  { p with rest, flags, items := [], frames := .group p.items p.flags kind :: p.frames }

def openNamed (p : Parser) (text : List Char) : Reading Parser :=
  let name := text.takeWhile (· != '>')
  match text.dropWhile (· != '>') with
  | '>' :: rest =>
      if !validName name then .error .groupName
      else if p.names.contains name then .error .duplicateGroupName
      else
        let index := p.groups + 1
        let p := { p with groups := index, names := name :: p.names }
        .ok (openGroup p (.capture index (some name)) p.flags rest)
  | _ => .error .groupName

/-- What an opening parenthesis introduces; the text starts after it. -/
def readGroup (p : Parser) (text : List Char) : Reading Parser :=
  match skip p.flags.verbose text with
  | '?' :: '=' :: _ | '?' :: '!' :: _ | '?' :: '<' :: '=' :: _ | '?' :: '<' :: '!' :: _ =>
      .error .unsupportedLookaround
  | '?' :: 'P' :: '<' :: rest => openNamed p rest
  | '?' :: '<' :: rest => openNamed p rest
  | '?' :: rest => do
      match ← readFlags rest with
      | ([], ')' :: _) => .error .nothingToRepeat
      | (letters, ')' :: rest) =>
          .ok { p with rest, flags := p.flags.apply letters, items := .flat .directive :: p.items }
      | (letters, rest) => .ok (openGroup p .scope (p.flags.apply letters) (rest.drop 1))
  | rest =>
      let index := p.groups + 1
      .ok (openGroup { p with groups := index } (.capture index none) p.flags rest)

def closeGroup (p : Parser) (rest : List Char) : Reading Parser :=
  match closeBranches p.items p.frames with
  | (tree, .group outer flags kind :: frames) =>
      let item := ⟨.tree (kind.wrap tree.value), tree.depth + 1⟩
      .ok { p with rest, flags, frames, items := item :: outer }
  | _ => .error .unopenedGroup

def addBranch (p : Parser) (rest : List Char) : Parser :=
  match p.frames with
  | .branches before :: frames =>
      { p with rest, items := [], frames := .branches (sequence p.items :: before) :: frames }
  | frames => { p with rest, items := [], frames := .branches [sequence p.items] :: frames }

def repeatLast (p : Parser) (low : Nat) (high : Option Nat) (lazyMark : Bool)
    (rest : List Char) : Reading Parser :=
  match p.items with
  | ⟨.tree a, depth⟩ :: items =>
      let greedy := lazyMark == p.flags.swapGreed
      .ok { p with rest, items := ⟨.tree (.repeated low high greedy a), depth + 1⟩ :: items }
  | _ => .error .nothingToRepeat

/-- A repetition mark of one character and the question mark that may follow it at once. -/
def repeatMark (p : Parser) (low : Nat) (high : Option Nat) :
    List Char → Reading Parser
  | '?' :: rest => repeatLast p low high true rest
  | rest => repeatLast p low high false rest

def literalSet (flags : Flags) (c : Char) (byte : Bool) : Reading CharSet :=
  let cased := flags.ignoreCase && !(caseVariants c).isEmpty
  if flags.unicode then .ok (if cased then .upToCase (.single c) else .single c)
  else if byte && decide (128 ≤ c.toNat) then .error .needsUnicode
  else if cased && decide (c.toNat < 128) then
    .ok (.inter (.upToCase (.single c)) (.property .ascii))
  else .ok (.single c)

def dotSet (flags : Flags) : Reading CharSet :=
  if !flags.unicode then .error .needsUnicode
  else if flags.dotAll then .ok .all
  else if flags.crlf then .ok (.compl (.union (.single '\r') (.single '\n')))
  else .ok (.compl (.single '\n'))

def lineStart (flags : Flags) : Look :=
  if flags.multiLine then if flags.crlf then .crlfLineStart else .lineStart else .textStart

def lineEnd (flags : Flags) : Look :=
  if flags.multiLine then if flags.crlf then .crlfLineEnd else .lineEnd else .textEnd

def addTree (p : Parser) (a : Ast) (rest : List Char) : Parser :=
  { p with rest, items := .flat (.tree a) :: p.items }

/-- Reads the construct that `text` starts with. -/
def step (p : Parser) : List Char → Reading Parser
  | '(' :: rest => readGroup p rest
  | ')' :: rest => closeGroup p rest
  | '|' :: rest => .ok (addBranch p rest)
  | '[' :: rest => do
      let (s, rest) ← readClass p.flags rest
      .ok { p with rest, items := ⟨.tree (.set s.value), s.depth⟩ :: p.items }
  | '?' :: rest => repeatMark p 0 (some 1) rest
  | '*' :: rest => repeatMark p 0 none rest
  | '+' :: rest => repeatMark p 1 none rest
  | '{' :: rest => do
      let (bounds, rest) ← readBounds p.flags.verbose rest
      repeatLast p bounds.low bounds.high bounds.lazyMark rest
  | '.' :: rest => do .ok (addTree p (.set (← dotSet p.flags)) rest)
  | '^' :: rest => .ok (addTree p (.look (lineStart p.flags)) rest)
  | '$' :: rest => .ok (addTree p (.look (lineEnd p.flags)) rest)
  | '\\' :: rest => do
      match ← readEscape p.flags rest with
      | (.literal c byte, rest) => .ok (addTree p (.set (← literalSet p.flags c byte)) rest)
      | (.set s, rest) => .ok (addTree p (.set s) rest)
      | (.look l, rest) => .ok (addTree p (.look l) rest)
  | c :: rest => do .ok (addTree p (.set (← literalSet p.flags c false)) rest)
  | [] => .ok p

def maxNesting : Nat := 250

def finish (p : Parser) : Reading Ast :=
  match closeBranches p.items p.frames with
  | (tree, []) => if tree.depth ≤ maxNesting then .ok tree.value else .error .nestedTooDeeply
  | _ => .error .unclosedGroup

def loop : (fuel : Nat) → Parser → Reading Ast
  | 0, p => finish p
  | fuel + 1, p =>
      match skip p.flags.verbose p.rest with
      | [] => finish p
      | text => do loop fuel (← step p text)

/-- Every step consumes a character, so the length of the pattern bounds their number. -/
def parse (pattern : List Char) : Reading Ast :=
  loop (pattern.length + 1) ⟨pattern, {}, [], [], 0, []⟩

end RuleLexer.Regex
