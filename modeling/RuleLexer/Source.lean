import RuleLexer.Log.Event
import RuleLexer.Text.Utf8

/-! Texts from files. A file is read when it is not too large and its bytes are text; a mark at the
start that says so can be left out. -/
namespace RuleLexer
open RuleLexer.Log RuleLexer.Text

/-- Why the system refuses a file. -/
inductive ReadFailure
  | denied
  | other (reason : String)
deriving DecidableEq, Repr

inductive SourceError
  | notFound (path : String)
  | invalidPath (path : String)
  | tooLarge (size : Nat)
  | denied (path : String)
  | invalidEncoding (path : String) (validUpTo : Nat)
  | failed (path reason : String)
deriving DecidableEq, Repr

/-- What a path leads to. -/
inductive Place
  | missing
  | notFile
  /-- A file whose full path cannot be had. -/
  | unresolved (failure : ReadFailure)
  /-- A file under its full path, whose size cannot be had. -/
  | unmeasured (path : String) (failure : ReadFailure)
  /-- A file under its full path. Nobody looks at the content of a file that is too large. -/
  | file (path : String) (size : Nat) (content : Except ReadFailure ByteArray)

structure Source where
  path : String
  text : String
  /-- Of the file, in bytes. -/
  size : Nat
  /-- A mark was left out. -/
  hadMark : Bool
deriving DecidableEq, Repr

namespace Source

def maxSize : Nat := 10485760

/-- Files over this size count as large. -/
def largeSize : Nat := 1048576

def isLarge (size : Nat) : Bool := decide (largeSize < size)

end Source

namespace SourceError

def message : SourceError → String
  | notFound path => s!"File not found: {path}"
  | invalidPath path => s!"Invalid file path: {path}"
  | tooLarge size => s!"File too large: {size} bytes (max: {Source.maxSize})"
  | denied path => s!"Permission denied: {path}"
  | invalidEncoding path validUpTo =>
      s!"Invalid UTF-8 encoding in file: {path} (first bad byte at {validUpTo})"
  | failed path reason => s!"I/O error reading file: '{path}': {reason}"

def code : SourceError → Code
  | notFound _ => .fileNotFound
  | invalidPath _ => .invalidPath
  | tooLarge _ => .fileTooLarge
  | denied _ => .permissionDenied
  | invalidEncoding _ _ => .invalidEncoding
  | failed _ _ => .ioFailure

def ofFailure (path : String) : ReadFailure → SourceError
  | .denied => denied path
  | .other reason => failed path reason

end SourceError

namespace Source

/-- How to read. -/
structure Reading where
  stripMark : Bool := true
  /-- The milliseconds that reading took, where they are to be reported. -/
  duration? : Option String := none

def mark : Char := '\uFEFF'

/-- The text without a mark at its start, and whether there was one. -/
def withoutMark (strip : Bool) (text : String) : String × Bool :=
  match strip, text.toList with
  | true, c :: rest => if c = mark then (String.ofList rest, true) else (text, false)
  | _, _ => (text, false)

def sizedEvent (size : Nat) : Event :=
  (Event.debug .plainDebug "File metadata collected").withContexts
    [("size_bytes", toString size), ("is_large_file", toString (isLarge size))]

def loadedEvent (duration? : Option String) (asked : String) (s : Source) : Event :=
  let e := (Event.success .sourceLoaded "Source file loaded").withContexts
    [("file", asked), ("size_bytes", toString s.size)]
  match duration? with
  | none => e
  | some duration =>
      e.withContexts [("duration_ms", duration), ("is_large_file", toString (isLarge s.size)),
        ("bom_stripped", toString s.hadMark)]

/-- An error, and the event that reports it. -/
def refuse (e : SourceError) (message : String) (context : List (String × String)) :
    Except SourceError Source × List Event :=
  (.error e, [(Event.error e.code message).withContexts context])

/-- An error of the system, and its report, which names the file that was asked for under a key. -/
def refuseFailure (failure : ReadFailure) (path message key asked : String) :
    Except SourceError Source × List Event :=
  let e := SourceError.ofFailure path failure
  refuse e message [(key, asked), ("error", e.message)]

/-- Reads what the bytes of a file say. -/
def ofBytes (reading : Reading) (asked path : String) (size : Nat) (bytes : ByteArray) :
    Except SourceError Source × List Event :=
  match Utf8.decode bytes with
  | .error offset =>
      let e := SourceError.invalidEncoding path offset
      (.error e, [((Event.error e.code "Invalid UTF-8 encoding in file").about
        ⟨offset, offset + 1⟩).withContext "file" asked])
  | .ok text =>
      let (text, hadMark) := withoutMark reading.stripMark text
      let s : Source := { path, text, size, hadMark }
      (.ok s, [loadedEvent reading.duration? asked s])

/-- Reads a file of a size that is not too large. -/
def ofContent (reading : Reading) (asked path : String) (size : Nat) :
    Except ReadFailure ByteArray → Except SourceError Source × List Event
  | .error failure => refuseFailure failure path "I/O error reading file" "file" asked
  | .ok bytes => ofBytes reading asked path size bytes

/-- Reads the file at a path, and reports on it. -/
def read (reading : Reading) (asked : String) (place : Place) :
    Except SourceError Source × List Event :=
  if asked.isEmpty then refuse (.invalidPath asked) "Empty file path provided" []
  else
    match place with
    | .missing => refuse (.notFound asked) "File not found" [("path", asked)]
    | .notFile => refuse (.invalidPath asked) "Path is not a file" [("path", asked)]
    | .unresolved failure =>
        refuseFailure failure asked "Failed to canonicalize path" "path" asked
    | .unmeasured path failure =>
        refuseFailure failure path "Failed to read file metadata" "file" asked
    | .file path size content =>
        if maxSize < size then
          refuse (.tooLarge size) "File exceeds compile-time maximum size limit"
            [("file", asked), ("size_bytes", toString size), ("limit_bytes", toString maxSize)]
        else
          let (result, events) := ofContent reading asked path size content
          (result, sizedEvent size :: events)

end Source

end RuleLexer
