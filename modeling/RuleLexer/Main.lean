import RuleLexer.CommandLine.Outcome
import RuleLexer.CommandLine.Usage
import Std.Time.DateTime.Timestamp

/-! The program: looks at the command line, the environment and the file, and writes the outcome. -/
namespace RuleLexer.CommandLine

def now : IO Log.Timestamp := do
  let t ← Std.Time.Timestamp.now
  let nanoseconds := t.toNanosecondsSinceUnixEpoch.toInt.toNat
  pure ⟨nanoseconds / 1000000000, nanoseconds % 1000000000⟩

def attempt {α : Type} (action : IO α) : IO (Except ReadFailure α) := do
  try
    pure (.ok (← action))
  catch
    | .permissionDenied .. => pure (.error .denied)
    | e => pure (.error (.other e.toString))

/-- A file that is too large is not read. -/
def content (file : String) (size : Nat) : IO (Except ReadFailure ByteArray) :=
  if Source.maxSize < size then pure (.ok .empty) else attempt (IO.FS.readBinFile file)

def lookUp (file : String) : IO Place := do
  let entry : IO.FS.DirEntry := { root := ".", fileName := file }
  match ← attempt entry.path.metadata with
  | .error _ => pure .missing
  | .ok data =>
      if data.type != .file then pure .notFile
      else
        match ← attempt (IO.FS.realPath file) with
        | .error failure => pure (.unresolved failure)
        | .ok path =>
            match ← attempt path.metadata with
            | .error failure => pure (.unmeasured path.toString failure)
            | .ok data =>
                let size := data.byteSize.toNat
                pure (.file path.toString size (← content path.toString size))

/-- Milliseconds with two decimal places. -/
def milliseconds (nanoseconds : Nat) : String :=
  let hundredths := nanoseconds / 10000
  s!"{hundredths / 100}.{Log.padded 2 (hundredths % 100)}"

def environment : IO Preferences := do
  let values ← Preferences.names.mapM fun name => do pure (name, ← IO.getEnv name)
  pure (Preferences.ofEnvironment fun name => (values.lookup name).join)

def work (request : Request) : IO UInt32 := do
  let preferences ← environment
  let start ← IO.monoNanosNow
  let place ← lookUp request.file
  let stop ← IO.monoNanosNow
  let outcome := request.outcome preferences (milliseconds (stop - start)) place
  for d in outcome.stderr do
    IO.eprintln (d.text preferences.structured (← now))
  IO.print outcome.stdout
  pure outcome.exit.toUInt32

end RuleLexer.CommandLine

open RuleLexer.CommandLine in
def main (arguments : List String) : IO UInt32 := do
  match Request.ofArguments arguments with
  | .ok request => work request
  | .error .wrong => do IO.eprintln Refusal.wrong.text; pure Refusal.wrong.exit.toUInt32
  | .error refusal => do IO.println refusal.text; pure refusal.exit.toUInt32
