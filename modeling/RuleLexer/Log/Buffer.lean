import RuleLexer.Log.Event

/-! Logs in memory. A buffer keeps the newest events up to a fixed number; a service lets through
what its threshold lets pass and hands it to a buffer. -/
namespace RuleLexer.Log

structure Buffer where
  newest : List Event := []
deriving Repr

namespace Buffer

def capacity : Nat := 1000

/-- The oldest event gives way when the buffer is full. -/
def add (b : Buffer) (e : Event) : Buffer := ⟨(e :: b.newest).take capacity⟩

/-- Oldest first. -/
def events (b : Buffer) : List Event := b.newest.reverse

def size (b : Buffer) : Nat := b.newest.length

def ofLevel (b : Buffer) (level : Level) : List Event :=
  b.events.filter fun e => decide (e.level = level)

def withCode (b : Buffer) (code : Code) : List Event :=
  b.events.filter fun e => decide (e.code = code)

def has (b : Buffer) (level : Level) (code : Code) : Bool :=
  b.newest.any fun e => decide (e.level = level ∧ e.code = code)

end Buffer

structure Summary where
  total : Nat
  errors : Nat
  warnings : Nat
  infos : Nat
  debugs : Nat
deriving DecidableEq, Repr

namespace Summary

def ofBuffer (b : Buffer) : Summary :=
  ⟨b.size, (b.ofLevel .error).length, (b.ofLevel .warning).length, (b.ofLevel .info).length,
    (b.ofLevel .debug).length⟩

def hasErrors (s : Summary) : Bool := decide (0 < s.errors)

def hasWarnings (s : Summary) : Bool := decide (0 < s.warnings)

end Summary

structure Service where
  threshold : Level
  buffer : Buffer := {}
deriving Repr

namespace Service

def log (s : Service) (e : Event) : Service :=
  if e.level.passes s.threshold then { s with buffer := s.buffer.add e } else s

def clear (s : Service) : Service := { s with buffer := {} }

end Service

end RuleLexer.Log
