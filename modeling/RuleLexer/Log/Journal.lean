import RuleLexer.Log.Event

/-! The log of one line of work. Events carry the path of the source that is being worked on, from
where it is set to where it is cleared. -/
namespace RuleLexer.Log

inductive Activity
  | log (e : Event)
  | setSource (path : String)
  | clearSource
  /-- Sets the source, does what is inside, and clears the source. -/
  | within (path : String) (body : List Activity)

structure Journal where
  source? : Option String := none
  /-- Latest first. -/
  latest : List Event := []
deriving Repr

namespace Journal

def events (j : Journal) : List Event := j.latest.reverse

def log (j : Journal) (e : Event) : Journal :=
  let e := match j.source? with
    | none => e
    | some path => e.withContext "source" path
  { j with latest := e :: j.latest }

def logAll (j : Journal) (events : List Event) : Journal := events.foldl log j

def setSource (j : Journal) (path : String) : Journal := { j with source? := some path }

def clearSource (j : Journal) : Journal := { j with source? := none }

mutual

def perform (j : Journal) : Activity → Journal
  | .log e => j.log e
  | .setSource path => j.setSource path
  | .clearSource => j.clearSource
  | .within path body => (performAll (j.setSource path) body).clearSource

def performAll (j : Journal) : List Activity → Journal
  | [] => j
  | a :: rest => performAll (j.perform a) rest

end

end Journal

end RuleLexer.Log
