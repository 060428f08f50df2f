/-!
# Logging

* `Log`: the level of the log, once it is set up;
* `Log.setUp`: the log after one more demand;
* `Log.passed`: what the log writes.
-/

namespace Stencil

inductive Level where
  | debug
  | warning
  deriving DecidableEq, Repr

def Level.name : Level → String
  | .debug => "DEBUG"
  | .warning => "WARNING"

/-- A log has no level and no handler until it is set up. -/
structure Log where
  level? : Option Level
  handlers : Nat
  deriving DecidableEq, Repr

namespace Log

def name : String := "simple_templates"

def fresh : Log := ⟨none, 0⟩

/-- Whether lines for finding faults are wanted: by the caller, or by a setting of the
environment that is not empty. -/
def wants (debug : Bool) (setting? : Option String) : Bool :=
  debug || (setting?.getD "") != ""

/-- The first demand sets the level and puts up the only handler; later ones can only lower the
level that is let through. -/
def setUp (log : Log) (debug : Bool) (setting? : Option String) : Log :=
  let wanted := wants debug setting?
  match log.level? with
  | none => ⟨some (if wanted then .debug else .warning), max log.handlers 1⟩
  | some level => { log with level? := some (if wanted then .debug else level) }

def isDebug (log : Log) : Bool := log.level? == some .debug

/-- What becomes of lines for finding faults: if they are let through, each of them is written once
by every handler. -/
def passed {α : Type} (log : Log) (lines : List α) : List α :=
  if log.isDebug then lines.flatMap (List.replicate log.handlers) else []

def debugLine (text : String) : String := s!"[DEBUG] {text}\n"

end Log

end Stencil
