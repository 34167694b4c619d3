import Backbox.Engine.Request

/-!
# Attempts that are answered afterwards

An engine asks its connector in the middle of a step whether an attempt opens a session. To
answer from outside, a step is run with a record of the answers that are known; an attempt
beyond the record fails. Once that attempt is answered, the record grows and the step is run
again from the same engine, until no attempt is beyond the record.
-/

namespace Backbox.Probe

/-- The connector that answers attempts from a record, by their number. -/
def recorded (answers : Array Bool) : Connector := fun dials _ _ =>
  answers.getD dials.length false

/-- An engine whose attempts are answered from a record. -/
def answering (e : Engine) (answers : Array Bool) : Engine :=
  { e with
    connector := recorded answers
    registry := e.registry.map fun c => { c with connector := recorded answers } }

/-- The first attempt that an engine made beyond a record. -/
def unanswered? (e : Engine) (answers : Array Bool) : Option Dial :=
  e.history.dials.reverse[answers.size]?

end Backbox.Probe
