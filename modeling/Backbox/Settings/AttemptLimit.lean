/-!
# Attempt limits

How many connect attempts may fail in a row before a connection is given up. Written as
an integer, `-1` stands for no limit and a count stands for itself.
-/

namespace Backbox

/-- A limit on consecutive connect attempts. -/
inductive AttemptLimit where
  | unbounded
  | bounded (count : UInt32)
  deriving DecidableEq

/-- Where nothing is told, there is no limit. -/
instance : Inhabited AttemptLimit := ⟨.unbounded⟩

/-- An integer that is no attempt limit. -/
structure AttemptLimitFault where
  value : Int
  deriving DecidableEq

/-- The text of the fault. -/
def AttemptLimitFault.message (fault : AttemptLimitFault) : String :=
  s!"connection_attempts must be -1 or a non-negative count, got {fault.value}"

namespace AttemptLimit

/-- The largest count. -/
def maxCount : Nat := 4294967295

/-- The limit that an integer stands for. -/
def ofInt (value : Int) : Except AttemptLimitFault AttemptLimit :=
  if value = -1 then .ok unbounded
  else if 0 ≤ value ∧ value ≤ maxCount then .ok (bounded (UInt32.ofNat value.toNat))
  else .error ⟨value⟩

/-- The integer that stands for a limit. -/
def toInt : AttemptLimit → Int
  | unbounded => -1
  | bounded count => count.toNat

/-- The limit as text for a reader. -/
def label : AttemptLimit → String
  | unbounded => "unbounded"
  | bounded count => toString count.toNat

/-- Whether no attempt is left after this many. -/
def isExhausted (limit : AttemptLimit) (attemptsMade : Nat) : Bool :=
  match limit with
  | unbounded => false
  | bounded count => count.toNat ≤ attemptsMade

end AttemptLimit

end Backbox
