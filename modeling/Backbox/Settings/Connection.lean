import Backbox.Settings.AttemptLimit

/-!
# Settings of a connection

Where a peer is and how persistently it is connected to. Times are kept in whole
milliseconds of 64 bits; a connect timeout of zero stands for no timeout.
-/

namespace Backbox

/-- A length of time, in nanoseconds. -/
structure Duration where
  nanoseconds : Nat
  deriving DecidableEq

namespace Duration

/-- So many whole seconds and so many nanoseconds more. -/
def ofParts (seconds nanoseconds : Nat) : Duration := ⟨seconds * 1000000000 + nanoseconds⟩

/-- So many milliseconds. -/
def ofMilliseconds (ms : Nat) : Duration := ⟨ms * 1000000⟩

/-- The whole seconds of a length of time. -/
def seconds (d : Duration) : Nat := d.nanoseconds / 1000000000

/-- The nanoseconds beyond the whole seconds. -/
def subsecond (d : Duration) : Nat := d.nanoseconds % 1000000000

/-- The largest number of milliseconds that settings hold. -/
def maxMilliseconds : Nat := 18446744073709551615

/-- The whole milliseconds of a length of time, or the largest number that settings
hold. -/
def milliseconds (d : Duration) : UInt64 :=
  UInt64.ofNat (min (d.nanoseconds / 1000000) maxMilliseconds)

end Duration

/-- Settings of a connection to a peer. -/
structure ConnectionSettings where
  host : String
  port : UInt16
  attempts : AttemptLimit
  /-- Whether failing to reach the peer or losing it ends the host's run. -/
  required : Bool
  connectTimeoutMs : UInt64
  retryDelayMs : UInt64
  deriving DecidableEq

namespace ConnectionSettings

/-- The port of a connection that names none. -/
def defaultPort : UInt16 := 5050

/-- The connect timeout of a connection that names none, in milliseconds. -/
def defaultConnectTimeoutMs : UInt64 := 5000

/-- The retry delay of a connection that names none, in milliseconds. -/
def defaultRetryDelayMs : UInt64 := 0

/-- Settings with everything but the host left at its default. -/
def ofHost (host : String) : ConnectionSettings :=
  ⟨host, defaultPort, .unbounded, false, defaultConnectTimeoutMs, defaultRetryDelayMs⟩

/-- Sets the bound on each connect attempt. -/
def withConnectTimeout (s : ConnectionSettings) (d : Duration) : ConnectionSettings :=
  { s with connectTimeoutMs := d.milliseconds }

/-- Sets the time that must pass between a failed attempt and the next one. -/
def withRetryDelay (s : ConnectionSettings) (d : Duration) : ConnectionSettings :=
  { s with retryDelayMs := d.milliseconds }

/-- The bound on each connect attempt; zero milliseconds stand for none. -/
def connectTimeout (s : ConnectionSettings) : Option Duration :=
  if s.connectTimeoutMs = 0 then none
  else some (.ofMilliseconds s.connectTimeoutMs.toNat)

/-- The time that must pass between a failed attempt and the next one. -/
def retryDelay (s : ConnectionSettings) : Duration := .ofMilliseconds s.retryDelayMs.toNat

/-- The address of the peer as text. -/
def endpoint (s : ConnectionSettings) : String := s.host ++ ":" ++ toString s.port.toNat

end ConnectionSettings

end Backbox
