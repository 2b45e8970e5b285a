import Mathlib.Algebra.Group.Nat.Defs
import Mathlib.Data.List.Basic

/-!
# Status values, error numbers and the clock

The result status shared by all classes (`Status.h`), the `errno` values the socket layer reports, and the deadline
test of every `poll()`, which reads the clock modulo `2^32` and looks at the sign of a difference.
-/

namespace ControlLogix

/-- `enum class Status : int8_t`. -/
inductive Status where
  | pending
  | ok
  | busy
  | wouldBlock
  | closed
  | timeout
  | notReady
  | noMemory
  | invalidArg
  | error
  deriving DecidableEq, Repr

/-- The number a status is cast to; failures are negative. -/
def Status.toInt : Status → Int
  | .pending => 0
  | .ok => 1
  | .busy => 2
  | .wouldBlock => 3
  | .closed => -1
  | .timeout => -2
  | .notReady => -3
  | .noMemory => -4
  | .invalidArg => -5
  | .error => -6

inductive Errno where
  | ewouldblock
  | eagain
  | epipe
  | econnreset
  | einprogress
  | other (n : Nat)
  deriving DecidableEq, Repr

/-- The test `(int32_t)(millis() - deadline) >= 0`. -/
def expired (now deadline : UInt32) : Bool := (now - deadline).toNat < 2 ^ 31

end ControlLogix
