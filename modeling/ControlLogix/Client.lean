import ControlLogix.Status

/-!
# The Ethernet client (`Client`)

The driver calls `ETH.begin`, `ETH.config`, `ETH.linkUp` and `ETH.hasIP` are inputs.  The configuration `cfg_` is only
handed on to the driver and is left out.
-/

namespace ControlLogix

structure Client where
  started : Bool := false
  ready : Bool := false
  failed : Bool := false
  deriving DecidableEq, Repr

namespace Client

/-- `began` and `configured` are the results of `ETH.begin` and `ETH.config`. -/
def begin (_ : Client) (began configured : Bool) : Status × Client :=
  if ¬ began then (.error, { started := false, ready := false, failed := true })
  else if ¬ configured then (.error, { started := false, ready := false, failed := true })
  else (.pending, { started := true, ready := false, failed := false })

/-- `up` is `ETH.linkUp() && ETH.hasIP()`. -/
def poll (c : Client) (up : Bool) : Status × Client :=
  if c.failed then (.error, c)
  else if ¬ c.started then (.notReady, c)
  else if c.ready then (.ok, c)
  else if up then (.ok, { c with ready := true })
  else (.pending, c)

end Client

end ControlLogix
