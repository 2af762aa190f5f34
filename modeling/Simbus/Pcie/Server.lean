import Simbus.BusClock
import Simbus.Message

/-!
# The PCIe protocol of the server

`PCIeTLP`: every signal of one end goes to the other end as it is; only the
trace checks its width.
-/

namespace Simbus.Pcie

open FourValued

/-- The signals that the root complex drives. -/
def masterSignals : List String :=
  ["user_reset", "user_lnk_up", "tx_buf_av", "m_axis_rx_tdata",
    "m_axis_rx_tkeep", "m_axis_rx_tlast", "m_axis_rx_tvalid",
    "s_axis_tx_tready"]

/-- The signals that the endpoint drives. -/
def slaveSignals : List String :=
  ["m_axis_rx_tready", "s_axis_tx_tdata", "s_axis_tx_tkeep",
    "s_axis_tx_tlast", "s_axis_tx_tvalid", "s_axis_tx_tuser"]

/-- The protocol object. -/
structure PCIeTLP where
  clock : BusClock

namespace PCIeTLP

/-- The constructor. -/
def make (options : ClockOptions) : Option PCIeTLP :=
  (BusClock.make options).map fun clock => { clock := clock }

/-- The tokens for some signals that one end has reported. -/
def passOn
    (names : List String)
    (reported : SignalMap String) : Tokens String :=
  names.map fun name => (name, vectorText (reported name))

/-- The vectors of both ends can be traced. -/
def CanTrace (master slave : SignalMap String) : Prop :=
  (∀ name ∈ masterSignals, Traced (master name).length) ∧
    ∀ name ∈ slaveSignals, Traced (slave name).length

instance (master slave : SignalMap String) : Decidable (CanTrace master slave) :=
  inferInstanceAs (Decidable ((∀ _ ∈ _, _) ∧ ∀ _ ∈ _, _))

/--
`run_run`.  The root complex also gets the one signal of `run_init` that
nobody drives.
-/
def runRun
    (proto : PCIeTLP)
    (master slave : SignalMap String) :
    Option (PCIeTLP × Tokens String × Tokens String) :=
  let clock := proto.clock.advanceBusClock
  if CanTrace master slave then
    some
      ({ proto with clock := clock },
        ("user_clk", [clock.busClk]) ::
          ("s_axis_tx_user", List.replicate 22 .x) ::
            passOn slaveSignals slave,
        ("user_clk", [clock.busClk]) :: passOn masterSignals master)
  else
    none

end PCIeTLP

end Simbus.Pcie
