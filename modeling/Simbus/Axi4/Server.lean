import Simbus.Axi4.Protocol
import Simbus.BusClock
import Simbus.Message

/-!
# The AXI4 protocol object of the server

`AXI4Protocol` with its clock and with the signals under their names.  The
widths come from the options of the bus, which the HELLOs of its clients set.
-/

namespace Simbus.Axi4

open FourValued

/-! ## Names -/

/-- The name of a signal in the READY of the master. -/
def MasterSignal.name : MasterSignal → String
  | .aresetN => "ARESETn"
  | .awvalid => "AWVALID"
  | .awaddr => "AWADDR"
  | .awlen => "AWLEN"
  | .awsize => "AWSIZE"
  | .awburst => "AWBURST"
  | .awlock => "AWLOCK"
  | .awcache => "AWCACHE"
  | .awprot => "AWPROT"
  | .awqos => "AWQOS"
  | .awid => "AWID"
  | .wvalid => "WVALID"
  | .wdata => "WDATA"
  | .wstrb => "WSTRB"
  | .bready => "BREADY"
  | .arvalid => "ARVALID"
  | .araddr => "ARADDR"
  | .arlen => "ARLEN"
  | .arsize => "ARSIZE"
  | .arburst => "ARBURST"
  | .arlock => "ARLOCK"
  | .arcache => "ARCACHE"
  | .arprot => "ARPROT"
  | .arqos => "ARQOS"
  | .arid => "ARID"
  | .rready => "RREADY"

/-- The name of a signal in the READY of the slave. -/
def SlaveSignal.name : SlaveSignal → String
  | .awready => "AWREADY"
  | .wready => "WREADY"
  | .bvalid => "BVALID"
  | .bresp => "BRESP"
  | .bid => "BID"
  | .arready => "ARREADY"
  | .rvalid => "RVALID"
  | .rdata => "RDATA"
  | .rresp => "RRESP"
  | .rid => "RID"
  | .irq => "IRQ"

/-! ## The object -/

/-- The protocol object. -/
structure AXI4Protocol where
  clock : BusClock
  widths : Widths

namespace AXI4Protocol

/-- The constructor. -/
def make (options : ClockOptions) : Option AXI4Protocol :=
  (BusClock.make options).map fun clock =>
    { clock := clock, widths := ⟨0, 0, 0, 0, 0⟩ }

/-- A number of the options as `strtoul` returns it to an `unsigned`. -/
def unsignedOf (number : Nat) : Nat :=
  number % 2 ^ 32

/-- The widths of the options as the protocol reads them. -/
def readWidths (options : Widths) : Widths where
  dataWidth := unsignedOf options.dataWidth
  addrWidth := unsignedOf options.addrWidth
  widWidth := unsignedOf options.widWidth
  ridWidth := unsignedOf options.ridWidth
  irqWidth := unsignedOf options.irqWidth

/-- `wrap_up_configuration`. -/
def configure (proto : AXI4Protocol) (options : Widths) : AXI4Protocol :=
  { proto with widths := wrapUpConfiguration (readWidths options) }

/-- What the master has reported, as texts. -/
def masterTexts (reported : SignalMap String) : MasterSignal → Text :=
  fun signal => vectorText (reported signal.name)

/-- What the slave has reported, as texts. -/
def slaveTexts (reported : SignalMap String) : SlaveSignal → Text :=
  fun signal => vectorText (reported signal.name)

/-- `run_run`: the object afterwards and what the clients are sent. -/
def runRun
    (proto : AXI4Protocol)
    (master slave : SignalMap String) :
    Option (AXI4Protocol × MasterReply × SlaveReply) :=
  (Axi4.runRun proto.widths proto.clock.phase.val (masterTexts master)
    (slaveTexts slave)).map fun (_, toMaster, toSlave) =>
      ({ proto with clock := proto.clock.advanceBusClock }, toMaster, toSlave)

end AXI4Protocol

end Simbus.Axi4
