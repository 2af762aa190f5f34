import Simbus.Axi4.Forwarding
import Simbus.P2p.Client
import Simbus.Pci.Client
import Simbus.Pcie.Client

/-!
# The READY lines of the library

Every client of the library builds its READY from the same signals each time.
How long the line is depends on the widths of the client and on the time that
it sends, and on nothing else.
-/

namespace Simbus

open FourValued

/-! ## Tokens -/

/-- The characters of some tokens, each with the space before it. -/
def tokensLength (tokens : Tokens String) : Nat :=
  (tokens.map tokenLength).sum

@[simp]
theorem tokensLength_nil : tokensLength [] = 0 :=
  rfl

@[simp]
theorem tokensLength_cons (token : String × Axi4.Text) (tokens : Tokens String) :
    tokensLength (token :: tokens) = tokenLength token + tokensLength tokens :=
  rfl

@[simp]
theorem tokensLength_append (first second : Tokens String) :
    tokensLength (first ++ second) =
      tokensLength first + tokensLength second := by
  rw [tokensLength, List.map_append, List.sum_append]
  rfl

/-- The names with a space and an equal sign, and the values. -/
theorem tokensLength_map
    {Signal : Type}
    (signals : List Signal)
    (name : Signal → String)
    (text : Signal → Axi4.Text) :
    tokensLength (signals.map fun signal => (name signal, text signal)) =
      (signals.map fun signal => (name signal).length + 2).sum +
        (signals.map fun signal => (text signal).length).sum := by
  induction signals with
  | nil =>
      rfl
  | cons signal rest inductionHypothesis =>
      simp only [List.map_cons, List.sum_cons, tokensLength_cons, tokenLength,
        inductionHypothesis]
      omega

theorem Message.length_eq (message : Message) :
    message.length =
      message.keyword.length + 2 + message.time.textLength +
        tokensLength message.tokens := by
  rw [Message.length, tokensLength]
  omega

/-! ## The clients -/

namespace Axi4

/-- What a slave drives on its channels, that is all but IRQ. -/
def channelSignals : List SlaveSignal :=
  [.awready, .wready, .bvalid, .bresp, .bid, .arready, .rvalid, .rdata,
    .rresp, .rid]

/-- The names in the READY of a master. -/
theorem masterNames :
    (masterSignals.map fun signal => signal.name.length + 2).sum = 205 := by
  decide

/-- The names of what a slave drives on its channels. -/
theorem channelNames :
    (channelSignals.map fun signal => signal.name.length + 2).sum = 73 := by
  decide

theorem sum_declaredMaster (widths : Widths) :
    (masterSignals.map (declaredMaster widths)).sum =
      58 + 2 * widths.addrWidth + widths.widWidth + widths.ridWidth +
        widths.dataWidth + widths.dataWidth / 8 := by
  simp only [masterSignals, List.map_cons, List.map_nil, List.sum_cons,
    List.sum_nil, declaredMaster, masterBits]
  omega

theorem sum_masterBits (widths : Widths) :
    (masterSignals.map (masterBits widths)).sum =
      58 + 2 * widths.addrWidth + 2 * widths.widWidth + widths.dataWidth +
        widths.dataWidth / 8 := by
  simp only [masterSignals, List.map_cons, List.map_nil, List.sum_cons,
    List.sum_nil, masterBits]
  omega

theorem sum_slaveBits (widths : Widths) :
    (channelSignals.map (slaveBits widths)).sum =
      9 + widths.widWidth + widths.dataWidth + widths.ridWidth := by
  simp only [channelSignals, List.map_cons, List.map_nil, List.sum_cons,
    List.sum_nil, slaveBits]
  omega

end Axi4

namespace Axi4.SimbusAxi4

variable {User : Type}

/-- What `__axi4_ready_command` appends to the time. -/
def masterReadyTokens (bus : SimbusAxi4 User) : Tokens String :=
  masterSignals.map fun signal => (signal.name, bus.masterReady signal)

/-- What `__axi4s_ready_command` appends; IRQ only if there are interrupts. -/
def slaveReadyTokens (bus : SimbusAxi4 User) : Tokens String :=
  (channelSignals.map fun signal => (signal.name, bus.slaveReady signal)) ++
    if 0 < bus.widths.irqWidth then
      [(SlaveSignal.irq.name, bus.slaveReady .irq)]
    else
      []

/-- The master sends every signal as wide as it has declared it. -/
theorem length_masterReady_declared
    (bus : SimbusAxi4 User)
    (signal : MasterSignal) :
    (bus.masterReady signal).length = declaredMaster bus.widths signal := by
  rw [length_masterReady]
  cases signal <;> rfl

theorem length_slaveReady_bits
    (bus : SimbusAxi4 User)
    (signal : SlaveSignal) :
    (bus.slaveReady signal).length = slaveBits bus.widths signal := by
  rw [length_slaveReady]
  cases signal <;> rfl

theorem tokensLength_masterReadyTokens (bus : SimbusAxi4 User) :
    tokensLength bus.masterReadyTokens =
      263 + 2 * bus.widths.addrWidth + bus.widths.widWidth +
        bus.widths.ridWidth + bus.widths.dataWidth +
        bus.widths.dataWidth / 8 := by
  rw [masterReadyTokens, tokensLength_map, masterNames]
  simp only [length_masterReady_declared]
  rw [sum_declaredMaster]
  omega

theorem tokensLength_slaveReadyTokens (bus : SimbusAxi4 User) :
    tokensLength bus.slaveReadyTokens =
      82 + bus.widths.widWidth + bus.widths.dataWidth + bus.widths.ridWidth +
        if 0 < bus.widths.irqWidth then 5 + bus.widths.irqWidth else 0 := by
  have irqName : SlaveSignal.irq.name.length = 3 := by
    decide
  rw [slaveReadyTokens, tokensLength_append, tokensLength_map, channelNames]
  simp only [length_slaveReady_bits]
  rw [sum_slaveBits]
  split
  · rw [tokensLength_cons, tokensLength_nil, tokenLength, irqName,
      length_slaveReady_bits, slaveBits]
    omega
  · rw [tokensLength_nil]
    omega

end Axi4.SimbusAxi4

namespace Pci.SimbusPci

variable {User Handle : Type}

/-- What `send_ready_command` of PCI appends to the time. -/
def readyTokens (pci : SimbusPci User Handle) : Tokens String :=
  [("RESET#", [pci.outResetN]),
    ("REQ#", [pci.outReqN]),
    ("REQ64#", [pci.out.req64N]),
    ("FRAME#", [pci.out.frameN]),
    ("IRDY#", [pci.out.irdyN]),
    ("TRDY#", [pci.out.trdyN]),
    ("STOP#", [pci.out.stopN]),
    ("DEVSEL#", [pci.out.devselN]),
    ("ACK64#", [pci.out.ack64N]),
    ("C/BE#", vectorText (List.ofFn pci.out.cBe)),
    ("AD", vectorText (List.ofFn pci.out.ad)),
    ("PAR", [pci.out.par]),
    ("PAR64", [pci.out.par64])]

theorem tokensLength_readyTokens (pci : SimbusPci User Handle) :
    tokensLength pci.readyTokens = 174 := by
  simp only [readyTokens, tokensLength_cons, tokensLength_nil, tokenLength,
    vectorText, List.length_reverse, List.length_ofFn, List.length_singleton]
  decide

end Pci.SimbusPci

namespace Pcie.ReadySignals

/-- What `send_ready_command` of PCIe appends to the time. -/
def tokens (signals : ReadySignals) : Tokens String :=
  [("user_reset", [signals.userResetOut]),
    ("user_lnk_up", [signals.userLnkUp]),
    ("tx_buf_av", vectorText (List.ofFn signals.txBufAv)),
    ("m_axis_rx_tdata", vectorText (List.ofFn signals.rxBeat.tdata)),
    ("m_axis_rx_tkeep", vectorText (List.ofFn signals.rxBeat.tkeep)),
    ("m_axis_rx_tlast", [signals.rxBeat.tlast]),
    ("m_axis_rx_tvalid", [signals.rxTvalid]),
    ("s_axis_tx_tready", [signals.txTready])]

theorem tokensLength_tokens (signals : ReadySignals) :
    tokensLength signals.tokens = 206 := by
  simp only [tokens, tokensLength_cons, tokensLength_nil, tokenLength,
    vectorText, List.length_reverse, List.length_ofFn, List.length_singleton]
  decide

end Pcie.ReadySignals

namespace P2p.SimbusP2p

/-- The characters of the tokens of a host and of a device. -/
theorem tokensLength_ready (bus : SimbusP2p) :
    tokensLength bus.ready.tokens =
      if bus.ident = 0 then
        14 + if 0 < bus.widthO then 8 + bus.widthO else 0
      else
        if 0 < bus.widthI then 8 + bus.widthI else 0 := by
  have modeName : "CLOCK_MODE".length = 10 := by
    decide
  have outName : "DATA_O".length = 6 := by
    decide
  have inName : "DATA_I".length = 6 := by
    decide
  by_cases isHost : bus.ident = 0
  · by_cases some : 0 < bus.widthO <;>
      simp [ready, isHost, some, tokenLength, modeName, outName]
  · by_cases some : 0 < bus.widthI <;>
      simp [ready, isHost, some, tokenLength, inName]

end P2p.SimbusP2p

/-! ## All clients -/

section

variable {User Handle : Type}

/-- A client of the library, in its role on the bus. -/
inductive LibraryClient (User Handle : Type) where
  | p2p (bus : P2p.SimbusP2p)
  | axi4Master (bus : Axi4.SimbusAxi4 User)
  | axi4Slave (bus : Axi4.SimbusAxi4 User)
  | pci (bus : Pci.SimbusPci User Handle)
  | pcieTlp (bus : Pcie.SimbusPcieTlp User)

namespace LibraryClient

/-- The tokens of its READY. -/
def tokens : LibraryClient User Handle → Tokens String
  | .p2p bus => bus.ready.tokens
  | .axi4Master bus => bus.masterReadyTokens
  | .axi4Slave bus => bus.slaveReadyTokens
  | .pci bus => bus.readyTokens
  | .pcieTlp bus => bus.ready.tokens

/-- Its READY at some time. -/
def ready (client : LibraryClient User Handle) (time : SimTime) : Message where
  keyword := "READY"
  time := time
  tokens := client.tokens

theorem ready_p2p (bus : P2p.SimbusP2p) :
    (p2p bus : LibraryClient User Handle).ready bus.busTime = bus.ready :=
  rfl

/-- The characters of the tokens, by the widths of the client. -/
def tokenChars : LibraryClient User Handle → Nat
  | .p2p bus =>
      if bus.ident = 0 then
        14 + if 0 < bus.widthO then 8 + bus.widthO else 0
      else
        if 0 < bus.widthI then 8 + bus.widthI else 0
  | .axi4Master bus =>
      263 + 2 * bus.widths.addrWidth + bus.widths.widWidth +
        bus.widths.ridWidth + bus.widths.dataWidth + bus.widths.dataWidth / 8
  | .axi4Slave bus =>
      82 + bus.widths.widWidth + bus.widths.dataWidth + bus.widths.ridWidth +
        if 0 < bus.widths.irqWidth then 5 + bus.widths.irqWidth else 0
  | .pci _ => 174
  | .pcieTlp _ => 206

theorem tokensLength_tokens (client : LibraryClient User Handle) :
    tokensLength client.tokens = client.tokenChars := by
  cases client with
  | p2p bus =>
      exact bus.tokensLength_ready
  | axi4Master bus =>
      exact bus.tokensLength_masterReadyTokens
  | axi4Slave bus =>
      exact bus.tokensLength_slaveReadyTokens
  | pci bus =>
      exact bus.tokensLength_readyTokens
  | pcieTlp bus =>
      exact bus.ready.tokensLength_tokens

/-- The characters of a READY with its newline. -/
theorem length_ready (client : LibraryClient User Handle) (time : SimTime) :
    (client.ready time).length =
      7 + time.textLength + client.tokenChars := by
  have keyword : "READY".length = 5 := by
    decide
  rw [Message.length_eq, ready, keyword, tokensLength_tokens]

end LibraryClient

end

end Simbus
