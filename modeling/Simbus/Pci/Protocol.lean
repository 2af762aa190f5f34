import Simbus.Pci.Signals
import Mathlib

/-!
# The PCI bus server

`PciProtocol` of the server: the clock phases, the sampling of REQ#, the
arbiter, the interrupt routing and the blending of the bidirectional signals.
One `runRun` is one UNTIL round.  The devices of the bus are numbered in the
order of the server's device map.  A failed assertion, a division by zero or a
search loop that would not end is a `Fault`.

The random number `lrand_()` is called at most once in a round, so a round
takes it as an argument.
-/

namespace Simbus.Pci

open FourValued

/-- Where the grant stays when nobody requests the bus. -/
inductive ParkMode where
  | none
  | last
  deriving Repr, DecidableEq

/--
The configured bus: `n` devices with distinct identifiers below 16, and the
options of the bus section.
-/
structure PciBus (n : Nat) where
  hostFlag : Fin n → Bool
  ident : Fin n → Fin 16
  identInjective : Function.Injective ident
  parkMode : ParkMode
  gntLinger : Int
  pcixcap : Logic4

/-- The ways a round can abort the server. -/
inductive Fault where
  | trackAssert
  | divideByZero
  | searchDiverges
  | newDevAssert
  deriving Repr, DecidableEq

/-- State of the protocol together with the signals of the device plugs. -/
structure PciProtocol (n : Nat) where
  phase : Fin 4
  granted : Option (Fin n)
  master : Option (Fin n)
  reqN : Fin 16 → Logic4
  clientSignals : Fin n → ClientSignals
  sendSignals : Fin n → SendSignals

namespace PciProtocol

variable {n : Nat}

/-- What `run_init` puts into the send signals of a device. -/
def initSend
    (bus : PciBus n)
    (dev : Fin n) : SendSignals where
  pcixcap := bus.pcixcap
  pciClk := .one
  gntN := .one
  idsel := .z
  resetN := if bus.hostFlag dev then none else some .one
  intN := if bus.hostFlag dev then some fun _ _ => .one else none
  bi := BiSignals.released

/--
The constructor followed by `run_init`.  The bidirectional client signals
reported before the bus was assembled are overwritten with Z.
-/
def runInit
    (bus : PciBus n)
    (reported : Fin n → ClientSignals) : PciProtocol n where
  phase := 0
  granted := none
  master := none
  reqN := fun _ => .one
  clientSignals := fun dev =>
    { reported dev with bi := BiSignals.released }
  sendSignals := initSend bus

/-- `clk_val` of the clock phase map. -/
def clkVal (phase : Fin 4) : Logic4 :=
  if phase.val < 2 then .one else .zero

def advancePciClock (proto : PciProtocol n) : PciProtocol n :=
  { proto with phase := proto.phase + 1 }

/-- One turn of the loop that collects REQ#. -/
def sampleReq
    (bus : PciBus n)
    (clientSignals : Fin n → ClientSignals)
    (reqN : Fin 16 → Logic4)
    (dev : Fin n) : Fin 16 → Logic4 :=
  match (clientSignals dev).reqN with
  | none => reqN
  | some .z => reqN
  | some level => Function.update reqN (bus.ident dev) level

/-- The REQ# inputs of all devices, with 1 for whoever does not drive it. -/
def sampleReqN
    (bus : PciBus n)
    (clientSignals : Fin n → ClientSignals) : Fin 16 → Logic4 :=
  (List.finRange n).foldl (sampleReq bus clientSignals) fun _ => .one

/-- FRAME# as last reported by a device. -/
def frameOf (proto : PciProtocol n) (dev : Fin n) : Logic4 :=
  (proto.clientSignals dev).bi.frameN

/-- IRDY# as last reported by a device. -/
def irdyOf (proto : PciProtocol n) (dev : Fin n) : Logic4 :=
  (proto.clientSignals dev).bi.irdyN

/-- The part of `track_req_n_` that follows the owner of the bus. -/
def trackMaster
    (proto : PciProtocol n) : Except Fault (PciProtocol n) :=
  if proto.master = none ∧ proto.granted = none then
    .ok proto
  else if proto.master = none then
    match proto.granted with
    | none => .error .trackAssert
    | some granted =>
        -- The grantee becomes master once it drives FRAME#.
        if proto.frameOf granted = .zero then
          .ok { proto with master := some granted }
        else
          .ok proto
  else if proto.master = proto.granted then
    match proto.master with
    | none => .error .trackAssert
    | some _ => .ok proto
  else
    match proto.granted, proto.master with
    | some granted, some master =>
        if master = granted then
          .error .trackAssert
        else if proto.frameOf master = .zero ∨ proto.irdyOf master = .zero then
          .ok proto
        else
          -- The bus goes to the grantee, whether it has started or not.
          .ok { proto with master := some granted }
    | none, some master =>
        if proto.frameOf master ≠ .zero ∧ proto.irdyOf master ≠ .zero then
          .ok { proto with master := none }
        else
          .ok proto
    | _, none => .error .trackAssert

/-- `track_req_n_`: only the rising edge of the clock samples the requests. -/
def trackReqN
    (bus : PciBus n)
    (proto : PciProtocol n) : Except Fault (PciProtocol n) :=
  if proto.phase ≠ 0 then
    .ok proto
  else
    trackMaster { proto with reqN := sampleReqN bus proto.clientSignals }

/-- Number of REQ# inputs sampled as 0. -/
def countRequests (reqN : Fin 16 → Logic4) : Nat :=
  ((List.finRange 16).filter fun idx => reqN idx = .zero).length

/-- Drive GNT# of one device. -/
def setGnt
    (proto : PciProtocol n)
    (dev : Fin n)
    (level : Logic4) : PciProtocol n :=
  { proto with
    sendSignals := Function.update proto.sendSignals dev
      { proto.sendSignals dev with gntN := level } }

/--
The search loop `do new_grant = (new_grant+1) % 16; while (...)`, cut off
after `fuel` turns.
-/
def grantSearch (reqN : Fin 16 → Logic4) : Nat → Fin 16 → Option (Fin 16)
  | 0, _ => none
  | fuel + 1, newGrant =>
      if reqN (newGrant + 1) ≠ .zero then
        grantSearch reqN fuel (newGrant + 1)
      else
        some (newGrant + 1)

/-- Nobody requests: leave the grant, or recall it from an idle-wait master. -/
def recallGrant
    (bus : PciBus n)
    (random : Nat)
    (proto : PciProtocol n) : Except Fault (PciProtocol n) :=
  match proto.master, proto.granted with
  | some _, some granted =>
      if bus.parkMode ≠ .last then
        if bus.gntLinger = 0 then
          .error .divideByZero
        else if (random : Int).tmod bus.gntLinger = 0 then
          .ok { proto.setGnt granted .one with granted := none }
        else
          .ok proto
      else
        .ok proto
  | _, _ => .ok proto

/-- Set GNT# for the new grantee and clear it for the old one. -/
def giveGrant
    (newDev : Fin n)
    (proto : PciProtocol n) : PciProtocol n :=
  let proto' := proto.setGnt newDev .zero
  match proto.granted with
  | some granted =>
      { proto'.setGnt granted .one with granted := some newDev }
  | none =>
      { proto' with granted := some newDev }

/-- Where the search starts: at the last grantee, or anywhere. -/
def searchStart
    (bus : PciBus n)
    (random : Nat)
    (proto : PciProtocol n) : Fin 16 :=
  match proto.granted with
  | some granted => bus.ident granted
  | none => Fin.ofNat 16 random

/-- Somebody requests and the grantee does not: search the next grantee. -/
def moveGrant
    (bus : PciBus n)
    (random : Nat)
    (proto : PciProtocol n) : Except Fault (PciProtocol n) :=
  match grantSearch proto.reqN 16 (proto.searchStart bus random) with
  | none => .error .searchDiverges
  | some newGrant =>
      if proto.granted.map bus.ident = some newGrant then
        .ok proto
      else
        match (List.finRange n).find? fun dev => bus.ident dev = newGrant with
        | none => .error .newDevAssert
        | some newDev => .ok (proto.giveGrant newDev)

/-- The grantee still holds REQ# at 0. -/
def granteeRequests
    (bus : PciBus n)
    (proto : PciProtocol n) : Bool :=
  match proto.granted with
  | some granted => proto.reqN (bus.ident granted) = .zero
  | none => false

/-- `arbitrate_`: runs once a clock, in the phase after the rising edge. -/
def arbitrate
    (bus : PciBus n)
    (random : Nat)
    (proto : PciProtocol n) : Except Fault (PciProtocol n) :=
  if proto.phase ≠ 1 then
    .ok proto
  else if countRequests proto.reqN = 0 then
    proto.recallGrant bus random
  else if proto.granteeRequests bus then
    .ok proto
  else
    proto.moveGrant bus random

/-- `calculate_reset_n_`: the wired AND of the RESET# outputs of the hosts. -/
def calculateResetN
    (bus : PciBus n)
    (clientSignals : Fin n → ClientSignals) :
    List (Fin n) → Logic4 → Logic4
  | [], resetN => resetN
  | dev :: rest, resetN =>
      if bus.hostFlag dev then
        match (clientSignals dev).resetN with
        | none => calculateResetN bus clientSignals rest resetN
        | some .one => calculateResetN bus clientSignals rest resetN
        | some .zero => .zero
        | some _ => calculateResetN bus clientSignals rest .x
      else
        calculateResetN bus clientSignals rest resetN

/-- The level of one interrupt output, where an undriven output is inactive. -/
def interruptLevel : Option Logic4 → Logic4
  | none => .one
  | some .z => .one
  | some level => level

/-- One turn of the loop that collects the interrupts of the non-host devices. -/
def collectInterrupt
    (bus : PciBus n)
    (clientSignals : Fin n → ClientSignals)
    (line : Fin 4)
    (collected : Fin 16 → Option Logic4)
    (dev : Fin n) : Fin 16 → Option Logic4 :=
  if bus.hostFlag dev then
    collected
  else
    Function.update collected (bus.ident dev)
      (some (interruptLevel ((clientSignals dev).intN line)))

/-- `route_interrupts_`: hosts see one vector for each interrupt line. -/
def routeInterrupts
    (bus : PciBus n)
    (proto : PciProtocol n) : PciProtocol n :=
  let collected (line : Fin 4) : Fin 16 → Option Logic4 :=
    (List.finRange n).foldl
      (collectInterrupt bus proto.clientSignals line) fun _ => none
  { proto with
    sendSignals := fun dev =>
      let send := proto.sendSignals dev
      { send with
        intN := send.intN.map fun sent line idx =>
          (collected line idx).getD (sent line idx) } }

def blendBits (a b : Logic4) : Logic4 :=
  if a = .z then
    b
  else if b = .z then
    a
  else if a = b then
    a
  else
    .x

def subtractFeedback (sig ref : Logic4) : Logic4 :=
  if ref = .z then
    sig
  else if sig = ref then
    .z
  else
    sig

/-- The first loop of `blend_bi_signals_` on one bit. -/
def blendDrives (drives : List Logic4) : Logic4 :=
  drives.foldl blendBits .z

/-- The resolved bus of the first loop of `blend_bi_signals_`. -/
def blendedBus (clientSignals : Fin n → ClientSignals) : BiSignals :=
  BiSignals.ofBits fun bit =>
    blendDrives <| (List.finRange n).map fun dev =>
      (clientSignals dev).bi.get bit

/-- What a device is sent for a resolved bus, given what it drives itself. -/
def sentTo (bus own : BiSignals) : BiSignals :=
  BiSignals.ofBits fun bit => subtractFeedback (bus.get bit) (own.get bit)

/-- `blend_bi_signals_`.  IDSEL of a device is one of the upper address lines. -/
def blendBiSignals
    (ident : Fin n → Fin 16)
    (proto : PciProtocol n) : PciProtocol n :=
  let blended := blendedBus proto.clientSignals
  { proto with
    sendSignals := fun dev =>
      { proto.sendSignals dev with
        idsel := blended.ad ⟨(ident dev).val + 16, by omega⟩
        bi := sentTo blended (proto.clientSignals dev).bi } }

/-- The outputs `run_run` assigns itself. -/
def assignOutputs
    (pciClk resetN : Logic4)
    (proto : PciProtocol n) : PciProtocol n :=
  { proto with
    sendSignals := fun dev =>
      let send := proto.sendSignals dev
      { send with
        pciClk := pciClk
        resetN := send.resetN.map fun _ => resetN } }

/-- `run_run`: one phase of the PCI clock. -/
def runRun
    (bus : PciBus n)
    (random : Nat)
    (proto : PciProtocol n) : Except Fault (PciProtocol n) := do
  let proto := proto.advancePciClock
  let resetN :=
    calculateResetN bus proto.clientSignals (List.finRange n) .one
  let tracked ← proto.trackReqN bus
  let arbitrated ← tracked.arbitrate bus random
  let routed := arbitrated.routeInterrupts bus
  let blended := routed.blendBiSignals bus.ident
  return blended.assignOutputs (clkVal proto.phase) resetN

end PciProtocol

end Simbus.Pci
