import Simbus.Clocked.Program
import Simbus.FourValued
import Simbus.Words
import Simbus.Ring
import Simbus.Pcie.Tlp
import Mathlib

/-!
# The libsimbus PCIe client

State of the root end of a PCIe link in the C library: the exchange with the
server, the receiver of packets, and the queue of packets to send.

A callback may change the user's own data and send packets.  It does not wait
for the clock in any other way.
-/

namespace Simbus.Pcie

open FourValued Clocked

/-! ## State -/

/-- What a callback does, up to the value it returns. -/
inductive Script (User : Type) (Value : Type) where
  | done (value : Value)
  | look (next : User → Script User Value)
  | change (user : User) (next : Script User Value)
  | send (tlp : Tlp) (next : Script User Value)

/-- `simbus_pcie_tlp_write_t`: address, data and byte enables. -/
abbrev WriteFun (User : Type) : Type :=
  BitVec 64 → List (BitVec 32) → BitVec 32 → BitVec 32 → Script User Unit

/-- `simbus_pcie_tlp_read_t`, which fills in the words of the data. -/
abbrev ReadFun (User : Type) : Type :=
  BitVec 64 → Nat → BitVec 32 → BitVec 32 → Script User (Nat → BitVec 32)

/-- One transfer of a stream. -/
structure Beat where
  tdata : Fin 64 → Logic4
  tkeep : Fin 8 → Logic4
  tlast : Logic4
  deriving DecidableEq

/-- The assertions of the client, by what they are about. -/
inductive Fault where
  | bufferFull
  | emptyPacket
  | partialWord
  | completionTaken
  | completionShort
  | badRequest
  | wrongLength
  | queueOrder
  | danglingCell
  | stackOverflow
  deriving DecidableEq

/--
`struct simbus_pcie_tlp_s`.  `sTlpBuf` keeps old words behind `sTlpCnt`, and
`cells` are the allocated cells of `tlp_out_list`.

The last three fields are no data of the client: they record a failed
assertion, the packets that callers passed to `__pcie_tlp_send_tlp`, and the
transfers to the endpoint that took place.
-/
structure SimbusPcieTlp (User : Type) where
  user : User
  intxMask : BitVec 32
  sTlpBuf : Nat → BitVec 32
  sTlpCnt : Nat
  writeFun : Option (WriteFun User)
  readFun : Option (ReadFun User)
  requestId : BitVec 16
  tlpNextTag : BitVec 8
  completions : BitVec 8 → Option (List (BitVec 32))
  tlpOutList : Option Nat
  cells : Ring.Heap Tlp
  cellCount : Nat
  userClk : Logic4
  userResetOut : Logic4
  userLnkUp : Logic4
  txBufAv : Fin 6 → Logic4
  rxBeat : Beat
  rxTvalid : Logic4
  rxTready : Logic4
  txTready : Logic4
  txBeat : Beat
  txTvalid : Logic4
  txTuser : Fin 4 → Logic4
  fault : Option Fault
  enqueued : List Tlp
  accepted : List Beat

/-- The values of an UNTIL. -/
structure UntilSignals where
  userClk : Logic4
  rxTready : Logic4
  txBeat : Beat
  txTvalid : Logic4
  txTuser : Fin 4 → Logic4

/-- The values of a READY. -/
structure ReadySignals where
  userResetOut : Logic4
  userLnkUp : Logic4
  txBufAv : Fin 6 → Logic4
  rxBeat : Beat
  rxTvalid : Logic4
  txTready : Logic4

/-- What arrives from the server: an UNTIL, or FINISH (or a closed stream). -/
inductive Reply where
  | until (signals : UntilSignals)
  | finish

/-- A function of the library. -/
abbrev Call (User Value : Type) : Type :=
  Program (SimbusPcieTlp User) Reply Value

/-- `SIMBUS_PCIE_TLP_FINISHED`. -/
def simbusPcieTlpFinished : Int := -2

section

variable {User : Type}

/-- The transfer that is driven when there is none. -/
def Beat.idle : Beat where
  tdata := fun _ => .x
  tkeep := fun _ => .x
  tlast := .zero

namespace SimbusPcieTlp

/-- `init_simbus_pcie_tlp` on zeroed memory, with `DEFAULT_ROOT_ID`. -/
def init
    (user : User)
    (writeFun : Option (WriteFun User))
    (readFun : Option (ReadFun User)) : SimbusPcieTlp User where
  user := user
  intxMask := 0
  sTlpBuf := fun _ => 0
  sTlpCnt := 0
  writeFun := writeFun
  readFun := readFun
  requestId := 0x01f8
  tlpNextTag := 0
  completions := fun _ => none
  tlpOutList := none
  cells := fun _ => none
  cellCount := 0
  userClk := .one
  userResetOut := .zero
  userLnkUp := .one
  txBufAv := fun idx => if idx = 4 then .one else .zero
  rxBeat := .idle
  rxTvalid := .zero
  rxTready := .zero
  txTready := .one
  txBeat := { tdata := fun _ => .zero, tkeep := fun _ => .zero, tlast := .zero }
  txTvalid := .zero
  txTuser := fun _ => .zero
  fault := none
  enqueued := []
  accepted := []

/-- The READY message. -/
def ready (bus : SimbusPcieTlp User) : ReadySignals where
  userResetOut := bus.userResetOut
  userLnkUp := bus.userLnkUp
  txBufAv := bus.txBufAv
  rxBeat := bus.rxBeat
  rxTvalid := bus.rxTvalid
  txTready := bus.txTready

/-- The inputs after an UNTIL message. -/
def sample
    (bus : SimbusPcieTlp User)
    (signals : UntilSignals) : SimbusPcieTlp User :=
  { bus with
    userClk := signals.userClk
    rxTready := signals.rxTready
    txBeat := signals.txBeat
    txTvalid := signals.txTvalid
    txTuser := signals.txTuser }

end SimbusPcieTlp

/-- Stop, and record what has failed. -/
def failAt {Value : Type} (fault : Fault) : Call User Value where
  start := fun bus => .fail { bus with fault := some fault }

/-- `assert`. -/
def check
    (fault : Fault)
    (condition : SimbusPcieTlp User → Bool) : Call User Unit where
  start := fun bus =>
    if condition bus then
      .finish () bus
    else
      (failAt fault).start bus

/-- `send_ready_command`. -/
def sendReadyCommand : Call User Int :=
  Program.exchange fun
    | .finish => pure simbusPcieTlpFinished
    | .until signals => do
        Program.modifyState fun bus => bus.sample signals
        return 0

/-- Call `__pcie_tlp_send_tlp`, and record the packet that it is passed. -/
def callSendTlp
    (send : Tlp → Call User Unit)
    (tlp : Tlp) : Call User Unit := do
  Program.modifyState fun bus => { bus with enqueued := bus.enqueued ++ [tlp] }
  send tlp

/-- Run what a callback does, with the function it calls to send packets. -/
def runScript
    {Value : Type}
    (send : Tlp → Call User Unit) :
    Script User Value → Call User Value
  | .done value => pure value
  | .look next => do
      let bus ← Program.getState
      runScript send (next bus.user)
  | .change user next => do
      Program.modifyState fun bus => { bus with user := user }
      runScript send next
  | .send tlp next => do
      callSendTlp send tlp
      runScript send next

/-! ## Receiving packets -/

/-- `crank_recv_tlp`. -/
def crankRecvTlp (val : BitVec 32) : Call User Unit := do
  check .bufferFull fun bus => bus.sTlpCnt < maxTlp
  Program.modifyState fun bus =>
    { bus with
      sTlpBuf := Function.update bus.sTlpBuf bus.sTlpCnt val
      sTlpCnt := bus.sTlpCnt + 1 }

/-- The words that a transfer completes, one after the other. -/
def crankAll : List (BitVec 32) → Call User Unit
  | [] => pure ()
  | val :: rest => do
      crankRecvTlp val
      crankAll rest

/-- `copy_tlp_to_completion`. -/
def copyTlpToCompletion (tag : BitVec 8) (words : Nat) : Call User Unit := do
  check .completionTaken fun bus => bus.completions tag = none
  check .completionShort fun bus => 3 ≤ words ∧ words ≤ bus.sTlpCnt
  Program.modifyState fun bus =>
    { bus with
      completions :=
        Function.update bus.completions tag
          (some ((List.range words).map bus.sTlpBuf)) }

/-- `byte_swap32` on some words of the receive buffer. -/
def swapBuffer (first ndata : Nat) : Call User Unit :=
  Program.modifyState fun bus =>
    { bus with
      sTlpBuf := fun idx =>
        if first ≤ idx ∧ idx < first + ndata then
          byteSwap32 (bus.sTlpBuf idx)
        else
          bus.sTlpBuf idx }

/-- A write request whose data starts at word `first`. -/
def recvWrite
    (send : Tlp → Call User Unit)
    (first : Nat)
    (addr : BitVec 64) : Call User Unit := do
  let bus ← Program.getState
  let ndata := tlpLength (bus.sTlpBuf 0)
  let be0 := firstByteEnables (bus.sTlpBuf 1)
  let beN := lastByteEnables (bus.sTlpBuf 1)
  match bus.writeFun with
  | none => pure ()
  | some writeFun => do
      swapBuffer first ndata
      let bus ← Program.getState
      let data := (List.range ndata).map fun idx => bus.sTlpBuf (first + idx)
      runScript send (writeFun addr data be0 beN)

/-- A read request, and the completion it is answered with. -/
def recvRead
    (send : Tlp → Call User Unit)
    (addr : BitVec 64) : Call User Tlp := do
  let bus ← Program.getState
  let ndata := tlpLength (bus.sTlpBuf 0)
  let be0 := firstByteEnables (bus.sTlpBuf 1)
  let beN := lastByteEnables (bus.sTlpBuf 1)
  let complete := completionTlp bus.requestId (bus.sTlpBuf 1) addr ndata
  match bus.readFun with
  | none => return complete fun _ => 0
  | some readFun => do
      let data ← runScript send (readFun addr ndata be0 beN)
      return complete fun idx => byteSwap32 (data idx)

/-- The mask bit of the interrupt that a message is about. -/
def intxBit (word : BitVec 32) : BitVec 32 :=
  1 <<< (word &&& 3).toNat

/-- `process_Assert_INTx`. -/
def processAssertINTx : Call User Unit :=
  Program.modifyState fun bus =>
    { bus with intxMask := bus.intxMask ||| intxBit (bus.sTlpBuf 1) }

/-- `process_Deassert_INTx`. -/
def processDeassertINTx : Call User Unit :=
  Program.modifyState fun bus =>
    { bus with intxMask := bus.intxMask &&& ~~~ intxBit (bus.sTlpBuf 1) }

/-- The part of `complete_recv_tlp` that depends on the type. -/
def dispatchTlp
    (send : Tlp → Call User Unit) : Call User (Option Tlp) := do
  let bus ← Program.getState
  let buf := bus.sTlpBuf
  let kind := tlpType (buf 0)
  if kind = 0x0a000000 then
    copyTlpToCompletion (completionTag (buf 2)) 3
    return none
  else if kind = 0x4a000000 then
    copyTlpToCompletion (completionTag (buf 2)) (3 + tlpLength (buf 0))
    return none
  else if kind = 0x40000000 then
    recvWrite send 3 ((buf 2).setWidth 64)
    return none
  else if kind = 0x60000000 then
    recvWrite send 4 (wideAddress (buf 2) (buf 3))
    return none
  else if kind = 0x00000000 then
    let tlp ← recvRead send ((buf 2).setWidth 64)
    return some tlp
  else if kind = 0x20000000 then
    let tlp ← recvRead send (wideAddress (buf 2) (buf 3))
    return some tlp
  else if kind = 0x30000000 then
    if buf 1 &&& 0xfc = 0x20 then
      processAssertINTx
    else if buf 1 &&& 0xfc = 0x24 then
      processDeassertINTx
    return none
  else
    -- An unhandled packet is reported and dropped.
    return none

/-- `complete_recv_tlp`. -/
def completeRecvTlp (send : Tlp → Call User Unit) : Call User Unit := do
  check .emptyPacket fun bus => 1 ≤ bus.sTlpCnt
  let tlp ← dispatchTlp send
  Program.modifyState fun bus => { bus with sTlpCnt := 0 }
  match tlp with
  | none => pure ()
  | some tlp => callSendTlp send tlp

/-- The bits of a byte, which are shifted into the word from its top. -/
def shiftByte
    (tdata : Fin 64 → Logic4)
    (byte : Fin 8) : Nat → BitVec 32 → BitVec 32
  | 0, val => val
  | bits + 1, val =>
      shiftByte tdata byte bits
        ((val <<< 1) |||
          if tdata (Fin.ofNat 64 (8 * byte.val + bits)) = .one then 1 else 0)

/-- The word that is put together, its bytes so far, and the words before. -/
structure Assembly where
  val : BitVec 32
  bytes : Nat
  words : List (BitVec 32)

/-- `keep_bit`: the bytes of each half from the last to the first. -/
def keepBit (idx : Nat) : Fin 8 :=
  Fin.ofNat 8 ((idx &&& 4) ||| (3 - (idx &&& 3)))

/-- One turn of the loop over the bytes of a transfer. -/
def keepByte (beat : Beat) (assembly : Assembly) (idx : Nat) : Assembly :=
  if beat.tkeep (keepBit idx) = .one then
    let val := shiftByte beat.tdata (keepBit idx) 8 assembly.val
    if assembly.bytes + 1 = 4 then
      { val := 0, bytes := 0, words := assembly.words ++ [val] }
    else
      { assembly with val := val, bytes := assembly.bytes + 1 }
  else
    assembly

/-- The loop of `__pcie_tlp_recv_tlp`. -/
def assemble (beat : Beat) : Assembly :=
  (List.range 8).foldl (keepByte beat) { val := 0, bytes := 0, words := [] }

/-- `__pcie_tlp_recv_tlp`. -/
def pcieTlpRecvTlp (send : Tlp → Call User Unit) : Call User Unit := do
  let bus ← Program.getState
  if bus.txTvalid = .one ∧ bus.txTready = .one then
    let assembly := assemble bus.txBeat
    crankAll assembly.words
    check .partialWord fun _ => assembly.bytes = 0
    if bus.txBeat.tlast = .one then
      completeRecvTlp send

/-! ## The clock -/

/-- Record the transfer that takes place at an edge. -/
def recordTransfer
    (bus : SimbusPcieTlp User) : SimbusPcieTlp User :=
  if bus.rxTvalid = .one ∧ bus.rxTready = .one then
    { bus with accepted := bus.accepted ++ [bus.rxBeat] }
  else
    bus

/-- The two loops of `__pcie_tlp_next_posedge`, and the edge they end at. -/
def waitPosedge : Call User Unit := do
  Program.whileDo (fun bus => bus.userClk = .one) do
    let _ ← sendReadyCommand
  Program.whileDo (fun bus => bus.userClk = .zero) do
    let _ ← sendReadyCommand
  Program.modifyState recordTransfer

/-- `__pcie_tlp_next_posedge`. -/
def pcieTlpNextPosedge (send : Tlp → Call User Unit) : Call User Unit := do
  waitPosedge
  pcieTlpRecvTlp send

/-! ## Sending packets -/

/-- The stream word for the words that are left of a packet. -/
def beatOf (data : List (BitVec 32)) : Beat where
  tdata := fun bit =>
    match data with
    | [] => .zero
    | first :: rest =>
        if bit.val < 32 then
          Logic4.ofBool (first.getLsbD bit.val)
        else
          Logic4.ofBool ((rest.headD 0).getLsbD (bit.val - 32))
  tkeep := fun lane =>
    Logic4.ofBool (lane.val < 4 || decide (2 ≤ data.length))
  tlast := Logic4.ofBool (data.length ≤ 2)

/-- One turn of the loop of `do_send_tlp_raw`. -/
def sendBeat
    (send : Tlp → Call User Unit) :
    List (BitVec 32) → Call User (List (BitVec 32) ⊕ Unit)
  | [] => return .inr ()
  | first :: rest => do
      Program.modifyState fun bus =>
        { bus with rxBeat := beatOf (first :: rest), rxTvalid := .one }
      pcieTlpNextPosedge send
      let bus ← Program.getState
      if bus.rxTready = .one then
        if rest.drop 1 = [] then
          Program.modifyState fun bus =>
            { bus with rxBeat := .idle, rxTvalid := .zero }
        return .inl (rest.drop 1)
      else
        return .inl (first :: rest)

/-- `do_send_tlp_raw`. -/
def doSendTlpRaw
    (send : Tlp → Call User Unit)
    (data : List (BitVec 32)) : Call User Unit :=
  Program.loop (sendBeat send) data

/-- The cell at an address, which must not have been freed. -/
def readCell (cell : Nat) : Call User (Ring.Cell Tlp) where
  start := fun bus =>
    match bus.cells cell with
    | none => (failAt .danglingCell).start bus
    | some found => .finish found bus

/-- Write to the successor of a cell. -/
def setNext (cell next : Nat) : Call User Unit := do
  let old ← readCell cell
  Program.modifyState fun bus =>
    { bus with
      cells :=
        Function.update bus.cells cell (some { old with next := next }) }

/-- `bus->tlp_out_list`, where it is dereferenced. -/
def outList : Call User Nat := do
  let bus ← Program.getState
  match bus.tlpOutList with
  | none => failAt .danglingCell
  | some list => return list

/-- Take a packet that has been sent off the list. -/
def unlink (cur : Nat) : Call User Unit := do
  let bus ← Program.getState
  if bus.tlpOutList = some cur then
    Program.modifyState fun bus => { bus with tlpOutList := none }
  else
    let list ← outList
    let tail ← readCell list
    check .queueOrder fun _ => tail.next = cur
    let curCell ← readCell cur
    setNext list curCell.next
  Program.modifyState fun bus =>
    { bus with cells := Function.update bus.cells cur none }

/-- One turn of the drain loop of `__pcie_tlp_send_tlp`. -/
def drainOne (send : Tlp → Call User Unit) : Call User Unit := do
  let list ← outList
  let tail ← readCell list
  let cur ← readCell tail.next
  doSendTlpRaw send cur.data.words
  unlink tail.next

/-- The drain loop. -/
def drain (send : Tlp → Call User Unit) : Call User Unit :=
  Program.whileDo (fun bus => bus.tlpOutList.isSome) (drainOne send)

/-- A new cell, whose successor is not set yet, and its packet. -/
def newCell (tlp : Tlp) : Call User Nat := do
  let bus ← Program.getState
  Program.modifyState fun bus =>
    { bus with
      cells :=
        Function.update bus.cells bus.cellCount
          (some { data := tlp, next := 0 })
      cellCount := bus.cellCount + 1 }
  return bus.cellCount

/--
The body of `__pcie_tlp_send_tlp`, where `send` is the function as the callbacks
call it in the meantime.
-/
def sendTlpBody
    (send : Tlp → Call User Unit)
    (tlp : Tlp) : Call User Unit := do
  let cell ← newCell tlp
  let bus ← Program.getState
  match bus.tlpOutList with
  | none => do
      Program.modifyState fun bus => { bus with tlpOutList := some cell }
      setNext cell cell
      drain send
  | some list => do
      let tail ← readCell list
      setNext cell tail.next
      setNext list cell
      Program.modifyState fun bus => { bus with tlpOutList := some cell }

/-- `__pcie_tlp_send_tlp` with room for a number of nested calls. -/
def pcieTlpSendTlp : Nat → Tlp → Call User Unit
  | 0 => fun _ => failAt .stackOverflow
  | stack + 1 => sendTlpBody (pcieTlpSendTlp stack)

end

end Simbus.Pcie
