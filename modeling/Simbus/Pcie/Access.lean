import Simbus.Pcie.Client
import Simbus.Pcie.Beats

/-!
# Writes, reads and their completions

The calls that put a request together, and what the receiver makes of a
request or of a completion once all of its words are in the buffer.
-/

namespace Simbus.Pcie

open FourValued Clocked

variable {User : Type}

/-! ## Calls -/

/-- `__pcie_tlp_choose_tag`. -/
def pcieTlpChooseTag : Call User (BitVec 8) := do
  let bus ← Program.getState
  Program.modifyState fun bus =>
    { bus with
      tlpNextTag := BitVec.ofNat 8 ((bus.tlpNextTag.toNat + 1) % 32) }
  return bus.tlpNextTag

/-- The assertions about the arguments of a write or a read. -/
def checkRequest (ndata off len : Nat) : Call User Unit := do
  check .badRequest fun _ => ndata ≤ 0x3ff ∧ 1 ≤ ndata
  check .badRequest fun _ => off ≤ 3
  check .badRequest fun _ => off + len ≤ 4 * ndata

/-- `simbus_pcie_tlp_write`. -/
def simbusPcieTlpWrite
    (stack : Nat)
    (addr : BitVec 64)
    (data : List (BitVec 32))
    (off len : Nat) : Call User Unit := do
  checkRequest data.length off len
  let bus ← Program.getState
  callSendTlp (pcieTlpSendTlp stack)
    (writeTlp bus.requestId addr data off len)

/-- The loop of `simbus_pcie_tlp_read` that waits for the completion. -/
def awaitCompletion (stack : Nat) (tag : BitVec 8) : Call User Unit :=
  Program.whileDo (fun bus => bus.completions tag = none)
    (pcieTlpNextPosedge (pcieTlpSendTlp stack))

/-- The completion, whose slot is free again. -/
def takeCompletion (tag : BitVec 8) : Call User (List (BitVec 32)) := do
  let bus ← Program.getState
  match bus.completions tag with
  | none => failAt .danglingCell
  | some ctlp => do
      Program.modifyState fun bus =>
        { bus with completions := Function.update bus.completions tag none }
      return ctlp

/-- The data of a completion, by its status. -/
def readResult
    (ndata : Nat)
    (ctlp : List (BitVec 32)) : Call User (List (BitVec 32)) := do
  if completionStatus (ctlp.getD 1 0) = 0 then
    check .wrongLength fun _ => ndata = tlpLength (ctlp.getD 0 0)
    return (List.range ndata).map fun idx =>
      swapLoop 4 0 (ctlp.getD (3 + idx) 0)
  else
    return List.replicate ndata 0xffffffff

/-- `simbus_pcie_tlp_read`. -/
def simbusPcieTlpRead
    (stack : Nat)
    (addr : BitVec 64)
    (ndata off len : Nat) : Call User (List (BitVec 32)) := do
  checkRequest ndata off len
  check .badRequest fun _ => off = 0 ∧ len = ndata * 4
  let tag ← pcieTlpChooseTag
  let bus ← Program.getState
  callSendTlp (pcieTlpSendTlp stack)
    (readTlp bus.requestId tag addr ndata)
  awaitCompletion stack tag
  let ctlp ← takeCompletion tag
  readResult ndata ctlp

/-- The part that the configuration writes have in common. -/
def cfgWrite
    (stack : Nat)
    (busDevfn addr : BitVec 16)
    (be val : BitVec 32) : Call User Unit := do
  let tag ← pcieTlpChooseTag
  let bus ← Program.getState
  callSendTlp (pcieTlpSendTlp stack)
    (cfgWriteTlp bus.requestId tag busDevfn addr be val)
  awaitCompletion stack tag
  let _ ← takeCompletion tag

/-- `simbus_pcie_tlp_cfg_write32`. -/
def simbusPcieTlpCfgWrite32
    (stack : Nat)
    (busDevfn addr : BitVec 16)
    (val : BitVec 32) : Call User Unit :=
  cfgWrite stack busDevfn addr 0xf val

/-- `simbus_pcie_tlp_cfg_write16`; at an odd end the enables leave the word. -/
def simbusPcieTlpCfgWrite16
    (stack : Nat)
    (busDevfn addr : BitVec 16)
    (val : BitVec 16) : Call User Unit :=
  let shift := addr.toNat % 4
  cfgWrite stack busDevfn addr (3 <<< shift) (val.setWidth 32 <<< (8 * shift))

/-- `simbus_pcie_tlp_cfg_write8`. -/
def simbusPcieTlpCfgWrite8
    (stack : Nat)
    (busDevfn addr : BitVec 16)
    (val : BitVec 8) : Call User Unit :=
  let shift := addr.toNat % 4
  cfgWrite stack busDevfn addr (1 <<< shift) (val.setWidth 32 <<< (8 * shift))

/-- `simbus_pcie_tlp_cfg_read32`. -/
def simbusPcieTlpCfgRead32
    (stack : Nat)
    (busDevfn addr : BitVec 16) : Call User (BitVec 32) := do
  let tag ← pcieTlpChooseTag
  let bus ← Program.getState
  callSendTlp (pcieTlpSendTlp stack)
    (cfgReadTlp bus.requestId tag busDevfn addr)
  awaitCompletion stack tag
  let ctlp ← takeCompletion tag
  if completionStatus (ctlp.getD 1 0) = 0 then
    check .wrongLength fun _ => tlpLength (ctlp.getD 0 0) = 1
    return ctlp.getD 3 0
  else
    return 0xffffffff

/-! ## Requests -/

/-- The arguments that the assertions ask for. -/
structure RequestFits (ndata off len : Nat) : Prop where
  one_le : 1 ≤ ndata
  le : ndata ≤ 0x3ff
  off_le : off ≤ 3
  inside : off + len ≤ 4 * ndata

section

variable {ndata off len : Nat}
variable {bus : SimbusPcieTlp User}

theorem checkRequest_fits
    (fits : RequestFits ndata off len) :
    (checkRequest ndata off len).start bus = .finish () bus := by
  obtain ⟨one_le, le, off_le, inside⟩ := fits
  simp [checkRequest, check, one_le, le, off_le, inside]

/-- A write passes its packet on. -/
theorem simbusPcieTlpWrite_sends
    {data : List (BitVec 32)}
    (fits : RequestFits data.length off len)
    (stack : Nat)
    (addr : BitVec 64) :
    (simbusPcieTlpWrite stack addr data off len).start bus =
      (callSendTlp (pcieTlpSendTlp stack)
        (writeTlp bus.requestId addr data off len)).start bus := by
  simp [simbusPcieTlpWrite, checkRequest_fits fits]

/-- The client has chosen a tag. -/
def SimbusPcieTlp.choseTag
    (bus : SimbusPcieTlp User) : SimbusPcieTlp User :=
  { bus with
    tlpNextTag := BitVec.ofNat 8 ((bus.tlpNextTag.toNat + 1) % 32) }

/-- A read passes its packet on and waits for the completion. -/
theorem simbusPcieTlpRead_sends
    (fits : RequestFits ndata 0 (ndata * 4))
    (stack : Nat)
    (addr : BitVec 64) :
    (simbusPcieTlpRead stack addr ndata 0 (ndata * 4)).start bus =
      ((callSendTlp (pcieTlpSendTlp stack)
        (readTlp bus.requestId bus.tlpNextTag addr ndata)).start
          bus.choseTag).bind fun _ =>
            (do
              awaitCompletion stack bus.tlpNextTag
              let ctlp ← takeCompletion bus.tlpNextTag
              readResult ndata ctlp :
                Call User (List (BitVec 32))).start := by
  simp [simbusPcieTlpRead, checkRequest_fits fits, check, pcieTlpChooseTag,
    SimbusPcieTlp.choseTag]

end

/-! ## What the receiver does with a packet -/

section

variable (send : Tlp → Call User Unit)
variable {bus : SimbusPcieTlp User}
variable {words : List (BitVec 32)}

theorem received_count
    (received : bus.received = words) :
    bus.sTlpCnt = words.length := by
  rw [← received, SimbusPcieTlp.received, List.length_map,
    List.length_range]

theorem received_word
    (received : bus.received = words)
    {idx : Nat}
    {word : BitVec 32}
    (isWord : words[idx]? = some word) :
    bus.sTlpBuf idx = word := by
  rw [← received, SimbusPcieTlp.received, List.getElem?_map] at isWord
  obtain ⟨idx', isIdx, same⟩ := Option.map_eq_some_iff.mp isWord
  rw [List.getElem?_range (by
    have bounded := (List.getElem?_eq_some_iff.mp isIdx).1
    rwa [List.length_range] at bounded)] at isIdx
  obtain rfl := Option.some.inj isIdx
  exact same

/-- The words from a position on are the data behind the header. -/
theorem received_data
    {header data : List (BitVec 32)}
    (received : bus.received = header ++ data) :
    (List.range data.length).map
        (fun idx => bus.sTlpBuf (header.length + idx)) = data := by
  apply List.ext_getElem?
  intro idx
  rw [List.getElem?_map]
  cases isWord : data[idx]? with
  | none =>
      rw [List.getElem?_eq_none_iff] at isWord
      rw [List.getElem?_eq_none (by rwa [List.length_range])]
      rfl
  | some word =>
      have bounded := (List.getElem?_eq_some_iff.mp isWord).1
      rw [List.getElem?_range bounded, Option.map_some]
      congr 1
      refine received_word received ?_
      rw [List.getElem?_append_right (by omega), Nat.add_sub_cancel_left,
        isWord]

/-- The data of a write go to the callback in their own byte order. -/
theorem recvWrite_calls
    {header data : List (BitVec 32)}
    {writeFun : WriteFun User}
    (received : bus.received = header ++ data.map (swapLoop 4 0))
    (length : tlpLength (bus.sTlpBuf 0) = data.length)
    (callback : bus.writeFun = some writeFun)
    (addr : BitVec 64) :
    ∃ buf, (recvWrite send header.length addr).start bus =
      (runScript send
        (writeFun addr data (firstByteEnables (bus.sTlpBuf 1))
          (lastByteEnables (bus.sTlpBuf 1)))).start
        { bus with sTlpBuf := buf } := by
  have words := received_data received
  rw [List.length_map] at words
  have swapped : (List.range data.length).map (fun idx =>
      if header.length ≤ header.length + idx ∧
          header.length + idx < header.length + data.length then
        byteSwap32 (bus.sTlpBuf (header.length + idx))
      else
        bus.sTlpBuf (header.length + idx)) = data := by
    calc
      _ = ((List.range data.length).map
            (fun idx => bus.sTlpBuf (header.length + idx))).map
              byteSwap32 := by
        rw [List.map_map]
        apply List.map_congr_left
        intro idx member
        have bounded := List.mem_range.mp member
        rw [if_pos ⟨by omega, by omega⟩]
        rfl
      _ = data := by
        rw [words, List.map_map]
        have same : (byteSwap32 ∘ swapLoop 4 0) = id := by
          funext word
          rw [Function.comp_apply, swapLoop_eq_byteSwap32,
            byteSwap32_byteSwap32]
          rfl
        rw [same, List.map_id]
  refine ⟨fun idx =>
    if header.length ≤ idx ∧ idx < header.length + data.length then
      byteSwap32 (bus.sTlpBuf idx)
    else
      bus.sTlpBuf idx, ?_⟩
  simp only [recvWrite, Program.start_bind, Program.start_getState,
    Behavior.finish_bind, callback, swapBuffer, Program.start_modifyState,
    length]
  rw [swapped]

/-- The buffer has been handled, and makes room for the next packet. -/
def SimbusPcieTlp.emptied
    (bus : SimbusPcieTlp User) : SimbusPcieTlp User :=
  { bus with sTlpCnt := 0 }

/-- What follows the part that depends on the type. -/
theorem completeRecvTlp_start
    {first : BitVec 32}
    {others : List (BitVec 32)}
    (received : bus.received = first :: others) :
    (completeRecvTlp send).start bus =
      ((dispatchTlp send).start bus).bind fun tlp bus' =>
        match tlp with
        | none => .finish () bus'.emptied
        | some tlp => (callSendTlp send tlp).start bus'.emptied := by
  have arrived : 1 ≤ bus.sTlpCnt := by
    rw [received_count received, List.length_cons]
    exact Nat.le_add_left 1 _
  have passes :
      (check .emptyPacket fun bus : SimbusPcieTlp User =>
        1 ≤ bus.sTlpCnt).start bus = .finish () bus := by
    simp [check, arrived]
  rw [completeRecvTlp, Program.start_bind, passes, Behavior.finish_bind,
    Program.start_bind]
  congr 1
  funext tlp bus'
  cases tlp <;> rfl

/-- The receiver takes a write request apart. -/
theorem dispatchTlp_write
    {requestId : BitVec 16}
    {addr : BitVec 64}
    {data : List (BitVec 32)}
    {off len : Nat}
    (fits : data.length ≤ 0x3ff)
    (received :
      bus.received = (writeTlp requestId addr data off len).words) :
    tlpLength (bus.sTlpBuf 0) = data.length ∧
      (dispatchTlp send).start bus =
        ((recvWrite send (2 + (addressWords addr).length) addr).start
          bus).bind fun _ => .finish none := by
  have word0 := @received_word _ _ _ received 0 _ rfl
  by_cases narrow : addrHigh addr = 0
  · have address : addressWords addr = [addrLow addr] := if_pos narrow
    rw [if_pos narrow] at word0
    have kind : tlpType (bus.sTlpBuf 0) = 0x40000000 := by
      rw [word0]
      exact tlpType_header fits rfl
    have length : tlpLength (bus.sTlpBuf 0) = data.length := by
      rw [word0]
      exact tlpLength_header fits rfl
    simp only [writeTlp, address] at received
    have word2 := @received_word _ _ _ received 2 _ rfl
    refine ⟨length, ?_⟩
    simp [dispatchTlp, kind, word2, narrowAddress_word narrow, address]
  · have address : addressWords addr = [addrHigh addr, addrLow addr] :=
      if_neg narrow
    rw [if_neg narrow] at word0
    have kind : tlpType (bus.sTlpBuf 0) = 0x60000000 := by
      rw [word0]
      exact tlpType_header fits rfl
    have length : tlpLength (bus.sTlpBuf 0) = data.length := by
      rw [word0]
      exact tlpLength_header fits rfl
    simp only [writeTlp, address] at received
    have word2 := @received_word _ _ _ received 2 _ rfl
    have word3 := @received_word _ _ _ received 3 _ rfl
    refine ⟨length, ?_⟩
    simp [dispatchTlp, kind, word2, word3, wideAddress_words, address]

/-- A write request is handed to the callback, once. -/
theorem completeRecvTlp_write
    {requestId : BitVec 16}
    {addr : BitVec 64}
    {data : List (BitVec 32)}
    {off len : Nat}
    {writeFun : WriteFun User}
    (fits : data.length ≤ 0x3ff)
    (received : bus.received = (writeTlp requestId addr data off len).words)
    (callback : bus.writeFun = some writeFun) :
    ∃ buf, (completeRecvTlp send).start bus =
      ((runScript send
        (writeFun addr data
          (firstByteEnables (writeByteEnables data.length off len))
          (lastByteEnables (writeByteEnables data.length off len)))).start
        { bus with sTlpBuf := buf }).bind fun _ bus' =>
          .finish () bus'.emptied := by
  have word1 := @received_word _ _ _ received 1 _ rfl
  obtain ⟨length, dispatch⟩ := dispatchTlp_write send fits received
  obtain ⟨head, request, shape⟩ : ∃ head request, bus.received =
      (head :: request :: addressWords addr) ++ data.map (swapLoop 4 0) :=
    ⟨_, _, received⟩
  obtain ⟨buf, calls⟩ := recvWrite_calls send shape length callback addr
  rw [word1, firstByteEnables_request, lastByteEnables_request] at calls
  refine ⟨buf, ?_⟩
  have position : 2 + (addressWords addr).length =
      (head :: request :: addressWords addr).length := by
    rw [List.length_cons, List.length_cons]
    omega
  rw [completeRecvTlp_start send received, dispatch, position, calls,
    Behavior.bind_assoc]
  rfl

/-- The receiver takes a read request apart. -/
theorem dispatchTlp_read
    {requestId : BitVec 16}
    {tag : BitVec 8}
    {addr : BitVec 64}
    {ndata : Nat}
    (fits : ndata ≤ 0x3ff)
    (received : bus.received = (readTlp requestId tag addr ndata).words) :
    tlpLength (bus.sTlpBuf 0) = ndata ∧
      (dispatchTlp send).start bus =
        ((recvRead send addr).start bus).bind fun tlp =>
          .finish (some tlp) := by
  have word0 := @received_word _ _ _ received 0 _ rfl
  by_cases narrow : addrHigh addr = 0
  · have address : addressWords addr = [addrLow addr] := if_pos narrow
    rw [if_pos narrow] at word0
    have kind : tlpType (bus.sTlpBuf 0) = 0x00000000 := by
      rw [word0]
      exact tlpType_header fits rfl
    have length : tlpLength (bus.sTlpBuf 0) = ndata := by
      rw [word0]
      exact tlpLength_header fits rfl
    simp only [readTlp, address] at received
    have word2 := @received_word _ _ _ received 2 _ rfl
    refine ⟨length, ?_⟩
    simp [dispatchTlp, kind, word2, narrowAddress_word narrow]
  · have address : addressWords addr = [addrHigh addr, addrLow addr] :=
      if_neg narrow
    rw [if_neg narrow] at word0
    have kind : tlpType (bus.sTlpBuf 0) = 0x20000000 := by
      rw [word0]
      exact tlpType_header fits rfl
    have length : tlpLength (bus.sTlpBuf 0) = ndata := by
      rw [word0]
      exact tlpLength_header fits rfl
    simp only [readTlp, address] at received
    have word2 := @received_word _ _ _ received 2 _ rfl
    have word3 := @received_word _ _ _ received 3 _ rfl
    refine ⟨length, ?_⟩
    simp [dispatchTlp, kind, word2, word3, wideAddress_words]

/-- The byte enables of a read of whole words. -/
def readByteEnables (ndata : Nat) : BitVec 32 :=
  if ndata = 1 then 0x0f else 0xff

/-- The completion that a read request is answered with. -/
def answerTlp
    (completer requestId : BitVec 16)
    (tag : BitVec 8)
    (addr : BitVec 64)
    (ndata : Nat)
    (data : Nat → BitVec 32) : Tlp :=
  completionTlp completer (readByteEnables ndata ||| requester requestId tag)
    addr ndata fun idx => byteSwap32 (data idx)

/-- A read request is handed to the callback and answered with its data. -/
theorem completeRecvTlp_read
    {requestId : BitVec 16}
    {tag : BitVec 8}
    {addr : BitVec 64}
    {ndata : Nat}
    {readFun : ReadFun User}
    (fits : ndata ≤ 0x3ff)
    (received : bus.received = (readTlp requestId tag addr ndata).words)
    (callback : bus.readFun = some readFun) :
    (completeRecvTlp send).start bus =
      ((runScript send
        (readFun addr ndata (firstByteEnables (readByteEnables ndata))
          (lastByteEnables (readByteEnables ndata)))).start bus).bind
        fun data bus' =>
          (callSendTlp send
            (answerTlp bus.requestId requestId tag addr ndata data)).start
              bus'.emptied := by
  have word1 : bus.sTlpBuf 1 =
      readByteEnables ndata ||| requester requestId tag :=
    @received_word _ _ _ received 1 _ rfl
  obtain ⟨length, dispatch⟩ := dispatchTlp_read send fits received
  rw [completeRecvTlp_start send received, dispatch]
  simp [recvRead, length, callback, word1, Behavior.bind_assoc, answerTlp]

theorem tag_answer
    (requestId : BitVec 16)
    (tag : BitVec 8)
    (addr : BitVec 64)
    (ndata : Nat) :
    completionTag
        (((readByteEnables ndata ||| requester requestId tag) &&&
          0xffffff00) ||| (addr &&& 0x7f).setWidth 32) = tag := by
  refine completionTag_request requestId tag addr ?_
  unfold readByteEnables
  split <;> rfl

/-- A completion goes to the slot of its tag. -/
theorem completeRecvTlp_completion
    {completer requestId : BitVec 16}
    {tag : BitVec 8}
    {addr : BitVec 64}
    {ndata : Nat}
    {data : Nat → BitVec 32}
    (fits : ndata ≤ 0x3ff)
    (received : bus.received =
      (answerTlp completer requestId tag addr ndata data).words)
    (free : bus.completions tag = none) :
    (completeRecvTlp send).start bus =
      .finish ()
        { bus with
          completions := Function.update bus.completions tag
            (some (answerTlp completer requestId tag addr ndata data).words)
          sTlpCnt := 0 } := by
  have word0 := @received_word _ _ _ received 0 _ rfl
  have word2 := @received_word _ _ _ received 2 _ rfl
  have kind : tlpType (bus.sTlpBuf 0) = 0x4a000000 := by
    rw [word0]
    exact tlpType_header fits rfl
  have length : tlpLength (bus.sTlpBuf 0) = ndata := by
    rw [word0]
    exact tlpLength_header fits rfl
  have isTag : completionTag (bus.sTlpBuf 2) = tag := by
    rw [word2]
    exact tag_answer requestId tag addr ndata
  have count : bus.sTlpCnt = 3 + ndata := by
    rw [received_count received]
    simp [answerTlp, completionTlp]
    omega
  have copied : (List.range (3 + ndata)).map bus.sTlpBuf =
      (answerTlp completer requestId tag addr ndata data).words := by
    rw [← received, SimbusPcieTlp.received, count]
  rw [completeRecvTlp_start send received]
  simp [dispatchTlp, kind, isTag, length, copyTlpToCompletion, check, free,
    count, copied, SimbusPcieTlp.emptied]

/-- A read returns the data of its completion. -/
theorem readResult_answer
    {completer requestId : BitVec 16}
    {tag : BitVec 8}
    {addr : BitVec 64}
    {ndata : Nat}
    {data : Nat → BitVec 32}
    (fits : ndata ≤ 0x3ff) :
    (readResult ndata
        (answerTlp completer requestId tag addr ndata data).words).start bus =
      .finish ((List.range ndata).map data) bus := by
  have status : completionStatus
      ((answerTlp completer requestId tag addr ndata data).words.getD 1 0) =
        0 :=
    completionStatus_success completer _
  have length : tlpLength
      ((answerTlp completer requestId tag addr ndata data).words.getD 0 0) =
        ndata :=
    tlpLength_header fits rfl
  have words : (List.range ndata).map (fun idx => swapLoop 4 0
      ((answerTlp completer requestId tag addr ndata data).words.getD
        (3 + idx) 0)) = (List.range ndata).map data := by
    apply List.map_congr_left
    intro idx member
    have isWord : (answerTlp completer requestId tag addr ndata data).words.getD
        (3 + idx) 0 = byteSwap32 (data idx) := by
      rw [Nat.add_comm, List.getD_eq_getElem?_getD]
      change (((List.range ndata).map fun idx => byteSwap32 (data idx))[idx]?).getD
        0 = _
      rw [List.getElem?_map, List.getElem?_range (List.mem_range.mp member)]
      rfl
    rw [isWord, swapLoop_eq_byteSwap32, byteSwap32_byteSwap32]
  rw [readResult, if_pos status]
  simp only [Program.start_bind, check, length, decide_true, ↓reduceIte,
    Behavior.finish_bind, Program.start_pure, words]

end

end Simbus.Pcie
