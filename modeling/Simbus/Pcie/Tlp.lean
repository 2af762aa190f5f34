import Mathlib

/-!
# Transaction layer packets

The words of the packets that `simbus_pcie_tlp_write`, `simbus_pcie_tlp_read`
and the completer put together, and the fields that the receiver takes out of
them.
-/

namespace Simbus.Pcie

/-- `MAX_TLP`, the size of the receive buffer. -/
def maxTlp : Nat := 1024 + 8

/-- A packet that is sent, which has at least a header. -/
structure Tlp where
  words : List (BitVec 32)
  nonempty : words ≠ []
  deriving DecidableEq

/-! ## Byte order -/

/-- `byte_swap32`, for one word. -/
def byteSwap32 (src : BitVec 32) : BitVec 32 :=
  let dst := src &&& 0xff
  let dst := dst <<< 8
  let src := src >>> 8
  let dst := dst ||| (src &&& 0xff)
  let dst := dst <<< 8
  let src := src >>> 8
  let dst := dst ||| (src &&& 0xff)
  let dst := dst <<< 8
  let src := src >>> 8
  dst ||| (src &&& 0xff)

/-- The loop over the bytes of a word in the functions for writes and reads. -/
def swapLoop : Nat → BitVec 32 → BitVec 32 → BitVec 32
  | 0, tmp, _ => tmp
  | bytes + 1, tmp, val =>
      swapLoop bytes ((tmp <<< 8) ||| (val &&& 0xff)) (val >>> 8)

theorem byteSwap32_getLsbD
    (word : BitVec 32)
    {bit : Nat}
    (bounded : bit < 32) :
    (byteSwap32 word).getLsbD bit =
      word.getLsbD (24 - 8 * (bit / 8) + bit % 8) := by
  unfold byteSwap32
  simp only [BitVec.getLsbD_or, BitVec.getLsbD_and,
    BitVec.getLsbD_shiftLeft, BitVec.getLsbD_ushiftRight]
  interval_cases bit <;> simp

@[simp]
theorem byteSwap32_byteSwap32 (word : BitVec 32) :
    byteSwap32 (byteSwap32 word) = word := by
  apply BitVec.eq_of_getLsbD_eq
  intro bit bounded
  rw [byteSwap32_getLsbD _ bounded, byteSwap32_getLsbD _ (by omega)]
  congr 1
  omega

/-- The two ways to swap a word agree. -/
@[simp]
theorem swapLoop_eq_byteSwap32 (word : BitVec 32) :
    swapLoop 4 0 word = byteSwap32 word := by
  simp [swapLoop, byteSwap32]

/-! ## Headers -/

/-- `addr_h` and `addr_l`. -/
def addrHigh (addr : BitVec 64) : BitVec 32 :=
  (addr >>> 32).setWidth 32

def addrLow (addr : BitVec 64) : BitVec 32 :=
  addr.setWidth 32

/-- The second word of a request, without what is or-ed in before it. -/
def requester (requestId : BitVec 16) (tag : BitVec 8) : BitVec 32 :=
  (tag.setWidth 32 <<< 8) ||| (requestId.setWidth 32 <<< 16)

/-- The address words: one, or two if the high address bits are set. -/
def addressWords (addr : BitVec 64) : List (BitVec 32) :=
  if addrHigh addr = 0 then
    [addrLow addr]
  else
    [addrHigh addr, addrLow addr]

/-- `WRITE_TID`. -/
def writeTid : BitVec 8 := 0

/-- The byte enables of the first and the last word of a write. -/
def writeByteEnables (ndata off len : Nat) : BitVec 32 :=
  if ndata = 1 then
    let lmask : BitVec 32 := 0x0f &&& ~~~(0xf#32 <<< len)
    let omask : BitVec 32 := 0x0f &&& (0xf#32 <<< off)
    lmask &&& omask
  else
    let omask : BitVec 32 := 0xf &&& (0xf#32 <<< off)
    let olen := if (off + len) % 4 = 0 then 4 else (off + len) % 4
    let lmask : BitVec 32 := 0xf0 &&& ~~~(0xf0#32 <<< olen)
    lmask ||| omask

/-- The packet of `simbus_pcie_tlp_write`. -/
def writeTlp
    (requestId : BitVec 16)
    (addr : BitVec 64)
    (data : List (BitVec 32))
    (off len : Nat) : Tlp where
  words :=
    ((if addrHigh addr = 0 then 0x40000000 else 0x60000000) |||
        BitVec.ofNat 32 data.length) ::
      (writeByteEnables data.length off len |||
        requester requestId writeTid) ::
      (addressWords addr ++ data.map (swapLoop 4 0))
  nonempty := List.cons_ne_nil _ _

/-- The packet of `simbus_pcie_tlp_read`, which enables all bytes. -/
def readTlp
    (requestId : BitVec 16)
    (tag : BitVec 8)
    (addr : BitVec 64)
    (ndata : Nat) : Tlp where
  words :=
    ((if addrHigh addr = 0 then 0x00000000 else 0x20000000) |||
        BitVec.ofNat 32 ndata) ::
      ((if ndata = 1 then 0x0f else 0xff) ||| requester requestId tag) ::
      addressWords addr
  nonempty := List.cons_ne_nil _ _

/-- The function and the register of a configuration request. -/
def configAddress (busDevfn addr : BitVec 16) : BitVec 32 :=
  (busDevfn.setWidth 32 <<< 16) ||| (addr.setWidth 32 &&& 0x0ffc)

/-- The packet of the configuration writes, which transfer one word. -/
def cfgWriteTlp
    (requestId : BitVec 16)
    (tag : BitVec 8)
    (busDevfn addr : BitVec 16)
    (be val : BitVec 32) : Tlp where
  words :=
    [0x44000001, be ||| requester requestId tag, configAddress busDevfn addr,
      val]
  nonempty := List.cons_ne_nil _ _

/-- The packet of `simbus_pcie_tlp_cfg_read32`. -/
def cfgReadTlp
    (requestId : BitVec 16)
    (tag : BitVec 8)
    (busDevfn addr : BitVec 16) : Tlp where
  words :=
    [0x04000001, 0xf ||| requester requestId tag, configAddress busDevfn addr]
  nonempty := List.cons_ne_nil _ _

/-- The completion with the data of a read, whose second word is `request`. -/
def completionTlp
    (requestId : BitVec 16)
    (request : BitVec 32)
    (addr : BitVec 64)
    (ndata : Nat)
    (data : Nat → BitVec 32) : Tlp where
  words :=
    (0x4a000000 ||| BitVec.ofNat 32 ndata) ::
      ((requestId.setWidth 32 <<< 16) |||
        (BitVec.ofNat 32 (ndata * 4) &&& 0x0fff)) ::
      ((request &&& 0xffffff00) ||| (addr &&& 0x7f).setWidth 32) ::
      (List.range ndata).map data
  nonempty := List.cons_ne_nil _ _

/-! ## Fields -/

/-- Format and type. -/
def tlpType (header : BitVec 32) : BitVec 32 :=
  header &&& 0xff000000

/-- The number of data words. -/
def tlpLength (header : BitVec 32) : Nat :=
  (header &&& 0x03ff).toNat

/-- `be0`. -/
def firstByteEnables (request : BitVec 32) : BitVec 32 :=
  request &&& 0x0f

/-- `beN`. -/
def lastByteEnables (request : BitVec 32) : BitVec 32 :=
  (request &&& 0xf0) >>> 4

/-- The tag in the third word of a completion. -/
def completionTag (word : BitVec 32) : BitVec 8 :=
  ((word >>> 8) &&& 0xff).setWidth 8

/-- The status in the second word of a completion. -/
def completionStatus (word : BitVec 32) : BitVec 32 :=
  (word >>> 13) &&& 0x07

/-- The address from its two words. -/
def wideAddress (high low : BitVec 32) : BitVec 64 :=
  (high.setWidth 64 <<< 32) ||| low.setWidth 64

/-- A number below 1024 takes ten bits. -/
theorem ofNat_eq_setWidth
    {number : Nat}
    (bounded : number ≤ 0x3ff) :
    BitVec.ofNat 32 number = (BitVec.ofNat 10 number).setWidth 32 := by
  apply BitVec.eq_of_toNat_eq
  rw [BitVec.toNat_setWidth, BitVec.toNat_ofNat, BitVec.toNat_ofNat]
  omega

theorem tlpType_header
    {kind : BitVec 32}
    {ndata : Nat}
    (bounded : ndata ≤ 0x3ff)
    (isKind : kind &&& 0xff000000 = kind) :
    tlpType (kind ||| BitVec.ofNat 32 ndata) = kind := by
  rw [tlpType, ofNat_eq_setWidth bounded, BitVec.and_or_distrib_right,
    isKind]
  have none : (BitVec.ofNat 10 ndata).setWidth 32 &&& 0xff000000 =
      (0 : BitVec 32) := by
    apply BitVec.eq_of_getLsbD_eq
    intro bit bitBounded
    interval_cases bit <;> simp
  rw [none]
  simp

theorem tlpLength_header
    {kind : BitVec 32}
    {ndata : Nat}
    (bounded : ndata ≤ 0x3ff)
    (isKind : kind &&& 0x03ff = 0) :
    tlpLength (kind ||| BitVec.ofNat 32 ndata) = ndata := by
  rw [tlpLength, ofNat_eq_setWidth bounded, BitVec.and_or_distrib_right,
    isKind]
  have all : (BitVec.ofNat 10 ndata).setWidth 32 &&& (0x03ff : BitVec 32) =
      (BitVec.ofNat 10 ndata).setWidth 32 := by
    apply BitVec.eq_of_getLsbD_eq
    intro bit bitBounded
    interval_cases bit <;> simp
  rw [all]
  change (0#32 ||| (BitVec.ofNat 10 ndata).setWidth 32).toNat = ndata
  rw [BitVec.zero_or, BitVec.toNat_setWidth, BitVec.toNat_ofNat]
  omega

@[simp]
theorem firstByteEnables_request
    (enables : BitVec 32)
    (requestId : BitVec 16)
    (tag : BitVec 8) :
    firstByteEnables (enables ||| requester requestId tag) =
      firstByteEnables enables := by
  apply BitVec.eq_of_getLsbD_eq
  intro bit bitBounded
  unfold firstByteEnables requester
  interval_cases bit <;> simp

@[simp]
theorem lastByteEnables_request
    (enables : BitVec 32)
    (requestId : BitVec 16)
    (tag : BitVec 8) :
    lastByteEnables (enables ||| requester requestId tag) =
      lastByteEnables enables := by
  apply BitVec.eq_of_getLsbD_eq
  intro bit bitBounded
  unfold lastByteEnables requester
  interval_cases bit <;> simp

/-- The tag of a request comes back in its completion. -/
theorem completionTag_request
    {enables : BitVec 32}
    (requestId : BitVec 16)
    (tag : BitVec 8)
    (addr : BitVec 64)
    (narrow : enables &&& 0xff = enables) :
    completionTag
        (((enables ||| requester requestId tag) &&& 0xffffff00) |||
          (addr &&& 0x7f).setWidth 32) = tag := by
  rw [← narrow]
  apply BitVec.eq_of_getLsbD_eq
  intro bit bitBounded
  unfold completionTag requester
  interval_cases bit <;> simp

/-- Completions carry the status of success. -/
theorem completionStatus_success
    (requestId : BitVec 16)
    (count : BitVec 32) :
    completionStatus
        ((requestId.setWidth 32 <<< 16) ||| (count &&& 0x0fff)) = 0 := by
  apply BitVec.eq_of_getLsbD_eq
  intro bit bitBounded
  unfold completionStatus
  interval_cases bit <;> simp

theorem wideAddress_words (addr : BitVec 64) :
    wideAddress (addrHigh addr) (addrLow addr) = addr := by
  apply BitVec.eq_of_getLsbD_eq
  intro bit bitBounded
  unfold wideAddress addrHigh addrLow
  interval_cases bit <;> simp

/-- Without high bits the low word is the whole address. -/
theorem narrowAddress_word
    {addr : BitVec 64}
    (narrow : addrHigh addr = 0) :
    (addrLow addr).setWidth 64 = addr := by
  have whole := wideAddress_words addr
  rw [narrow] at whole
  simpa [wideAddress] using whole

end Simbus.Pcie
