import Simbus.ByteFormat
import Mathlib

/-!
# The compressed stream of an LXT2 trace

What the writer compresses goes through a buffer of its own, which is handed on
when it is full or when a part is complete.  The stream keeps what zlib has been
given; zlib itself is left out.
-/

set_option autoImplicit false

namespace Simbus.Lxt2

open ByteFormat

/-- `LXT2_WR_GZWRITE_BUFFER`. -/
def gzwriteBuffer : Nat := 4096

/-- `gzdest` up to `gzbufpnt`, and what `gzwrite` has taken. -/
structure GzStream where
  gzdest : List UInt8
  taken : List UInt8

namespace GzStream

/-- A stream as `gzdopen` returns it. -/
def opened : GzStream where
  gzdest := []
  taken := []

/-- `gzflush_buffered`. -/
def flushBuffered (stream : GzStream) : GzStream where
  gzdest := []
  taken := stream.taken ++ stream.gzdest

/-- `gzwrite_buffered`. -/
def writeBuffered (stream : GzStream) : GzStream :=
  if gzwriteBuffer < stream.gzdest.length then stream.flushBuffered else stream

/-- Put some bytes into `gzdest`, which has four places more than are kept. -/
def emit (stream : GzStream) (bytes : List UInt8) : Option GzStream :=
  if stream.gzdest.length + bytes.length ≤ gzwriteBuffer + 4 then
    some ({ stream with gzdest := stream.gzdest ++ bytes }).writeBuffered
  else
    none

/-- `lxt2_wr_emit_u8z`, `_u16z`, `_u24z` and `_u32z`. -/
def emitNumber (width number : Nat) (stream : GzStream) : Option GzStream :=
  stream.emit (bigEndian width number)

/-- `lxt2_wr_emit_u64z` for the halves of a word. -/
def emitU64z (number : Nat) (stream : GzStream) : Option GzStream := do
  let stream ← stream.emitNumber 4 (number >>> 32)
  stream.emitNumber 4 number

/-- `lxt2_wr_emit_stringz`. -/
def emitStringz (text : List UInt8) (stream : GzStream) : Option GzStream :=
  (zeroEnded text).foldlM (fun stream byte => stream.emit [byte]) stream

/-- A loop that puts items one after another. -/
def emitEach
    {ι : Type}
    (emitOne : ι → GzStream → Option GzStream)
    (items : List ι)
    (stream : GzStream) : Option GzStream :=
  items.foldlM (fun stream item => emitOne item stream) stream

/-- What has been put into the stream; `zpackcount` counts these bytes. -/
def contents (stream : GzStream) : List UInt8 :=
  stream.taken ++ stream.gzdest

/-- Between two calls the last four places of `gzdest` are free. -/
def HasRoom (stream : GzStream) : Prop :=
  stream.gzdest.length ≤ gzwriteBuffer

@[simp] theorem contents_opened : opened.contents = [] :=
  rfl

theorem opened_hasRoom : opened.HasRoom :=
  Nat.zero_le _

@[simp] theorem contents_flushBuffered (stream : GzStream) :
    stream.flushBuffered.contents = stream.contents :=
  List.append_nil _

theorem flushBuffered_hasRoom (stream : GzStream) :
    stream.flushBuffered.HasRoom :=
  Nat.zero_le _

/-- Some bytes have been added to a stream, and others can be. -/
def Adds (stream : GzStream) (bytes : List UInt8) (stream' : GzStream) : Prop :=
  stream'.HasRoom ∧ stream'.contents = stream.contents ++ bytes

/-- A call adds its bytes wherever there is room. -/
def Emits (call : GzStream → Option GzStream) (bytes : List UInt8) : Prop :=
  ∀ stream, stream.HasRoom → ∃ stream', call stream = some stream' ∧
    stream.Adds bytes stream'

theorem Emits.nil : Emits some [] :=
  fun stream room => ⟨stream, rfl, room, (List.append_nil _).symm⟩

theorem Emits.andThen
    {first next : GzStream → Option GzStream}
    {bytes bytes' : List UInt8}
    (emits : Emits first bytes)
    (emitsNext : Emits next bytes') :
    Emits (fun stream => (first stream).bind next) (bytes ++ bytes') := by
  intro stream room
  obtain ⟨middle, isMiddle, roomLeft, added⟩ := emits stream room
  obtain ⟨stream', isNext, roomLeft', added'⟩ := emitsNext middle roomLeft
  refine ⟨stream', ?_, roomLeft', ?_⟩
  · exact (congrArg (Option.bind · next) isMiddle).trans isNext
  · rw [added', added, List.append_assoc]

/-- Up to four bytes fit without a look at the buffer. -/
theorem emit_emits
    {bytes : List UInt8}
    (short : bytes.length ≤ 4) :
    Emits (·.emit bytes) bytes := by
  intro stream room
  have fits : stream.gzdest.length + bytes.length ≤ gzwriteBuffer + 4 :=
    Nat.add_le_add room short
  refine ⟨_, if_pos fits, ?_⟩
  rw [writeBuffered]
  split
  · refine ⟨flushBuffered_hasRoom _, ?_⟩
    rw [contents_flushBuffered]
    exact (List.append_assoc _ _ _).symm
  · rename_i notFull
    exact ⟨Nat.not_lt.mp notFull, (List.append_assoc _ _ _).symm⟩

theorem emitNumber_emits
    {width : Nat}
    (narrow : width ≤ 4)
    (number : Nat) :
    Emits (emitNumber width number) (bigEndian width number) := by
  apply emit_emits
  rw [length_bigEndian]
  exact narrow

theorem emitEach_emits
    {ι : Type}
    {emitOne : ι → GzStream → Option GzStream}
    {bytes : ι → List UInt8}
    {items : List ι}
    (emits : ∀ item ∈ items, Emits (emitOne item) (bytes item)) :
    Emits (emitEach emitOne items) (items.flatMap bytes) := by
  induction items with
  | nil =>
      exact .nil
  | cons item items inductionHypothesis =>
      rw [List.forall_mem_cons] at emits
      exact emits.1.andThen (inductionHypothesis emits.2)

theorem emitU64z_emits (number : Nat) :
    Emits (emitU64z number) (bigEndian 8 number) := by
  have halves : bigEndian 8 number =
      bigEndian 4 (number >>> 32) ++ bigEndian 4 number := by
    simp only [bigEndian, ← Nat.shiftRight_add]
    rfl
  rw [halves]
  exact (emitNumber_emits (Nat.le_refl 4) _).andThen
    (emitNumber_emits (Nat.le_refl 4) _)

theorem emitStringz_emits (text : List UInt8) :
    Emits (emitStringz text) (zeroEnded text) := by
  have emits : Emits
      (emitEach (fun byte stream => stream.emit [byte]) (zeroEnded text))
      ((zeroEnded text).flatMap fun byte => [byte]) :=
    emitEach_emits fun byte _ => emit_emits (Nat.le_add_left 1 3)
  rwa [List.flatMap_singleton'] at emits

end GzStream

end Simbus.Lxt2
