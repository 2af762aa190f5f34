import Simbus.Service.LineBuffer
import Simbus.Vpi.Vectors

/-!
# The read buffer of the VPI module

`consume_readable_data` fills the buffer of a bus port, from the polling and from
`read_message`, and `read_message` takes the lines off its front.  Behind the fill
the buffer holds a NUL and older bytes.
-/

namespace Simbus.Vpi

open Service

/-- The buffer of a `struct port_instance`; a NUL ends what it is filled with. -/
structure PortInstance where
  readBuf : Bytes
  readFil : Nat
  size : readBuf.length = maxMessage + 1
  inside : readFil ≤ maxMessage
  ended : readBuf[readFil]? = some nul

/-- A `read` or `memmove` to a place in a buffer. -/
def putBytes (buf : Bytes) (place : Nat) (bytes : Bytes) : Bytes :=
  buf.take place ++ bytes ++ buf.drop (place + bytes.length)

theorem length_putBytes
    {buf bytes : Bytes}
    {place : Nat}
    (fits : place + bytes.length ≤ buf.length) :
    (putBytes buf place bytes).length = buf.length := by
  rw [putBytes, List.length_append, List.length_append, List.length_take,
    List.length_drop]
  omega

/-- What lies before the end of the bytes that are put. -/
theorem take_putBytes
    {buf bytes : Bytes}
    {place : Nat}
    (fits : place ≤ buf.length) :
    (putBytes buf place bytes).take (place + bytes.length) =
      buf.take place ++ bytes := by
  have count : place + bytes.length = (buf.take place ++ bytes).length := by
    rw [List.length_append, List.length_take]
    omega
  rw [putBytes, count, List.take_left]

/-- The front of a buffer after some bytes were moved to it. -/
theorem putBytes_front
    {buf bytes : Bytes}
    {count : Nat}
    (enough : count ≤ bytes.length) :
    (if 0 < count then putBytes buf 0 (bytes.take count) else buf).take count =
      bytes.take count := by
  split
  · have moved := @take_putBytes buf (bytes.take count) 0 (Nat.zero_le _)
    rw [List.length_take, Nat.min_eq_left enough, Nat.zero_add] at moved
    exact moved
  · rename_i isZero
    rw [Nat.eq_zero_of_not_pos isZero, List.take_zero, List.take_zero]

namespace PortInstance

variable {inst : PortInstance}

/-- The bytes that a port has received and not yet returned. -/
def held (inst : PortInstance) : Bytes :=
  inst.readBuf.take inst.readFil

/-- The number of bytes a `read` is asked for. -/
def trans (inst : PortInstance) : Nat :=
  maxMessage + 1 - inst.readFil - 1

/-- A buffer with a new fill. -/
def fill
    (buf : Bytes)
    (fil : Nat)
    (size : buf.length = maxMessage + 1)
    (inside : fil ≤ maxMessage) : PortInstance where
  readBuf := buf.set fil nul
  readFil := fil
  size := by rw [List.length_set, size]
  inside := inside
  ended := by
    rw [List.getElem?_set_self (by omega)]

/-- `check_readable`. -/
def checkReadable (inst : PortInstance) : Bool :=
  (splitLine inst.readBuf).isSome

/--
`consume_readable_data`, for what its `read` returns: nothing at the end of the
connection, after an error or if nothing is asked for.
-/
def consumeReadableData (inst : PortInstance) (chunk : Bytes) : PortInstance :=
  let arrived := chunk.take inst.trans
  if arrived = [] then
    inst
  else
    fill (putBytes inst.readBuf inst.readFil arrived)
      (inst.readFil + arrived.length)
      (by
        have size := inst.size
        have inside := inst.inside
        rw [length_putBytes, size]
        simp only [arrived, List.length_take, trans]
        omega)
      (by
        have inside := inst.inside
        simp only [arrived, List.length_take, trans]
        omega)

/-- A newline is found before the end of the fill. -/
theorem splitLine_inside
    {line rest : Bytes}
    (split : splitLine inst.readBuf = some (line, rest)) :
    line.length < inst.readFil := by
  obtain ⟨shape, _, noNul⟩ := splitLine_eq_some_iff.mp split
  have ended := inst.ended
  rw [shape] at ended
  by_contra notInside
  rcases Nat.lt_or_eq_of_le (Nat.not_lt.mp notInside) with below | same
  · rw [List.getElem?_append_left below] at ended
    exact noNul (List.mem_of_getElem? ended)
  · rw [same, List.getElem?_append_right (Nat.le_refl _), Nat.sub_self] at ended
    cases ended

/-- What is behind a line can be moved to the front of the buffer. -/
theorem length_moved
    {cut : Bytes}
    (sameSize : cut.length = inst.readBuf.length)
    (from_ : Nat) :
    (if 0 < inst.readFil - from_ then
        putBytes cut 0 ((cut.drop from_).take (inst.readFil - from_))
      else
        cut).length = maxMessage + 1 := by
  have size := inst.size
  have inside := inst.inside
  split
  · rw [length_putBytes]
    · omega
    · rw [List.length_take, List.length_drop]
      omega
  · omega

theorem left_inside (inst : PortInstance) (from_ : Nat) :
    inst.readFil - from_ ≤ maxMessage := by
  have inside := inst.inside
  omega

/--
The branch of `read_message` that takes a line; both assertions hold for every
buffer.
-/
def takeLine (inst : PortInstance) : Option (Bytes × PortInstance) :=
  match splitLine inst.readBuf with
  | none => none
  | some (line, _) =>
      let cut := inst.readBuf.set line.length nul
      let fil := inst.readFil - (line.length + 1)
      let moved :=
        if 0 < fil then
          putBytes cut 0 ((cut.drop (line.length + 1)).take fil)
        else
          cut
      some (cut.takeWhile (· ≠ nul),
        fill moved fil (length_moved List.length_set _) (inst.left_inside _))

/--
`read_message`, for the results of its reads.  It leaves those that it does not need,
and still waits if they are not enough.
-/
def readMessage :
    List Bytes → PortInstance → Option (Bytes × PortInstance × List Bytes)
  | [], inst => inst.takeLine.map fun taken => (taken.1, taken.2, [])
  | chunk :: reads, inst =>
      match inst.takeLine with
      | some (line, inst) => some (line, inst, chunk :: reads)
      | none => readMessage reads (inst.consumeReadableData chunk)

/-- Each read returns no more than it was asked for. -/
def Delivered : PortInstance → List Bytes → Prop
  | _, [] => True
  | inst, chunk :: reads =>
      chunk.length ≤ inst.trans ∧
        Delivered (inst.consumeReadableData chunk) reads

/-! ## What a port holds -/

@[simp] theorem fill_held
    {buf : Bytes}
    {fil : Nat}
    (size : buf.length = maxMessage + 1)
    (inside : fil ≤ maxMessage) :
    (fill buf fil size inside).held = buf.take fil := by
  show (buf.set fil nul).take fil = buf.take fil
  rw [List.take_set_of_le (Nat.le_refl fil)]

theorem length_held (inst : PortInstance) : inst.held.length = inst.readFil := by
  have size := inst.size
  have inside := inst.inside
  rw [held, List.length_take]
  omega

/-- The fill, a NUL and what has been left behind it. -/
theorem readBuf_eq (inst : PortInstance) :
    ∃ behind, inst.readBuf = inst.held ++ nul :: behind := by
  have size := inst.size
  have inside := inst.inside
  have bounded : inst.readFil < inst.readBuf.length := by omega
  have ended := inst.ended
  rw [List.getElem?_eq_getElem bounded, Option.some.injEq] at ended
  refine ⟨inst.readBuf.drop (inst.readFil + 1), ?_⟩
  rw [held, ← ended, List.getElem_cons_drop, List.take_append_drop]

/-- A search does not go past a NUL. -/
theorem splitLine_append_nul (bytes behind : Bytes) :
    splitLine (bytes ++ nul :: behind) =
      (splitLine bytes).map fun split =>
        (split.1, split.2 ++ nul :: behind) := by
  induction bytes with
  | nil =>
      rfl
  | cons byte bytes inductionHypothesis =>
      rw [List.cons_append, splitLine, splitLine, inductionHypothesis]
      split
      · rfl
      split
      · rfl
      rw [Option.map_map, Option.map_map]
      rfl

/-- `check_readable` looks for a line in what the port holds. -/
theorem checkReadable_eq (inst : PortInstance) :
    inst.checkReadable = (splitLine inst.held).isSome := by
  obtain ⟨behind, shape⟩ := inst.readBuf_eq
  rw [checkReadable, shape, splitLine_append_nul, Option.isSome_map]

theorem held_consume_take (inst : PortInstance) (chunk : Bytes) :
    (inst.consumeReadableData chunk).held =
      inst.held ++ chunk.take inst.trans := by
  have size := inst.size
  have inside := inst.inside
  rw [consumeReadableData]
  split
  · rename_i isNil
    rw [isNil, List.append_nil]
  · rw [fill_held, take_putBytes (by omega)]
    rfl

theorem held_consume
    {chunk : Bytes}
    (bounded : chunk.length ≤ inst.trans) :
    (inst.consumeReadableData chunk).held = inst.held ++ chunk := by
  rw [held_consume_take, List.take_of_length_le bounded]

theorem takeLine_eq_none_iff :
    inst.takeLine = none ↔ splitLine inst.held = none := by
  obtain ⟨behind, shape⟩ := inst.readBuf_eq
  have same : splitLine inst.readBuf = none ↔ splitLine inst.held = none := by
    rw [shape, splitLine_append_nul, Option.map_eq_none_iff]
  rw [← same, takeLine]
  split
  · rename_i noLine
    exact ⟨fun _ => noLine, fun _ => rfl⟩
  · rename_i line rest split
    rw [split]
    constructor
    · intro isNone
      cases isNone
    · intro isNone
      cases isNone

/-- A line is taken off the front of what the port holds. -/
theorem takeLine_held
    {inst' : PortInstance}
    {line : Bytes}
    (taken : inst.takeLine = some (line, inst')) :
    splitLine inst.held = some (line, inst'.held) := by
  have size := inst.size
  have inside := inst.inside
  rw [takeLine] at taken
  split at taken
  · cases taken
  · rename_i first rest split
    have short := splitLine_inside split
    obtain ⟨shape, noNewline, noNul⟩ := splitLine_eq_some_iff.mp split
    have cut : inst.readBuf.set first.length nul = first ++ nul :: rest := by
      rw [shape, List.set_append_right _ _ (Nat.le_refl _), Nat.sub_self]
      rfl
    have whole : inst.held =
        first ++ newline :: rest.take (inst.readFil - (first.length + 1)) := by
      have count : inst.readFil =
          first.length + (inst.readFil - (first.length + 1) + 1) := by omega
      rw [held, shape]
      conv_lhs => rw [count]
      rw [List.take_length_add_append, List.take_succ_cons]
    obtain ⟨rfl, rfl⟩ := Prod.mk.inj (Option.some.inj taken)
    have isLine : (first ++ nul :: rest).takeWhile (· ≠ nul) = first := by
      rw [List.takeWhile_append_of_pos, List.takeWhile_cons_of_neg (by simp),
        List.append_nil]
      intro byte member
      refine decide_eq_true ?_
      rintro rfl
      exact noNul member
    have behind : (first ++ nul :: rest).drop (first.length + 1) = rest := by
      rw [List.drop_length_add_append]
      rfl
    have enough : inst.readFil - (first.length + 1) ≤ rest.length := by
      have lengths := congrArg List.length shape
      rw [List.length_append, List.length_cons] at lengths
      omega
    rw [fill_held, whole, cut, isLine, behind, splitLine_eq_some_iff]
    refine ⟨?_, noNewline, noNul⟩
    rw [putBytes_front enough]

/-! ## One call -/

theorem splitLine_append
    {bytes more line rest : Bytes}
    (split : splitLine bytes = some (line, rest)) :
    splitLine (bytes ++ more) = some (line, rest ++ more) := by
  obtain ⟨rfl, noNewline, noNul⟩ := splitLine_eq_some_iff.mp split
  refine splitLine_eq_some_iff.mpr ⟨?_, noNewline, noNul⟩
  rw [List.append_assoc, List.cons_append]

/-- A call returns the next line, and what follows it is held or not yet read. -/
theorem readMessage_received
    {inst' : PortInstance}
    {reads left : List Bytes}
    {line : Bytes}
    (delivered : inst.Delivered reads)
    (returned : inst.readMessage reads = some (line, inst', left)) :
    splitLine (inst.held ++ reads.flatten) =
      some (line, inst'.held ++ left.flatten) := by
  induction reads generalizing inst with
  | nil =>
      obtain ⟨⟨first, taken⟩, takes, pair⟩ := Option.map_eq_some_iff.mp returned
      cases pair
      rw [List.flatten_nil, List.append_nil, List.append_nil]
      exact takeLine_held takes
  | cons chunk reads inductionHypothesis =>
      rw [readMessage] at returned
      split at returned
      · rename_i takes
        cases returned
        exact splitLine_append (takeLine_held takes)
      · have received := inductionHypothesis delivered.2 returned
        rw [held_consume delivered.1, List.append_assoc] at received
        exact received

/-- A call returns once a line is complete. -/
theorem readMessage_returns
    {reads : List Bytes}
    {line after : Bytes}
    (delivered : inst.Delivered reads)
    (complete : splitLine (inst.held ++ reads.flatten) = some (line, after)) :
    ∃ inst' left, inst.readMessage reads = some (line, inst', left) := by
  induction reads generalizing inst with
  | nil =>
      rw [List.flatten_nil, List.append_nil] at complete
      cases takes : inst.takeLine with
      | none =>
          rw [takeLine_eq_none_iff.mp takes] at complete
          cases complete
      | some taken =>
          obtain ⟨first, inst'⟩ := taken
          rw [takeLine_held takes] at complete
          cases complete
          refine ⟨inst', [], ?_⟩
          rw [readMessage, takes]
          rfl
  | cons chunk reads inductionHypothesis =>
      rw [readMessage]
      cases takes : inst.takeLine with
      | none =>
          refine inductionHypothesis delivered.2 ?_
          rw [held_consume delivered.1, List.append_assoc]
          exact complete
      | some taken =>
          obtain ⟨first, inst'⟩ := taken
          rw [splitLine_append (takeLine_held takes)] at complete
          cases complete
          exact ⟨inst', chunk :: reads, rfl⟩

/-! ## Runs -/

/--
A run of a port: the lines that were returned, the bytes that were received and the
buffer.  A call is run with the reads that it needs.
-/
inductive PortRun (start : PortInstance) :
    List Bytes → Bytes → PortInstance → Prop where
  | start :
      PortRun start [] [] start
  | poll
      {returned : List Bytes}
      {received chunk : Bytes}
      {inst : PortInstance}
      (run : PortRun start returned received inst)
      (bounded : chunk.length ≤ inst.trans) :
      PortRun start returned (received ++ chunk)
        (inst.consumeReadableData chunk)
  | call
      {returned reads : List Bytes}
      {received line : Bytes}
      {inst inst' : PortInstance}
      (run : PortRun start returned received inst)
      (delivered : inst.Delivered reads)
      (returns : inst.readMessage reads = some (line, inst', [])) :
      PortRun start (returned ++ [line]) (received ++ reads.flatten) inst'

/-- Nothing of what was received is lost. -/
theorem PortRun.received_eq
    {start : PortInstance}
    {returned : List Bytes}
    {received : Bytes}
    (run : PortRun start returned received inst)
    (empty : start.held = []) :
    received = stream returned ++ inst.held ∧
      ∀ line ∈ returned, newline ∉ line := by
  induction run with
  | start =>
      rw [empty]
      exact ⟨rfl, List.forall_mem_nil _⟩
  | poll run bounded inductionHypothesis =>
      obtain ⟨rfl, oneLine⟩ := inductionHypothesis
      rw [held_consume bounded, List.append_assoc]
      exact ⟨rfl, oneLine⟩
  | @call returned reads received line inst inst' run delivered returns
      inductionHypothesis =>
      obtain ⟨rfl, oneLine⟩ := inductionHypothesis
      have split := readMessage_received delivered returns
      rw [List.flatten_nil, List.append_nil] at split
      obtain ⟨shape, noNewline, _⟩ := splitLine_eq_some_iff.mp split
      constructor
      · rw [List.append_assoc, shape, stream, stream, List.flatMap_append,
          List.flatMap_singleton, List.append_assoc, List.append_assoc]
        rfl
      · rw [List.forall_mem_append, List.forall_mem_singleton]
        exact ⟨oneLine, noNewline⟩

/-- Lines at the start of a stream of lines are its first lines. -/
theorem stream_append_eq
    {first lines : List Bytes}
    {tail : Bytes}
    (firstLines : ∀ line ∈ first, newline ∉ line)
    (allLines : ∀ line ∈ lines, newline ∉ line)
    (same : stream first ++ tail = stream lines) :
    ∃ remaining, lines = first ++ remaining ∧ tail = stream remaining := by
  induction first generalizing lines with
  | nil =>
      exact ⟨lines, rfl, same⟩
  | cons line first inductionHypothesis =>
      rw [List.forall_mem_cons] at firstLines
      cases lines with
      | nil =>
          simp at same
      | cons other lines =>
          rw [List.forall_mem_cons] at allLines
          simp only [stream_cons, List.append_assoc, List.cons_append] at same
          obtain ⟨rfl, tails⟩ := append_newline_inj firstLines.1 allLines.1 same
          obtain ⟨remaining, rfl, isTail⟩ :=
            inductionHypothesis firstLines.2 allLines.2 tails
          exact ⟨remaining, rfl, isTail⟩

/-- A line that the server sends: short enough with its newline. -/
structure PlainLine (line : Bytes) : Prop where
  oneLine : newline ∉ line
  noNul : nul ∉ line
  short : line.length + 1 ≤ maxMessage

/-- The next of the lines that have not been returned is in the buffer. -/
def NextHeld (inst : PortInstance) (remaining : List Bytes) : Prop :=
  ∃ line later, remaining = line :: later ∧ line ++ [newline] <+: inst.held

section Remaining

variable {remaining : List Bytes}
variable {rest : Bytes}

theorem splitLine_remaining
    {bytes : Bytes}
    (plain : ∀ line ∈ remaining, PlainLine line)
    (arrives : bytes ++ rest = stream remaining) :
    (∃ line later, remaining = line :: later ∧ line ++ [newline] <+: bytes) ↔
      (splitLine bytes).isSome = true := by
  constructor
  · rintro ⟨line, later, rfl, after, rfl⟩
    have isPlain := plain line List.mem_cons_self
    have split : splitLine (line ++ [newline] ++ after) = some (line, after) := by
      refine splitLine_eq_some_iff.mpr ⟨?_, isPlain.oneLine, isPlain.noNul⟩
      rw [List.append_assoc]
      rfl
    rw [split]
    rfl
  · intro isSome
    obtain ⟨⟨line, after⟩, split⟩ := Option.isSome_iff_exists.mp isSome
    obtain ⟨rfl, noNewline, _⟩ := splitLine_eq_some_iff.mp split
    cases remaining with
    | nil =>
        simp at arrives
    | cons first later =>
        have isPlain := plain first List.mem_cons_self
        rw [stream_cons, List.append_assoc, List.cons_append] at arrives
        obtain ⟨rfl, _⟩ :=
          append_newline_inj noNewline isPlain.oneLine arrives
        refine ⟨line, later, rfl, after, ?_⟩
        rw [List.append_assoc]
        rfl

/-- A port without a complete line has room for more. -/
theorem trans_pos
    (plain : ∀ line ∈ remaining, PlainLine line)
    (arrives : inst.held ++ rest = stream remaining)
    (some : remaining ≠ [])
    (noLine : ¬ inst.NextHeld remaining) :
    0 < inst.trans := by
  obtain ⟨line, later, rfl⟩ := List.exists_cons_of_ne_nil some
  have isPlain := plain line List.mem_cons_self
  have next : inst.held ++ rest = line ++ newline :: stream later := by
    rw [arrives, stream_cons]
  rcases arrived_cases isPlain.oneLine isPlain.noNul next with
    ⟨_, bounded⟩ | ⟨after, split, _⟩
  · have short := isPlain.short
    rw [length_held] at bounded
    rw [trans]
    omega
  · refine (noLine ((splitLine_remaining plain arrives).mpr ?_)).elim
    rw [split]
    rfl

end Remaining

/--
The calls of a run return the lines in order.  `check_readable` tells if the next one
is in the buffer; if it is not, there is room for more of it, and a call returns
it as soon as its reads have brought the rest.
-/
theorem PortRun.returns_lines
    {start : PortInstance}
    {returned lines : List Bytes}
    {received rest : Bytes}
    (run : PortRun start returned received inst)
    (empty : start.held = [])
    (plain : ∀ line ∈ lines, PlainLine line)
    (arrives : received ++ rest = stream lines) :
    ∃ remaining, lines = returned ++ remaining ∧
      inst.held ++ rest = stream remaining ∧
      (inst.checkReadable = true ↔ inst.NextHeld remaining) ∧
      (remaining ≠ [] → ¬ inst.NextHeld remaining → 0 < inst.trans) ∧
      ∀ line later reads, remaining = line :: later → inst.Delivered reads →
        line ++ [newline] <+: inst.held ++ reads.flatten →
          ∃ inst' left, inst.readMessage reads = some (line, inst', left) := by
  obtain ⟨isReceived, returnedLines⟩ := run.received_eq empty
  rw [isReceived, List.append_assoc] at arrives
  obtain ⟨remaining, rfl, isRest⟩ := stream_append_eq returnedLines
    (fun line member => (plain line member).oneLine) arrives
  have remainingPlain : ∀ line ∈ remaining, PlainLine line :=
    fun line member => plain line (List.mem_append_right _ member)
  refine ⟨remaining, rfl, isRest, ?_, trans_pos remainingPlain isRest, ?_⟩
  · rw [checkReadable_eq]
    exact (splitLine_remaining remainingPlain isRest).symm
  · rintro line later reads rfl delivered ⟨after, complete⟩
    have isPlain := remainingPlain line List.mem_cons_self
    refine @readMessage_returns _ reads line after delivered ?_
    rw [← complete, splitLine_eq_some_iff]
    refine ⟨?_, isPlain.oneLine, isPlain.noNul⟩
    rw [List.append_assoc]
    rfl

/-- The buffer of a port that has just connected. -/
def connected : PortInstance where
  readBuf := List.replicate (maxMessage + 1) nul
  readFil := 0
  size := List.length_replicate
  inside := Nat.zero_le _
  ended := rfl

/-- A line of one letter that is polled and then returned. -/
theorem connected_returns :
    ∃ inst, PortRun connected [[65]] [65, newline] inst ∧
      inst.held ++ [] = stream [] := by
  have polled : PortRun connected [] ([] ++ [65, newline])
      (connected.consumeReadableData [65, newline]) :=
    .poll .start (by decide)
  have holds : (connected.consumeReadableData [65, newline]).held =
      [65, newline] :=
    held_consume (by decide)
  let port := connected.consumeReadableData [65, newline]
  have delivered : port.Delivered [] := trivial
  have complete : splitLine (port.held ++ [].flatten) = some ([65], []) := by
    rw [holds]
    rfl
  obtain ⟨inst, left, returns⟩ := readMessage_returns delivered complete
  obtain rfl : left = [] := by
    obtain ⟨taken, _, pair⟩ := Option.map_eq_some_iff.mp returns
    exact (congrArg (·.2.2) pair).symm
  have run := polled.call delivered returns
  have plain : ∀ line ∈ [[65]], PlainLine line :=
    List.forall_mem_singleton.mpr ⟨by decide, by decide, by decide⟩
  have arrives : ([] ++ [65, newline] ++ [].flatten) ++ [] = stream [[65]] := rfl
  obtain ⟨remaining, isLines, isRest, _⟩ :=
    run.returns_lines rfl plain arrives
  obtain rfl : [] = remaining :=
    List.append_cancel_left ((List.append_nil _).trans isLines)
  exact ⟨inst, run, isRest⟩

/-! ## Streams that end -/

/-- The results of the first reads. -/
def firstReads (reads : Nat → Bytes) (count : Nat) : List Bytes :=
  (List.range count).map reads

/-- A call comes to its end, with the next line. -/
def Terminates (inst : PortInstance) (reads : Nat → Bytes) : Prop :=
  ∃ count line inst' left,
    inst.readMessage (firstReads reads count) = some (line, inst', left) ∧
      splitLine (inst.held ++ (firstReads reads count).flatten) =
        some (line, inst'.held ++ left.flatten)

/--
A call ends if and only if a whole line without a NUL is in the buffer or arrives.
At the end of the connection, after an error and with a full buffer, reads bring
nothing, and the call goes on with them.
-/
theorem readMessage_terminates_iff
    {reads : Nat → Bytes}
    (delivered : ∀ count, inst.Delivered (firstReads reads count)) :
    inst.Terminates reads ↔
      ∃ count,
        (splitLine (inst.held ++ (firstReads reads count).flatten)).isSome := by
  constructor
  · rintro ⟨count, line, inst', left, _, split⟩
    refine ⟨count, ?_⟩
    rw [split]
    rfl
  · rintro ⟨count, isSome⟩
    obtain ⟨⟨line, after⟩, complete⟩ := Option.isSome_iff_exists.mp isSome
    obtain ⟨inst', left, returns⟩ :=
      readMessage_returns (delivered count) complete
    exact ⟨count, line, inst', left, returns,
      readMessage_received (delivered count) returns⟩

/-- Reads that bring nothing are delivered. -/
theorem delivered_nothing (inst : PortInstance) (count : Nat) :
    inst.Delivered (List.replicate count []) := by
  have same : inst.consumeReadableData [] = inst := by
    simp [consumeReadableData]
  induction count with
  | zero =>
      trivial
  | succ count inductionHypothesis =>
      refine ⟨Nat.zero_le _, ?_⟩
      rw [same]
      exact inductionHypothesis

/-- An empty line that arrives before the end. -/
def oneRead : Nat → Bytes
  | 0 => [newline]
  | _ + 1 => []

theorem oneRead_terminates : connected.Terminates oneRead := by
  have first (count : Nat) : firstReads oneRead (count + 1) =
      [newline] :: List.replicate count [] := by
    rw [firstReads, List.range_succ_eq_map, List.map_cons, List.map_map]
    have later : oneRead ∘ Nat.succ = fun _ => [] := rfl
    rw [later, List.map_const', List.length_range]
    rfl
  refine (readMessage_terminates_iff ?_).mpr ⟨1, rfl⟩
  intro count
  cases count with
  | zero =>
      trivial
  | succ count =>
      rw [first]
      exact ⟨by decide, delivered_nothing _ count⟩

/-- A connection that ends before any line. -/
theorem endOfFile_not_terminates :
    (∀ count, connected.Delivered (firstReads (fun _ => []) count)) ∧
      ¬ connected.Terminates fun _ => [] := by
  have nothing (count : Nat) : firstReads (fun _ => []) count =
      List.replicate count [] := by
    simp [firstReads]
  constructor
  · intro count
    rw [nothing]
    exact delivered_nothing connected count
  · rintro ⟨count, line, inst', left, _, split⟩
    rw [nothing, List.flatten_replicate_nil] at split
    cases split

end PortInstance

end Simbus.Vpi
