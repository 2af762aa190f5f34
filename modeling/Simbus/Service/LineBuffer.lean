import Simbus.Backlog
import Mathlib

/-!
# The input buffer of a client connection

`client_state_t::read_from_socket` for the data that arrives: each read appends
to the buffer, and at most one line is then taken off its front.  The run lemmas
say which lines a series of reads takes off, and from the backlog of lines
follows when that is every line that was sent.
-/

namespace Simbus.Service

/-- What is sent over a connection. -/
abbrev Bytes := List UInt8

def newline : UInt8 := 10

def nul : UInt8 := 0

/-- `white_space`. -/
def whiteSpace : List UInt8 := [32, 13]

/-- The size of `buffer_`. -/
def bufferSize : Nat := 4096

/-- The size of `argv`, which also takes a null pointer at its end. -/
def argvSize : Nat := 2048

/-! ## Lines and words -/

/--
`strchr(buffer_, '\n')`: the line before the newline and what follows it.  The
search ends at the first NUL.
-/
def splitLine : Bytes → Option (Bytes × Bytes)
  | [] => none
  | byte :: rest =>
      if byte = newline then
        some ([], rest)
      else if byte = nul then
        none
      else
        (splitLine rest).map fun split => (byte :: split.1, split.2)

/-- The words of a line; white space at its start makes an empty word. -/
def argv : Bytes → List Bytes
  | [] => []
  | byte :: rest =>
      let cp := byte :: rest
      let word := cp.takeWhile fun byte => byte ∉ whiteSpace
      let afterWord := cp.dropWhile fun byte => byte ∉ whiteSpace
      word :: argv ((afterWord.drop 1).dropWhile fun byte => byte ∈ whiteSpace)
termination_by line => line.length
decreasing_by
  have restShort :
      ((afterWord.drop 1).dropWhile fun byte => byte ∈ whiteSpace).length ≤
        afterWord.length - 1 := by
    rw [← List.length_drop]
    exact (List.dropWhile_suffix _).length_le
  have afterWordShort : afterWord.length ≤ (byte :: rest).length :=
    (List.dropWhile_suffix _).length_le
  refine Nat.lt_of_le_of_lt restShort ?_
  rw [List.length_cons] at afterWordShort ⊢
  omega

theorem splitLine_eq_some_iff
    {bytes line rest : Bytes} :
    splitLine bytes = some (line, rest) ↔
      bytes = line ++ newline :: rest ∧ newline ∉ line ∧ nul ∉ line := by
  induction bytes generalizing line with
  | nil =>
      simp [splitLine]
  | cons byte bytes inductionHypothesis =>
      rw [splitLine]
      by_cases isNewline : byte = newline
      · subst isNewline
        rw [if_pos rfl]
        constructor
        · rintro ⟨⟩
          simp
        · rintro ⟨shape, noNewline, _⟩
          cases line with
          | nil =>
              obtain ⟨_, rfl⟩ := List.cons.inj shape
              rfl
          | cons first line =>
              obtain ⟨rfl, _⟩ := List.cons.inj shape
              exact (noNewline List.mem_cons_self).elim
      · rw [if_neg isNewline]
        by_cases isNul : byte = nul
        · subst isNul
          rw [if_pos rfl]
          constructor
          · rintro ⟨⟩
          · rintro ⟨shape, _, noNul⟩
            cases line with
            | nil =>
                exact (isNewline (List.cons.inj shape).1).elim
            | cons first line =>
                obtain ⟨rfl, _⟩ := List.cons.inj shape
                exact (noNul List.mem_cons_self).elim
        · rw [if_neg isNul, Option.map_eq_some_iff]
          constructor
          · rintro ⟨⟨before, after⟩, split, pair⟩
            obtain ⟨rfl, rfl⟩ := Prod.mk.inj pair
            obtain ⟨rfl, noNewline, noNul⟩ := inductionHypothesis.mp split
            simp [noNewline, noNul, Ne.symm isNewline, Ne.symm isNul]
          · rintro ⟨shape, noNewline, noNul⟩
            cases line with
            | nil =>
                exact (isNewline (List.cons.inj shape).1).elim
            | cons first line =>
                obtain ⟨rfl, rfl⟩ := List.cons.inj shape
                rw [List.mem_cons, not_or] at noNewline noNul
                exact ⟨(line, rest),
                  inductionHypothesis.mpr ⟨rfl, noNewline.2, noNul.2⟩, rfl⟩

/-! ## The buffer -/

/--
The buffer of a connection with its fill below the size, and the commands that
were passed to `process_client_command_` so far.
-/
structure LineReader where
  buffer : Bytes
  fits : buffer.length < bufferSize
  commands : List (List Bytes)

namespace LineReader

/-- A connection that has received nothing. -/
def init : LineReader where
  buffer := []
  fits := by decide
  commands := []

/-- The number of bytes a `read` is asked for. -/
def room (reader : LineReader) : Nat :=
  bufferSize - reader.buffer.length - 1

/-- The buffer after a read, which brings no more than it was asked for. -/
def receive (reader : LineReader) (chunk : Bytes) : LineReader where
  buffer := reader.buffer ++ chunk.take reader.room
  fits := by
    have fits := reader.fits
    rw [List.length_append, List.length_take, room]
    omega
  commands := reader.commands

/-- Execute a line and move what follows it to the front of the buffer. -/
def execute
    (reader : LineReader)
    (line rest : Bytes)
    (shorter : rest.length ≤ reader.buffer.length) : LineReader where
  buffer := rest
  fits := Nat.lt_of_le_of_lt shorter reader.fits
  commands := reader.commands ++ [argv line]

end LineReader

/--
A line that can be executed: its words fit into `argv`, and there is a first
word that `process_client_command_` can compare.
-/
def Executable (line : Bytes) : Prop :=
  argv line ≠ [] ∧ (argv line).length < argvSize

instance (line : Bytes) : Decidable (Executable line) :=
  inferInstanceAs (Decidable (_ ∧ _))

theorem splitLine_shorter
    {bytes line rest : Bytes}
    (split : splitLine bytes = some (line, rest)) :
    rest.length < bytes.length := by
  obtain ⟨rfl, _⟩ := splitLine_eq_some_iff.mp split
  rw [List.length_append, List.length_cons]
  omega

/--
The buffer in a `read_from_socket` that returns data, while every command comes
back.  A full buffer fails the assertion, and a line that cannot be executed
accesses memory that is not there.
-/
def LineReader.readData
    (reader : LineReader)
    (chunk : Bytes) : Option LineReader :=
  if 0 < reader.room then
    let received := reader.receive chunk
    match split : splitLine received.buffer with
    | none => some received
    | some (line, rest) =>
        if Executable line then
          some (received.execute line rest (Nat.le_of_lt (splitLine_shorter split)))
        else
          none
  else
    none

/-- A series of reads. -/
def LineReader.readAll : LineReader → List Bytes → Option LineReader
  | reader, [] => some reader
  | reader, chunk :: rest =>
      (reader.readData chunk).bind fun reader => readAll reader rest

/-- Each read returns something, and no more than it was asked for. -/
def LineReader.Delivered : LineReader → List Bytes → Prop
  | _, [] => True
  | reader, chunk :: rest =>
      chunk ≠ [] ∧
        (0 < reader.room → chunk.length ≤ reader.room) ∧
        ∀ reader' ∈ reader.readData chunk, Delivered reader' rest

/-! ## Streams of lines -/

/-- A command line: without its newline, and shorter than the buffer with it. -/
structure CommandLine where
  bytes : Bytes
  oneLine : newline ∉ bytes
  short : bytes.length + 1 < bufferSize

/-- What a client sends for some lines. -/
def stream (lines : List Bytes) : Bytes :=
  lines.flatMap fun line => line ++ [newline]

@[simp]
theorem stream_nil : stream [] = [] := by
  rfl

@[simp]
theorem stream_cons
    (line : Bytes)
    (rest : List Bytes) :
    stream (line :: rest) = line ++ newline :: stream rest := by
  simp [stream]

theorem count_newline_eq_zero
    {line : Bytes}
    (oneLine : newline ∉ line) :
    line.count newline = 0 :=
  List.count_eq_zero.mpr oneLine

theorem append_newline_inj
    {first second afterFirst afterSecond : Bytes}
    (firstLine : newline ∉ first)
    (secondLine : newline ∉ second)
    (same : first ++ newline :: afterFirst =
      second ++ newline :: afterSecond) :
    first = second ∧ afterFirst = afterSecond := by
  induction first generalizing second with
  | nil =>
      cases second with
      | nil =>
          exact ⟨rfl, (List.cons.inj same).2⟩
      | cons byte second =>
          obtain ⟨rfl, _⟩ := List.cons.inj same
          exact (secondLine List.mem_cons_self).elim
  | cons byte first inductionHypothesis =>
      cases second with
      | nil =>
          obtain ⟨rfl, _⟩ := List.cons.inj same
          exact (firstLine List.mem_cons_self).elim
      | cons other second =>
          obtain ⟨rfl, tails⟩ := List.cons.inj same
          rw [List.mem_cons, not_or] at firstLine secondLine
          obtain ⟨rfl, rfl⟩ :=
            inductionHypothesis firstLine.2 secondLine.2 tails
          exact ⟨rfl, rfl⟩

/-- A stream has one reading as lines, up to a rest without a newline. -/
theorem stream_inj
    {executed sent : List Bytes}
    {rest : Bytes}
    (executedLines : ∀ line ∈ executed, newline ∉ line)
    (sentLines : ∀ line ∈ sent, newline ∉ line)
    (restLine : newline ∉ rest)
    (same : stream executed ++ rest = stream sent) :
    executed = sent := by
  induction executed generalizing sent with
  | nil =>
      cases sent with
      | nil =>
          rfl
      | cons line sent =>
          rw [stream_nil, List.nil_append, stream_cons] at same
          subst same
          simp at restLine
  | cons line executed inductionHypothesis =>
      cases sent with
      | nil =>
          simp at same
      | cons sentLine sent =>
          rw [List.forall_mem_cons] at executedLines sentLines
          simp only [stream_cons, List.append_assoc, List.cons_append] at same
          obtain ⟨rfl, tails⟩ :=
            append_newline_inj executedLines.1 sentLines.1 same
          rw [inductionHypothesis executedLines.2 sentLines.2 tails]

/--
What has arrived of a stream is a part of its first line, or begins with the
whole of it.
-/
theorem arrived_cases
    {arrived rest line later : Bytes}
    (oneLine : newline ∉ line)
    (noNul : nul ∉ line)
    (isStream : arrived ++ rest = line ++ newline :: later) :
    (newline ∉ arrived ∧ arrived.length ≤ line.length) ∨
      ∃ after, splitLine arrived = some (line, after) ∧
        after ++ rest = later := by
  have part {missing : Bytes} (shape : line = arrived ++ missing) :
      newline ∉ arrived ∧ arrived.length ≤ line.length := by
    subst shape
    exact ⟨fun member => oneLine (List.mem_append_left _ member), by simp⟩
  rcases List.append_eq_append_iff.mp isStream with
    ⟨missing, shape, _⟩ | ⟨after, shape, laterShape⟩
  · exact .inl (part shape)
  · cases after with
    | nil =>
        rw [List.append_nil] at shape
        exact .inl (part (by rw [shape, List.append_nil]))
    | cons byte after =>
        obtain ⟨rfl, rfl⟩ := List.cons.inj laterShape
        exact .inr
          ⟨after, splitLine_eq_some_iff.mpr ⟨shape, oneLine, noNul⟩, rfl⟩

theorem splitLine_eq_none
    {bytes : Bytes}
    (noLine : newline ∉ bytes) :
    splitLine bytes = none := by
  rw [Option.eq_none_iff_forall_ne_some]
  rintro ⟨line, after⟩ split
  rw [(splitLine_eq_some_iff.mp split).1] at noLine
  simp at noLine

/--
What has arrived of a stream of lines is a part of the first one, which cannot fill
the buffer, or begins with the whole of it.
-/
theorem lines_arrive
    {arrived rest : Bytes}
    {lines : List CommandLine}
    (noNul : ∀ line ∈ lines, nul ∉ line.bytes)
    (isStream : arrived ++ rest = stream (lines.map CommandLine.bytes)) :
    (newline ∉ arrived ∧ arrived.length + 1 < bufferSize) ∨
      ∃ line later after, lines = line :: later ∧
        splitLine arrived = some (line.bytes, after) ∧
        after ++ rest = stream (later.map CommandLine.bytes) := by
  cases lines with
  | nil =>
      rw [List.map_nil, stream_nil, List.append_eq_nil_iff] at isStream
      rw [isStream.1]
      exact .inl ⟨List.not_mem_nil, by decide⟩
  | cons line later =>
      rw [List.map_cons, stream_cons] at isStream
      rcases arrived_cases line.oneLine (noNul line List.mem_cons_self) isStream
        with ⟨noLine, part⟩ | ⟨after, split, laterStream⟩
      · exact .inl ⟨noLine,
          Nat.lt_of_le_of_lt (Nat.succ_le_succ part) line.short⟩
      · exact .inr ⟨line, later, after, rfl, split, laterStream⟩

/-! ## One read -/

namespace LineReader

variable {reader reader' : LineReader}

@[simp]
theorem receive_buffer
    {chunk : Bytes}
    (bounded : chunk.length ≤ reader.room) :
    (reader.receive chunk).buffer = reader.buffer ++ chunk := by
  change reader.buffer ++ chunk.take reader.room = _
  rw [List.take_of_length_le bounded]

/-- What one read can do. -/
theorem readData_eq_some_iff
    {chunk : Bytes}
    (roomLeft : 0 < reader.room) :
    reader.readData chunk = some reader' ↔
      (splitLine (reader.receive chunk).buffer = none ∧
        reader' = reader.receive chunk) ∨
      ∃ line rest, splitLine (reader.receive chunk).buffer =
          some (line, rest) ∧
        Executable line ∧
        reader'.buffer = rest ∧
        reader'.commands = reader.commands ++ [argv line] := by
  rw [readData, if_pos roomLeft]
  simp only
  split
  · rename_i noLine
    simp [noLine, eq_comm]
  · rename_i line rest split
    by_cases executable : Executable line
    · rw [if_pos executable]
      constructor
      · rintro ⟨⟩
        exact .inr ⟨line, rest, split, executable, rfl, rfl⟩
      · rintro (⟨noLine, _⟩ | ⟨_, _, split', _, isRest, isCommands⟩)
        · rw [noLine] at split
          cases split
        · obtain ⟨⟩ := split.symm.trans split'
          rw [execute, Option.some.injEq]
          cases reader'
          subst isRest isCommands
          rfl
    · rw [if_neg executable]
      constructor
      · rintro ⟨⟩
      · rintro (⟨noLine, _⟩ | ⟨_, _, split', executable', _⟩)
        · rw [noLine] at split
          cases split
        · obtain ⟨⟩ := split.symm.trans split'
          exact (executable executable').elim

theorem room_pos_of_readData
    {chunk : Bytes}
    (success : reader.readData chunk = some reader') :
    0 < reader.room := by
  by_contra full
  rw [readData, if_neg full] at success
  cases success

/-- A line that `read_from_socket` can execute once it is in the buffer. -/
def Acceptable (line : Bytes) : Prop :=
  nul ∉ line ∧ Executable line

instance (line : Bytes) : Decidable (Acceptable line) :=
  inferInstanceAs (Decidable (_ ∧ _))

/-! ## A series of reads -/

/-- What a series of reads executes, and what it leaves in the buffer. -/
structure Executed
    (reader reader' : LineReader)
    (chunks executed : List Bytes) : Prop where
  oneLine : ∀ line ∈ executed, newline ∉ line
  noNul : ∀ line ∈ executed, nul ∉ line
  executable : ∀ line ∈ executed, Executable line
  commands : reader'.commands = reader.commands ++ executed.map argv
  bytes : reader.buffer ++ chunks.flatten =
    stream executed ++ reader'.buffer

/-- Reads lose no bytes, and execute lines in the order they arrive in. -/
theorem readAll_executed
    {chunks : List Bytes}
    (delivered : reader.Delivered chunks)
    (success : reader.readAll chunks = some reader') :
    ∃ executed, Executed reader reader' chunks executed := by
  induction chunks generalizing reader with
  | nil =>
      obtain rfl := Option.some.inj success
      exact ⟨[], nofun, nofun, nofun, by simp, by simp⟩
  | cons chunk rest inductionHypothesis =>
      obtain ⟨middle, first, later⟩ := Option.bind_eq_some_iff.mp success
      obtain ⟨_, bounded, deliveredRest⟩ := delivered
      have roomLeft := room_pos_of_readData first
      have received := receive_buffer (bounded roomLeft)
      obtain ⟨executed, run⟩ :=
        inductionHypothesis (deliveredRest middle first) later
      rcases (readData_eq_some_iff roomLeft).mp first with
        ⟨_, rfl⟩ | ⟨line, afterLine, split, executable, rfl, commands⟩
      · refine ⟨executed, run.oneLine, run.noNul, run.executable,
          run.commands, ?_⟩
        rw [List.flatten_cons, ← List.append_assoc, ← received]
        exact run.bytes
      · rw [received] at split
        obtain ⟨shape, oneLine, noNul⟩ := splitLine_eq_some_iff.mp split
        refine ⟨line :: executed,
          List.forall_mem_cons.mpr ⟨oneLine, run.oneLine⟩,
          List.forall_mem_cons.mpr ⟨noNul, run.noNul⟩,
          List.forall_mem_cons.mpr ⟨executable, run.executable⟩, ?_, ?_⟩
        · rw [run.commands, commands, List.map_cons, List.append_assoc,
            List.singleton_append]
        · rw [List.flatten_cons, ← List.append_assoc, shape, stream_cons,
            List.append_assoc, List.cons_append, run.bytes,
            List.append_assoc, List.cons_append]

/--
Reads of acceptable lines succeed, and the lines that are left in the buffer
are a backlog of one execution for each read.
-/
theorem readAll_backlog
    {lines : List CommandLine}
    {chunks : List Bytes}
    (acceptable : ∀ line ∈ lines, Acceptable line.bytes)
    (isStream : reader.buffer ++ chunks.flatten =
      stream (lines.map CommandLine.bytes))
    (roomLeft : 0 < reader.room)
    (delivered : reader.Delivered chunks) :
    ∃ reader', reader.readAll chunks = some reader' ∧
      reader'.buffer.count newline =
        Backlog.waiting (reader.buffer.count newline)
          (chunks.map (List.count newline)) := by
  induction chunks generalizing reader lines with
  | nil =>
      exact ⟨reader, rfl, rfl⟩
  | cons chunk rest inductionHypothesis =>
      obtain ⟨_, bounded, deliveredRest⟩ := delivered
      have received := receive_buffer (bounded roomLeft)
      rw [List.flatten_cons, ← List.append_assoc, ← received] at isStream
      have step {next : LineReader} {lines : List CommandLine}
          (first : reader.readData chunk = some next)
          (acceptable : ∀ line ∈ lines, Acceptable line.bytes)
          (isStream : next.buffer ++ rest.flatten =
            stream (lines.map CommandLine.bytes))
          (roomLeft : 0 < next.room)
          (waits : next.buffer.count newline =
            reader.buffer.count newline + chunk.count newline - 1) :
          ∃ reader', reader.readAll (chunk :: rest) = some reader' ∧
            reader'.buffer.count newline =
              Backlog.waiting (reader.buffer.count newline)
                ((chunk :: rest).map (List.count newline)) := by
        obtain ⟨last, later, count⟩ := inductionHypothesis acceptable isStream
          roomLeft (deliveredRest next first)
        refine ⟨last, ?_, ?_⟩
        · rw [readAll, first, Option.bind_some, later]
        · rw [count, List.map_cons, Backlog.waiting, waits]
      rcases lines_arrive (fun line member => (acceptable line member).1) isStream
        with ⟨noLine, notFull⟩ | ⟨line, lines, after, rfl, split, laterStream⟩
      · have first :=
          (readData_eq_some_iff roomLeft).mpr
            (.inl ⟨splitLine_eq_none noLine, rfl⟩)
        refine step first acceptable isStream ?_ ?_
        · rw [room]
          omega
        · have none := count_newline_eq_zero noLine
          rw [none, ← List.count_append, ← received, none]
      · obtain ⟨⟨_, executable⟩, acceptableRest⟩ :=
          List.forall_mem_cons.mp acceptable
        have fits := (reader.receive chunk).fits
        have shape := (splitLine_eq_some_iff.mp split).1
        let next := (reader.receive chunk).execute line.bytes after
          (Nat.le_of_lt (splitLine_shorter split))
        have first : reader.readData chunk = some next :=
          (readData_eq_some_iff roomLeft).mpr
            (.inr ⟨line.bytes, after, split, executable, rfl, rfl⟩)
        refine step first acceptableRest laterStream ?_ ?_
        · have shorter := splitLine_shorter split
          change 0 < bufferSize - after.length - 1
          omega
        · rw [← List.count_append, ← received, shape,
            List.count_append, List.count_cons_self,
            count_newline_eq_zero line.oneLine]
          simp [next, execute]

/-! ## Every line is taken -/

/--
All lines are taken off, each once and in order, and no complete line is left in
the buffer.
-/
def TakesAll (lines : List CommandLine) (chunks : List Bytes) : Prop :=
  ∃ reader, LineReader.init.readAll chunks = some reader ∧
    reader.commands = lines.map (fun line => argv line.bytes) ∧
    newline ∉ reader.buffer

/--
The lines that are sent are taken off if and only if each of them can be
executed, and no final stretch of the reads brings more line ends than it has
reads.
-/
theorem readAll_takes_iff
    {lines : List CommandLine}
    {chunks : List Bytes}
    (isStream : chunks.flatten = stream (lines.map CommandLine.bytes))
    (delivered : LineReader.init.Delivered chunks) :
    TakesAll lines chunks ↔
      (∀ line ∈ lines, Acceptable line.bytes) ∧
        Backlog.Manageable (chunks.map (List.count newline)) := by
  have isStream' : LineReader.init.buffer ++ chunks.flatten =
      stream (lines.map CommandLine.bytes) := isStream
  have worked (acceptable : ∀ line ∈ lines, Acceptable line.bytes) :
      ∃ reader, LineReader.init.readAll chunks = some reader ∧
        (newline ∉ reader.buffer ↔
          Backlog.Manageable (chunks.map (List.count newline))) := by
    obtain ⟨reader, success, count⟩ :=
      readAll_backlog acceptable isStream' (by decide) delivered
    refine ⟨reader, success, ?_⟩
    rw [← List.count_eq_zero, count, Backlog.waiting_eq_zero_iff]
    constructor
    · exact fun worked => worked.2
    · intro manageable
      refine ⟨?_, manageable⟩
      have whole := manageable _ (List.suffix_refl _)
      rwa [show List.count newline LineReader.init.buffer = 0 from rfl,
        Nat.zero_add]
  have same {reader : LineReader} {executed : List Bytes}
      (run : Executed LineReader.init reader chunks executed)
      (nothingLeft : newline ∉ reader.buffer) :
      executed = lines.map CommandLine.bytes := by
    refine stream_inj run.oneLine ?_ nothingLeft ?_
    · rw [List.forall_mem_map]
      exact fun line _ => line.oneLine
    · rw [← run.bytes, isStream']
  constructor
  · rintro ⟨reader, success, _, nothingLeft⟩
    obtain ⟨executed, run⟩ := readAll_executed delivered success
    have acceptable : ∀ line ∈ lines, Acceptable line.bytes := by
      intro line member
      have isExecuted : line.bytes ∈ executed := by
        rw [same run nothingLeft]
        exact List.mem_map_of_mem member
      exact ⟨run.noNul _ isExecuted, run.executable _ isExecuted⟩
    obtain ⟨reader', success', nothingLeft_iff⟩ := worked acceptable
    obtain rfl : reader' = reader :=
      Option.some.inj (success'.symm.trans success)
    exact ⟨acceptable, nothingLeft_iff.mp nothingLeft⟩
  · rintro ⟨acceptable, manageable⟩
    obtain ⟨reader, success, nothingLeft_iff⟩ := worked acceptable
    have nothingLeft := nothingLeft_iff.mpr manageable
    obtain ⟨executed, run⟩ := readAll_executed delivered success
    refine ⟨reader, success, ?_, nothingLeft⟩
    rw [run.commands, same run nothingLeft, List.map_map]
    rfl

end LineReader

end Simbus.Service
