import Simbus.Service.Command

/-!
# Command lines in any reads

What a client sends is cut into reads, and the rest of the server changes the
buses in between.  The reads execute every line exactly when the lines are ones
that the server can take, in their order, and arrive slowly enough.
-/

namespace Simbus.Service.Command

open LineReader

/-! ## A run of reads -/

/-- A read that returns data, or anything that changes the buses in between. -/
inductive Arrival where
  | data (chunk : Bytes)
  | others (busMap : String → BusState)

/-- The data of the reads. -/
def chunks : List Arrival → List Bytes
  | [] => []
  | .data chunk :: rest => chunk :: chunks rest
  | .others _ :: rest => chunks rest

/-- The buses are changed by others. -/
def Session.setBuses
    (session : Session)
    (busMap : String → BusState) : Session :=
  { session with busMap := busMap }

/--
The commands that the server can take from a client of this name: before a name
a HELLO has one, and afterwards a READY has a time and tokens.
-/
def TakesEach (devices : List Bytes) (youAreWritten : Bool) :
    Bytes → List (List Bytes) → Prop
  | _, [] => True
  | name, args :: rest =>
      (args ≠ [] ∧
        (name = [] → args.head? = some helloWord →
          HelloText devices youAreWritten args) ∧
        (name ≠ [] → args.head? = some readyWord → ReadyText args)) ∧
      TakesEach devices youAreWritten (nextName devices name args) rest

section

/-!
A client attaches at most once, so there is one YOU-ARE, which can be written or
not.  Whether a call of `read_from_socket` comes back to `service_run` at all is
up to the compiler, since its body ends without a `return`.
-/

variable (youAreWritten comesBack : Bool)

/-- The reads of a connection. -/
def receiveAll : Session → List Arrival → Option Session
  | session, [] => some session
  | session, .data chunk :: rest =>
      if comesBack then
        (readFromSocket session (.data chunk) youAreWritten).bind fun session =>
          receiveAll session rest
      else
        none
  | session, .others busMap :: rest => receiveAll (session.setBuses busMap) rest

/--
Each read returns something, and no more than it was asked for; the devices of
the bus are those of the configuration.
-/
def Delivered : Session → List Arrival → Prop
  | _, [] => True
  | session, .data chunk :: rest =>
      chunk ≠ [] ∧
        (0 < session.client.reader.room →
          chunk.length ≤ session.client.reader.room) ∧
        ∀ session',
          readFromSocket session (.data chunk) youAreWritten = some session' →
          Delivered session' rest
  | session, .others busMap :: rest =>
      (busMap session.client.bus).devices = session.bus.devices ∧
        Delivered (session.setBuses busMap) rest

/--
All lines are executed, each once and in order, and no complete line is left in
the buffer.
-/
def ExecutesAll
    (session : Session)
    (lines : List CommandLine)
    (arrivals : List Arrival) : Prop :=
  ∃ session', receiveAll youAreWritten comesBack session arrivals = some session' ∧
    session'.client.reader.commands = lines.map (fun line => argv line.bytes) ∧
    newline ∉ session'.client.reader.buffer

end

/-! ## One command -/

section

variable {session session' : Session}
variable {youAreWritten comesBack : Bool}

theorem processClientHello_name
    {args : List Bytes}
    (noName : session.client.devName = [])
    (taken : processClientHello session youAreWritten args = some session') :
    session'.client.devName =
      nextName session.bus.devices session.client.devName args := by
  unfold processClientHello at taken
  rw [noName]
  match args with
  | [] =>
      cases taken
  | [command] =>
      simp only at taken
      split at taken
      · cases taken
        exact noName
      · cases taken
  | command :: newName :: words =>
      rw [nextName]
      simp only at taken
      split at taken
      · rename_i other
        rw [if_neg fun both => other both.2.1]
        cases taken
        exact noName
      · rename_i isHello
        split at taken
        · rename_i unknown
          rw [if_neg fun both => unknown both.2.2]
          cases taken
          exact noName
        · rename_i known
          rw [not_not] at isHello known
          rw [if_pos ⟨rfl, isHello, known⟩]
          split at taken
          · cases taken
            rfl
          · cases taken

/-- A client keeps its name, and a nameless one gets that of its HELLO. -/
theorem processClientCommand_name
    {args : List Bytes}
    (taken : processClientCommand session youAreWritten args = some session') :
    session'.client.devName =
      nextName session.bus.devices session.client.devName args := by
  by_cases noName : session.client.devName = []
  · unfold processClientCommand at taken
    rw [if_pos noName] at taken
    exact processClientHello_name noName taken
  · rw [(processClientCommand_same taken).name noName]
    match args with
    | [] | [_] =>
        rfl
    | command :: newName :: words =>
        rw [nextName, if_neg fun both => noName both.1]

/-! ## One read -/

/-- A read either leaves a part of a line in the buffer, or executes a line. -/
theorem readFromSocket_data_iff
    {chunk : Bytes}
    (some_ : chunk ≠ [])
    (roomLeft : 0 < session.client.reader.room) :
    readFromSocket session (.data chunk) youAreWritten = some session' ↔
      (splitLine (session.client.reader.receive chunk).buffer = none ∧
        session' = session.setReader (session.client.reader.receive chunk)) ∨
      ∃ line rest processed reader,
        splitLine (session.client.reader.receive chunk).buffer =
          some (line, rest) ∧
        (argv line).length < argvSize ∧
        processClientCommand session youAreWritten (argv line) = some processed ∧
        session' = processed.setReader reader ∧
        reader.buffer = rest ∧
        reader.commands = session.client.reader.commands ++ [argv line] := by
  match chunk with
  | [] =>
      exact absurd rfl some_
  | byte :: chunk =>
      unfold readFromSocket
      rw [if_pos roomLeft]
      simp only
      split
      · rename_i noLine
        rw [noLine]
        constructor
        · rintro ⟨⟩
          exact .inl ⟨rfl, rfl⟩
        · rintro (⟨_, rfl⟩ | ⟨line, rest, _, _, isSplit, _⟩)
          · rfl
          · cases isSplit
      · rename_i line rest split
        constructor
        · intro taken
          split at taken
          · rename_i fits
            rw [Option.map_eq_some_iff] at taken
            obtain ⟨processed, isProcessed, rfl⟩ := taken
            exact .inr ⟨line, rest, processed, _, split, fits, isProcessed, rfl,
              rfl, rfl⟩
          · cases taken
        · rintro (⟨noLine, _⟩ |
            ⟨_, _, processed, reader, isSplit, fits, isProcessed, rfl, isRest,
              isCommands⟩)
          · rw [noLine] at split
            cases split
          · obtain ⟨⟩ := split.symm.trans isSplit
            rw [if_pos fits, isProcessed, Option.map_some]
            cases reader
            subst isRest isCommands
            rfl

theorem room_pos_of_readFromSocket
    {result : ReadResult}
    (taken : readFromSocket session result youAreWritten = some session') :
    0 < session.client.reader.room := by
  by_contra full
  unfold readFromSocket at taken
  rw [if_neg full] at taken
  cases taken

/-- The read is one of the buffer, with at most one command that is taken. -/
structure Took
    (session session' : Session)
    (youAreWritten : Bool)
    (executed : List (List Bytes)) : Prop where
  commands : session'.client.reader.commands =
    session.client.reader.commands ++ executed
  bus : session'.client.bus = session.client.bus
  devices : session'.bus.devices = session.bus.devices
  name : session'.client.devName =
    executed.foldl (nextName session.bus.devices) session.client.devName
  takes : TakesEach session.bus.devices youAreWritten session.client.devName
    executed

theorem TakesEach.append
    {devices : List Bytes}
    {name : Bytes}
    {executed later : List (List Bytes)}
    (takes : TakesEach devices youAreWritten name executed)
    (takesLater : TakesEach devices youAreWritten
      (executed.foldl (nextName devices) name) later) :
    TakesEach devices youAreWritten name (executed ++ later) := by
  induction executed generalizing name with
  | nil =>
      exact takesLater
  | cons args rest inductionHypothesis =>
      exact ⟨takes.1, inductionHypothesis takes.2 takesLater⟩

theorem TakesEach.notEmpty
    {devices : List Bytes}
    {name : Bytes}
    {commands : List (List Bytes)}
    (takes : TakesEach devices youAreWritten name commands) :
    ∀ args ∈ commands, args ≠ [] := by
  induction commands generalizing name with
  | nil =>
      exact nofun
  | cons args rest inductionHypothesis =>
      exact List.forall_mem_cons.mpr ⟨takes.1.1, inductionHypothesis takes.2⟩

theorem Took.trans
    {session'' : Session}
    {executed later : List (List Bytes)}
    (took : Took session session' youAreWritten executed)
    (tookLater : Took session' session'' youAreWritten later) :
    Took session session'' youAreWritten (executed ++ later) where
  commands := by
    rw [tookLater.commands, took.commands, List.append_assoc]
  bus := tookLater.bus.trans took.bus
  devices := tookLater.devices.trans took.devices
  name := by
    rw [tookLater.name, took.name, took.devices, List.foldl_append]
  takes := by
    refine took.takes.append ?_
    rw [← took.name, ← took.devices]
    exact tookLater.takes

theorem readFromSocket_took
    {chunk : Bytes}
    (some_ : chunk ≠ [])
    (taken : readFromSocket session (.data chunk) youAreWritten =
      some session') :
    session.client.reader.readData chunk = some session'.client.reader ∧
      ∃ executed, Took session session' youAreWritten executed := by
  have roomLeft := room_pos_of_readFromSocket taken
  have same := readFromSocket_same taken
  rcases (readFromSocket_data_iff some_ roomLeft).mp taken with
    ⟨noLine, rfl⟩ |
      ⟨line, rest, processed, reader, split, fits, isProcessed, rfl, isRest,
        isCommands⟩
  · refine ⟨(readData_eq_some_iff roomLeft).mpr (.inl ⟨noLine, rfl⟩), [], ?_⟩
    exact
      { commands := (List.append_nil _).symm
        bus := rfl
        devices := rfl
        name := rfl
        takes := trivial }
  · have tolerable := processClientCommand_isSome_iff (argv line) |>.mp
      (Option.isSome_iff_exists.mpr ⟨processed, isProcessed⟩)
    refine ⟨(readData_eq_some_iff roomLeft).mpr (.inr ⟨line, rest, split,
      ⟨tolerable.notEmpty, fits⟩, isRest, isCommands⟩), [argv line], ?_⟩
    have isName := processClientCommand_name isProcessed
    exact
      { commands := isCommands
        bus := same.bus
        devices := same.devices
        name := isName
        takes := ⟨⟨tolerable.notEmpty, tolerable.hello, tolerable.ready⟩,
          trivial⟩ }

/-! ## All reads -/

theorem Took.setBuses
    {busMap : String → BusState}
    {executed : List (List Bytes)}
    (kept : (busMap session.client.bus).devices = session.bus.devices)
    (took : Took (session.setBuses busMap) session' youAreWritten executed) :
    Took session session' youAreWritten executed where
  commands := took.commands
  bus := took.bus
  devices := took.devices.trans kept
  name := kept ▸ took.name
  takes := kept ▸ took.takes

/-- A run of reads is one of the buffer, with commands that are taken. -/
theorem receiveAll_took
    {arrivals : List Arrival}
    (delivered : Delivered youAreWritten session arrivals)
    (success : receiveAll youAreWritten comesBack session arrivals =
      some session') :
    session.client.reader.Delivered (chunks arrivals) ∧
      session.client.reader.readAll (chunks arrivals) =
        some session'.client.reader ∧
      ∃ executed, Took session session' youAreWritten executed := by
  induction arrivals generalizing session with
  | nil =>
      obtain rfl := Option.some.inj success
      exact ⟨trivial, rfl, [],
        { commands := (List.append_nil _).symm
          bus := rfl
          devices := rfl
          name := rfl
          takes := trivial }⟩
  | cons arrival rest inductionHypothesis =>
      match arrival with
      | .data chunk =>
          obtain ⟨some_, bounded, deliveredRest⟩ := delivered
          rw [receiveAll] at success
          split at success
          · obtain ⟨middle, first, later⟩ := Option.bind_eq_some_iff.mp success
            obtain ⟨firstRead, executed, took⟩ := readFromSocket_took some_ first
            obtain ⟨isDelivered, laterReads, executedLater, tookLater⟩ :=
              inductionHypothesis (deliveredRest middle first) later
            refine ⟨⟨some_, bounded, ?_⟩, ?_, _, took.trans tookLater⟩
            · rw [firstRead]
              rintro reader' ⟨⟩
              exact isDelivered
            · rw [chunks, LineReader.readAll, firstRead, Option.bind_some, laterReads]
          · cases success
      | .others busMap =>
          obtain ⟨isDelivered, reads, executed, took⟩ :=
            inductionHypothesis delivered.2 success
          exact ⟨isDelivered, reads, executed, took.setBuses delivered.1⟩

/-- What is in the buffer and what is still to come are lines that can be taken. -/
def Awaits
    (youAreWritten : Bool)
    (session : Session)
    (later : Bytes) : Prop :=
  0 < session.client.reader.room ∧
    ∃ lines : List CommandLine,
      (∀ line ∈ lines, Acceptable line.bytes) ∧
      TakesEach session.bus.devices youAreWritten session.client.devName
        (lines.map fun line => argv line.bytes) ∧
      session.client.reader.buffer ++ later = stream (lines.map CommandLine.bytes)

/-- One read succeeds, and what is left can be taken later. -/
theorem readFromSocket_awaits
    {chunk later : Bytes}
    (some_ : chunk ≠ [])
    (bounded : chunk.length ≤ session.client.reader.room)
    (awaits : Awaits youAreWritten session (chunk ++ later)) :
    ∃ next, readFromSocket session (.data chunk) youAreWritten = some next ∧
      Awaits youAreWritten next later := by
  obtain ⟨roomLeft, lines, acceptable, takes, isStream⟩ := awaits
  have received := receive_buffer bounded
  rw [← List.append_assoc, ← received] at isStream
  rcases lines_arrive (fun line member => (acceptable line member).1) isStream
    with ⟨noLine, notFull⟩ | ⟨line, lines, after, rfl, split, laterStream⟩
  · refine ⟨_, (readFromSocket_data_iff some_ roomLeft).mpr
      (.inl ⟨splitLine_eq_none noLine, rfl⟩), ?_, lines, acceptable, takes,
      isStream⟩
    change 0 < (session.client.reader.receive chunk).room
    rw [room]
    omega
  · obtain ⟨⟨_, executable⟩, acceptableRest⟩ := List.forall_mem_cons.mp acceptable
    obtain ⟨⟨notEmpty, hello, ready⟩, takesRest⟩ := takes
    obtain ⟨processed, isProcessed⟩ := Option.isSome_iff_exists.mp
      ((processClientCommand_isSome_iff (argv line.bytes)).mpr
        { notEmpty, hello, ready })
    have same := processClientCommand_same isProcessed
    have isName := processClientCommand_name isProcessed
    let reader := (session.client.reader.receive chunk).execute line.bytes after
      (Nat.le_of_lt (splitLine_shorter split))
    refine ⟨_, (readFromSocket_data_iff some_ roomLeft).mpr
      (.inr ⟨line.bytes, after, processed, reader, split, executable.2,
        isProcessed, rfl, rfl, rfl⟩), ?_, lines, acceptableRest, ?_, laterStream⟩
    · have shorter := splitLine_shorter split
      have fits := (session.client.reader.receive chunk).fits
      change 0 < bufferSize - after.length - 1
      omega
    · change TakesEach processed.bus.devices youAreWritten
        processed.client.devName _
      rw [same.devices, isName]
      exact takesRest

/-- The lines that can be taken are taken, whatever the reads are. -/
theorem receiveAll_succeeds
    {arrivals : List Arrival}
    (awaits : Awaits youAreWritten session (chunks arrivals).flatten)
    (delivered : Delivered youAreWritten session arrivals) :
    ∃ session', receiveAll youAreWritten true session arrivals =
      some session' := by
  induction arrivals generalizing session with
  | nil =>
      exact ⟨session, rfl⟩
  | cons arrival rest inductionHypothesis =>
      match arrival with
      | .others busMap =>
          obtain ⟨roomLeft, lines, acceptable, takes, isStream⟩ := awaits
          exact inductionHypothesis
            ⟨roomLeft, lines, acceptable, delivered.1 ▸ takes, isStream⟩ delivered.2
      | .data chunk =>
          obtain ⟨some_, bounded, deliveredRest⟩ := delivered
          rw [chunks, List.flatten_cons] at awaits
          obtain ⟨next, first, awaitsLater⟩ :=
            readFromSocket_awaits some_ (bounded awaits.1) awaits
          obtain ⟨last, later⟩ :=
            inductionHypothesis awaitsLater (deliveredRest next first)
          exact ⟨last, by rw [receiveAll, if_pos rfl, first, Option.bind_some,
            later]⟩

end

/-! ## Every line is executed -/

theorem chunks_eq_nil
    {session : Session}
    {youAreWritten : Bool}
    {arrivals : List Arrival}
    (delivered : Delivered youAreWritten session arrivals)
    (nothing : (chunks arrivals).flatten = []) :
    chunks arrivals = [] := by
  induction arrivals generalizing session with
  | nil =>
      rfl
  | cons arrival rest inductionHypothesis =>
      match arrival with
      | .data chunk =>
          rw [chunks, List.flatten_cons, List.append_eq_nil_iff] at nothing
          exact absurd nothing.1 delivered.1
      | .others busMap =>
          exact inductionHypothesis delivered.2 nothing

theorem receiveAll_of_chunks_nil
    {session : Session}
    {youAreWritten comesBack : Bool}
    {arrivals : List Arrival}
    (nothing : chunks arrivals = []) :
    receiveAll youAreWritten comesBack session arrivals =
      receiveAll youAreWritten true session arrivals := by
  induction arrivals generalizing session with
  | nil =>
      rfl
  | cons arrival rest inductionHypothesis =>
      match arrival with
      | .data chunk =>
          cases nothing
      | .others busMap =>
          exact inductionHypothesis nothing

/-- A run with data only goes on where the calls come back. -/
theorem comesBack_of_receiveAll
    {session session' : Session}
    {youAreWritten comesBack : Bool}
    {arrivals : List Arrival}
    (success : receiveAll youAreWritten comesBack session arrivals =
      some session') :
    comesBack = true ∨ chunks arrivals = [] := by
  induction arrivals generalizing session with
  | nil =>
      exact .inr rfl
  | cons arrival rest inductionHypothesis =>
      match arrival with
      | .data chunk =>
          rw [receiveAll] at success
          split at success
          · rename_i returns
            exact .inl returns
          · cases success
      | .others busMap =>
          exact inductionHypothesis success

theorem stream_eq_nil
    {lines : List Bytes}
    (nothing : stream lines = []) :
    lines = [] := by
  cases lines with
  | nil =>
      rfl
  | cons line rest =>
      rw [stream_cons] at nothing
      simp at nothing

/--
The lines that a client sends are executed if and only if the reads come back,
the server can take each of the lines, in their order, and no final stretch of
the reads brings more line ends than it has reads.
-/
theorem executesAll_iff
    {session : Session}
    {youAreWritten comesBack : Bool}
    {lines : List CommandLine}
    {arrivals : List Arrival}
    (connected : session.client.reader = .init)
    (isStream : (chunks arrivals).flatten =
      stream (lines.map CommandLine.bytes))
    (delivered : Delivered youAreWritten session arrivals) :
    ExecutesAll youAreWritten comesBack session lines arrivals ↔
      (comesBack = true ∨ lines = []) ∧
      (∀ line ∈ lines,
        nul ∉ line.bytes ∧ (argv line.bytes).length < argvSize) ∧
      TakesEach session.bus.devices youAreWritten session.client.devName
        (lines.map fun line => argv line.bytes) ∧
      Backlog.Manageable ((chunks arrivals).map (List.count newline)) := by
  have returns_iff : comesBack = true ∨ lines = [] ↔
      comesBack = true ∨ chunks arrivals = [] := by
    refine or_congr_right ⟨?_, ?_⟩
    · rintro rfl
      exact chunks_eq_nil delivered isStream
    · intro nothing
      rw [nothing, List.flatten_nil] at isStream
      exact List.map_eq_nil_iff.mp (stream_eq_nil isStream.symm)
  rw [returns_iff]
  constructor
  · rintro ⟨session', success, commands, nothingLeft⟩
    obtain ⟨isDelivered, reads, executed, took⟩ :=
      receiveAll_took delivered success
    rw [connected] at isDelivered reads
    obtain ⟨acceptable, manageable⟩ :=
      (readAll_takes_iff isStream isDelivered).mp
        ⟨session'.client.reader, reads, commands, nothingLeft⟩
    have isExecuted : executed = lines.map fun line => argv line.bytes := by
      rw [← commands, took.commands, connected]
      rfl
    refine ⟨comesBack_of_receiveAll success, ?_, isExecuted ▸ took.takes,
      manageable⟩
    intro line member
    exact ⟨(acceptable line member).1, (acceptable line member).2.2⟩
  · rintro ⟨returns, fitting, takes, manageable⟩
    have acceptable : ∀ line ∈ lines, Acceptable line.bytes := by
      intro line member
      have isCommand : argv line.bytes ∈
          lines.map fun line => argv line.bytes :=
        List.mem_map_of_mem member
      obtain ⟨noNul, fits⟩ := fitting line member
      exact ⟨noNul, takes.notEmpty _ isCommand, fits⟩
    have success : ∃ session', receiveAll youAreWritten comesBack session
        arrivals = some session' := by
      have awaits : Awaits youAreWritten session (chunks arrivals).flatten := by
        refine ⟨?_, lines, acceptable, takes, ?_⟩
        · rw [connected]
          decide
        · rw [connected]
          exact isStream
      have always := receiveAll_succeeds awaits delivered
      rcases returns with rfl | nothing
      · exact always
      · rwa [receiveAll_of_chunks_nil nothing]
    obtain ⟨session', success⟩ := success
    obtain ⟨isDelivered, reads, _⟩ := receiveAll_took delivered success
    rw [connected] at isDelivered reads
    obtain ⟨reader, reads', commands, nothingLeft⟩ :=
      (readAll_takes_iff isStream isDelivered).mpr ⟨acceptable, manageable⟩
    obtain rfl := Option.some.inj (reads'.symm.trans reads)
    exact ⟨session', success, commands, nothingLeft⟩

/-- `HELLO host` -/
def helloLine : CommandLine where
  bytes := [72, 69, 76, 76, 79, 32, 104, 111, 115, 116]
  oneLine := by decide
  short := by decide

/-- `FINISH` -/
def finishLine : CommandLine where
  bytes := [70, 73, 78, 73, 83, 72]
  oneLine := by decide
  short := by decide

/-- The HELLO comes with the start of the FINISH, and another bus is set up. -/
def twoReads : List Arrival :=
  [.data (helloLine.bytes ++ [newline, 70, 73]),
    .others (Function.update (fun _ => oneDevice) "tcp:2"
      { oneDevice with devices := [] }),
    .data [78, 73, 83, 72, newline]]

theorem helloLine_argv :
    argv helloLine.bytes = [helloWord, [104, 111, 115, 116]] := by
  decide +kernel

theorem finishLine_argv : argv finishLine.bytes = [finishWord] := by
  decide +kernel

theorem twoReads_delivered : Delivered true newcomer twoReads := by
  refine ⟨by decide, by decide, ?_⟩
  intro session' taken
  obtain ⟨isRead, _, took⟩ := readFromSocket_took (by decide) taken
  have buffered : (LineReader.init.readData
      (helloLine.bytes ++ [newline, 70, 73])).map LineReader.buffer =
        some [70, 73] := by
    decide +kernel
  have isBus : session'.client.bus = "tcp:1" := took.bus
  have isBuffer : session'.client.reader.buffer = [70, 73] := by
    have reads : LineReader.init.readData
        (helloLine.bytes ++ [newline, 70, 73]) = some session'.client.reader :=
      isRead
    rw [reads] at buffered
    exact Option.some.inj buffered
  refine ⟨?_, by decide, ?_, fun _ _ => trivial⟩
  · rw [took.devices, isBus]
    rfl
  · intro _
    change 5 ≤ bufferSize - session'.client.reader.buffer.length - 1
    rw [isBuffer]
    decide

theorem executesAll_iff_twoReads :
    ExecutesAll true true newcomer [helloLine, finishLine] twoReads := by
  refine (executesAll_iff rfl (by decide) twoReads_delivered).mpr
    ⟨.inl rfl, by decide +kernel, ?_, ?_⟩
  · rw [List.map_cons, List.map_cons, helloLine_argv, finishLine_argv]
    exact ⟨⟨nofun, fun _ _ _ => rfl, fun hasName => absurd rfl hasName⟩,
      ⟨nofun, fun noName => absurd noName (by decide),
        fun _ isReady => absurd isReady (by decide)⟩, trivial⟩
  · exact Backlog.manageable_cons.mpr ⟨by decide,
      Backlog.manageable_cons.mpr ⟨by decide, Backlog.manageable_nil⟩⟩

/-- Two lines that arrive in one read: the second one stays in the buffer. -/
theorem bothLines_not_executed :
    (chunks [.data (stream [helloLine.bytes, finishLine.bytes])]).flatten =
        stream ([helloLine, finishLine].map CommandLine.bytes) ∧
      Delivered true newcomer
        [.data (stream [helloLine.bytes, finishLine.bytes])] ∧
      ¬ ExecutesAll true true newcomer [helloLine, finishLine]
        [.data (stream [helloLine.bytes, finishLine.bytes])] := by
  have delivered : Delivered true newcomer
      [.data (stream [helloLine.bytes, finishLine.bytes])] :=
    ⟨by decide, by decide, fun _ _ => trivial⟩
  refine ⟨by decide, delivered, ?_⟩
  rintro ⟨session', success, commands, _⟩
  obtain ⟨_, reads, _⟩ := receiveAll_took delivered success
  have executed :
      (LineReader.init.readAll [stream [helloLine.bytes, finishLine.bytes]]).map
        LineReader.commands = some [argv helloLine.bytes] := by
    decide +kernel
  have isRead : LineReader.init.readAll
      [stream [helloLine.bytes, finishLine.bytes]] =
        some session'.client.reader := reads
  rw [isRead, Option.map_some, commands, Option.some.injEq] at executed
  have lengths := congrArg List.length executed
  simp at lengths

end Simbus.Service.Command
