import Simbus.Message
import Simbus.Numerals
import Simbus.Service.LineBuffer

/-!
# Whatever a client sends

`client_state_t` on bytes: the input buffer, the words of a line, the commands
and the tokens of a READY.  The server aborts on some inputs; on all others it
changes nothing but the plug and the bus of the client.
-/

namespace Simbus.Service.Command

open FourValued Axi4 Numerals

/-! ## Buses and clients -/

/-- `struct bus_device_plug`. -/
structure BusDevicePlug where
  hostFlag : Bool
  ident : BitVec 32
  fd : Int
  readyFlag : Bool
  exitedFlag : Bool
  readyTime : BitVec 64
  readyScale : BitVec 32
  clientSignals : SignalMap Bytes

/-- `struct bus_state`: the plugs of its devices, and its options. -/
structure BusState where
  devices : List Bytes
  deviceMap : Bytes → BusDevicePlug
  options : Bytes → Option Bytes

/--
`client_state_t`.  There is no name before the HELLO, and `bus_interface_` is
the plug of the name.
-/
structure ClientState where
  bus : String
  devName : Bytes
  fd : Int
  reader : LineReader

/-- A client with the buses of the server. -/
structure Session where
  client : ClientState
  busMap : String → BusState

namespace Session

/-- The bus of the client. -/
def bus (session : Session) : BusState :=
  session.busMap session.client.bus

/-- Change the bus of the client. -/
def updateBus (session : Session) (change : BusState → BusState) : Session :=
  { session with
    busMap := Function.update session.busMap session.client.bus
      (change session.bus) }

/-- Give the client a name. -/
def setName (session : Session) (name : Bytes) : Session :=
  { session with client := { session.client with devName := name } }

/-- Give the buffer of the client another state. -/
def setReader (session : Session) (reader : LineReader) : Session :=
  { session with client := { session.client with reader := reader } }

/-- Change a plug of the bus. -/
def updatePlug
    (session : Session)
    (dev : Bytes)
    (change : BusDevicePlug → BusDevicePlug) : Session :=
  session.updateBus fun bus =>
    { bus with
      deviceMap :=
        Function.update bus.deviceMap dev (change (bus.deviceMap dev)) }

end Session

/-! ## READY -/

/-- The character `=`. -/
def equals : UInt8 := 61

/-- The time of a READY, mantissa and scale; its assertions may fail. -/
def parseTime (word : Bytes) : Option (BitVec 64 × BitVec 32) :=
  match strtoul word with
  | (time, 101 :: next :: rest) =>
      match strtol (next :: rest) with
      | (scale, []) => some (time, BitVec.ofInt 32 scale)
      | _ => none
  | _ => none

/-- The value of a character; others fail an assertion. -/
def bitState : UInt8 → Option Logic4
  | 48 => some .zero
  | 49 => some .one
  | 122 => some .z
  | 120 => some .x
  | _ => none

/-- The values of the characters after the `=`. -/
def bitStates : Bytes → Option Text
  | [] => some []
  | byte :: rest => do
      let bit ← bitState byte
      let bits ← bitStates rest
      return bit :: bits

/-- A `<name>=<value>` token; its assertions may fail. -/
def parseToken (word : Bytes) : Option (Bytes × Text) :=
  if equals ∈ word then
    (bitStates ((word.dropWhile (· ≠ equals)).drop 1)).map fun text =>
      (word.takeWhile (· ≠ equals), text)
  else
    none

/-- All tokens of a READY. -/
def parseTokens : List Bytes → Option (Tokens Bytes)
  | [] => some []
  | word :: rest => do
      let token ← parseToken word
      let tokens ← parseTokens rest
      return token :: tokens

/-- What `process_client_ready_` does to the plug. -/
def readyPlug
    (args : List Bytes)
    (plug : BusDevicePlug) : Option BusDevicePlug :=
  match args with
  | _ :: time :: words => do
      let (time, scale) ← parseTime time
      let tokens ← parseTokens words
      return { plug with
        readyTime := time
        readyScale := scale
        clientSignals := plug.clientSignals.recordAll tokens
        readyFlag := true }
  | _ => none

/-- `process_client_ready_`. -/
def processClientReady
    (session : Session)
    (args : List Bytes) : Option Session :=
  let dev := session.client.devName
  (readyPlug args (session.bus.deviceMap dev)).map fun plug =>
    session.updatePlug dev fun _ => plug

/-! ## The other commands -/

/-- What FINISH, an error and the end of the stream do to a plug. -/
def exitedPlug (plug : BusDevicePlug) : BusDevicePlug :=
  { plug with readyFlag := true, exitedFlag := true }

/-- `process_client_finish_`. -/
def processClientFinish (session : Session) : Session :=
  session.updatePlug session.client.devName exitedPlug

/-- A `<key>=<value>` word of a HELLO; options that are set stay as they are. -/
def insertOption
    (options : Bytes → Option Bytes)
    (word : Bytes) : Bytes → Option Bytes :=
  if equals ∈ word then
    let key := word.takeWhile (· ≠ equals)
    match options key with
    | some _ => options
    | none =>
        Function.update options key
          (some ((word.dropWhile (· ≠ equals)).drop 1))
  else
    options

/-- What a HELLO does to the bus. -/
def helloBus
    (fd : Int)
    (name : Bytes)
    (words : List Bytes)
    (bus : BusState) : BusState :=
  { bus with
    deviceMap := Function.update bus.deviceMap name
      { bus.deviceMap name with fd := fd, readyFlag := false }
    options := words.foldl insertOption bus.options }

/-- `HELLO` -/
def helloWord : Bytes := [72, 69, 76, 76, 79]

/-- `READY` -/
def readyWord : Bytes := [82, 69, 65, 68, 89]

/-- `FINISH` -/
def finishWord : Bytes := [70, 73, 78, 73, 83, 72]

/--
`process_client_hello_`.  An unknown name gets a NAK; the write of YOU-ARE must
take the whole line.
-/
def processClientHello
    (session : Session)
    (youAreWritten : Bool)
    (args : List Bytes) : Option Session :=
  match args with
  | [] => none
  | command :: args =>
      if command ≠ helloWord then
        some session
      else
        match args with
        | [] => none
        | name :: words =>
            if name ∉ session.bus.devices then
              some session
            else if youAreWritten then
              some <| (session.setName name).updateBus
                (helloBus session.client.fd name words)
            else
              none

/-- `process_client_command_`; the first word must be there. -/
def processClientCommand
    (session : Session)
    (youAreWritten : Bool)
    (args : List Bytes) : Option Session :=
  if session.client.devName = [] then
    processClientHello session youAreWritten args
  else
    match args with
    | [] => none
    | command :: _ =>
        if command = helloWord then
          some session
        else if command = readyWord then
          processClientReady session args
        else if command = finishWord then
          some (processClientFinish session)
        else
          some session

/-- The name of the client after a command. -/
def nextName (devices : List Bytes) (name : Bytes) : List Bytes → Bytes
  | command :: newName :: _ =>
      if name = [] ∧ command = helloWord ∧ newName ∈ devices then newName else name
  | _ => name

/-! ## Reading -/

/-- What `read` returns: an error, or bytes, and none at the end. -/
inductive ReadResult where
  | error
  | data (chunk : Bytes)

/-- An error or the end of the stream; it needs a plug to be noted in. -/
def detach (session : Session) : Option Session :=
  if session.client.devName = [] then
    none
  else
    some (session.updatePlug session.client.devName exitedPlug)

/--
`read_from_socket`, with the result of the write of YOU-ARE, if any.  After data
its body ends without a `return`, which is undefined; the model goes on with the
caller, which does not use the value.
-/
def readFromSocket
    (session : Session)
    (result : ReadResult)
    (youAreWritten : Bool) : Option Session :=
  if 0 < session.client.reader.room then
    match result with
    | .error => detach session
    | .data [] => detach session
    | .data (byte :: chunk) =>
        let received := session.client.reader.receive (byte :: chunk)
        match split : splitLine received.buffer with
        | none => some (session.setReader received)
        | some (line, rest) =>
            if (argv line).length < argvSize then
              (processClientCommand session youAreWritten (argv line)).map
                fun session => session.setReader
                  (received.execute line rest
                    (Nat.le_of_lt (splitLine_shorter split)))
            else
              none
  else
    none

/-! ## What the server can take -/

/-- A time: a number, which may be missing, the letter e and a number. -/
def TimeText (word : Bytes) : Prop :=
  ∃ mantissa exponent, word = mantissa ++ 101 :: exponent ∧
    (mantissa = [] ∨ IsNumeral mantissa) ∧ IsNumeral exponent

/-- The characters `0`, `1`, `z` and `x`. -/
def stateBytes : Bytes := [48, 49, 122, 120]

/-- A token: there is a `=`, and only values of signals after the first one. -/
def TokenText (word : Bytes) : Prop :=
  equals ∈ word ∧
    ∀ byte ∈ (word.dropWhile (· ≠ equals)).drop 1, byte ∈ stateBytes

/-- A READY with a time and tokens. -/
def ReadyText : List Bytes → Prop
  | _ :: time :: words => TimeText time ∧ ∀ word ∈ words, TokenText word
  | _ => False

/-- A HELLO with a name; the YOU-ARE for a name of the bus can be written. -/
def HelloText
    (devices : List Bytes)
    (youAreWritten : Bool) : List Bytes → Prop
  | _ :: name :: _ => name ∈ devices → youAreWritten = true
  | _ => False

/-- A command line that the server can take. -/
structure TolerableCommand
    (session : Session)
    (youAreWritten : Bool)
    (args : List Bytes) : Prop where
  notEmpty : args ≠ []
  hello : session.client.devName = [] →
    args.head? = some helloWord →
    HelloText session.bus.devices youAreWritten args
  ready : session.client.devName ≠ [] →
    args.head? = some readyWord →
    ReadyText args

/-- A read that the server can take, in the state before it. -/
structure Tolerable
    (session : Session)
    (result : ReadResult)
    (youAreWritten : Bool) : Prop where
  roomLeft : 0 < session.client.reader.room
  attached : result = .error ∨ result = .data [] →
    session.client.devName ≠ []
  command : ∀ chunk line rest,
    result = .data chunk →
    chunk ≠ [] →
    splitLine (session.client.reader.receive chunk).buffer =
      some (line, rest) →
    (argv line).length < argvSize ∧
      TolerableCommand session youAreWritten (argv line)

/-! ## Times and tokens -/

theorem strtoul_snd (text : Bytes) :
    (strtoul text).2 = text ∧ scan text = none ∨
      ∃ negative digits,
        scan text = some (negative, digits, (strtoul text).2) := by
  rw [strtoul]
  rcases scanned : scan text with _ | ⟨negative, digits, rest⟩
  · exact .inl ⟨rfl, rfl⟩
  · exact .inr ⟨negative, digits, rfl⟩

theorem strtol_snd (text : Bytes) :
    (strtol text).2 = text ∧ scan text = none ∨
      ∃ negative digits,
        scan text = some (negative, digits, (strtol text).2) := by
  rw [strtol]
  rcases scanned : scan text with _ | ⟨negative, digits, rest⟩
  · exact .inl ⟨rfl, rfl⟩
  · exact .inr ⟨negative, digits, rfl⟩

/-- A time is parsed by the ends of its two numbers. -/
theorem parseTime_isSome_iff_ends (word : Bytes) :
    (parseTime word).isSome = true ↔
      ∃ next rest, (strtoul word).2 = 101 :: next :: rest ∧
        (strtol (next :: rest)).2 = [] := by
  rw [parseTime]
  constructor
  · intro parsed
    split at parsed
    · rename_i time next rest isTime
      split at parsed
      · rename_i scale isScale
        exact ⟨next, rest, by rw [isTime], by rw [isScale]⟩
      · cases parsed
    · cases parsed
  · rintro ⟨next, rest, isTime, isScale⟩
    rcases parsedTime : strtoul word with ⟨time, ep⟩
    rcases parsedScale : strtol (next :: rest) with ⟨scale, end_⟩
    rw [parsedTime] at isTime
    rw [parsedScale] at isScale
    cases isTime
    cases isScale
    simp only [parsedScale]
    rfl

theorem parseTime_isSome_iff (word : Bytes) :
    (parseTime word).isSome = true ↔ TimeText word := by
  rw [parseTime_isSome_iff_ends]
  constructor
  · rintro ⟨next, rest, isTime, isScale⟩
    have exponent : IsNumeral (next :: rest) := by
      rcases strtol_snd (next :: rest) with ⟨same, _⟩ | ⟨_, _, scanned⟩
      · rw [isScale] at same
        cases same
      · obtain ⟨numeral, isNumeral, shape⟩ := scan_eq_some scanned
        rw [isScale, List.append_nil] at shape
        rwa [shape]
    rcases strtoul_snd word with ⟨same, _⟩ | ⟨_, _, scanned⟩
    · exact ⟨[], next :: rest, same.symm.trans isTime, .inl rfl, exponent⟩
    · obtain ⟨numeral, isNumeral, shape⟩ := scan_eq_some scanned
      rw [isTime] at shape
      exact ⟨numeral, next :: rest, shape, .inr isNumeral, exponent⟩
  · rintro ⟨mantissa, exponent, rfl, isMantissa, isExponent⟩
    have afterMantissa :
        (strtoul (mantissa ++ 101 :: exponent)).2 = 101 :: exponent := by
      have ends : Ends (101 :: exponent) := by
        intro byte isHead
        cases isHead
        rfl
      rcases isMantissa with rfl | isNumeral
      · rfl
      · obtain ⟨negative, digits, scanned⟩ := scan_numeral isNumeral ends
        rw [strtoul, scanned]
    have afterExponent : (strtol exponent).2 = [] := by
      obtain ⟨negative, digits, scanned⟩ :=
        @scan_numeral _ [] isExponent nofun
      rw [List.append_nil] at scanned
      rw [strtol, scanned]
    match exponent with
    | [] =>
        obtain ⟨space, sign, digits, shape, _, _, some_, _⟩ :=
          isExponent.parts
        rw [List.nil_eq_append_iff] at shape
        exact absurd shape.2 some_
    | next :: rest =>
        exact ⟨next, rest, afterMantissa, afterExponent⟩

theorem bitState_isSome_iff (byte : UInt8) :
    (bitState byte).isSome = true ↔ byte ∈ stateBytes := by
  constructor
  · intro isBit
    unfold bitState at isBit
    split at isBit
    · decide
    · decide
    · decide
    · decide
    · cases isBit
  · intro isState
    simp only [stateBytes, List.mem_cons, List.not_mem_nil, or_false]
      at isState
    rcases isState with rfl | rfl | rfl | rfl <;> rfl

theorem bitStates_isSome_iff (value : Bytes) :
    (bitStates value).isSome = true ↔ ∀ byte ∈ value, byte ∈ stateBytes := by
  induction value with
  | nil =>
      exact ⟨nofun, fun _ => rfl⟩
  | cons byte rest inductionHypothesis =>
      rw [List.forall_mem_cons, ← inductionHypothesis,
        ← bitState_isSome_iff byte, bitStates]
      cases bitState byte <;> cases bitStates rest <;> simp

theorem parseToken_isSome_iff (word : Bytes) :
    (parseToken word).isSome = true ↔ TokenText word := by
  rw [parseToken, TokenText, ← bitStates_isSome_iff]
  split
  · rename_i hasEquals
    rw [Option.isSome_map]
    exact ⟨fun bits => ⟨hasEquals, bits⟩, And.right⟩
  · rename_i noEquals
    exact ⟨nofun, fun token => absurd token.1 noEquals⟩

theorem parseTokens_isSome_iff (words : List Bytes) :
    (parseTokens words).isSome = true ↔ ∀ word ∈ words, TokenText word := by
  induction words with
  | nil =>
      exact ⟨nofun, fun _ => rfl⟩
  | cons word rest inductionHypothesis =>
      rw [List.forall_mem_cons, ← inductionHypothesis,
        ← parseToken_isSome_iff word, parseTokens]
      cases parseToken word <;> cases parseTokens rest <;> simp

/-- A READY passes its assertions exactly if it has a time and tokens. -/
theorem readyPlug_isSome_iff (args : List Bytes) (plug : BusDevicePlug) :
    (readyPlug args plug).isSome = true ↔ ReadyText args := by
  match args with
  | [] =>
      exact ⟨nofun, False.elim⟩
  | [_] =>
      exact ⟨nofun, False.elim⟩
  | _ :: time :: words =>
      rw [ReadyText, ← parseTime_isSome_iff, ← parseTokens_isSome_iff,
        readyPlug]
      cases parseTime time <;> cases parseTokens words <;> simp

/-! ## Commands -/

section

variable {session session' : Session}
variable {youAreWritten : Bool}

/-- A HELLO, or another first line, is taken or not. -/
theorem processClientHello_isSome_iff (args : List Bytes) :
    (processClientHello session youAreWritten args).isSome = true ↔
      args ≠ [] ∧
        (args.head? = some helloWord →
          HelloText session.bus.devices youAreWritten args) := by
  match args with
  | [] =>
      exact ⟨nofun, fun taken => absurd rfl taken.1⟩
  | command :: words =>
      rw [processClientHello.eq_def]
      simp only
      have same : (command :: words).head? = some helloWord ↔
          command = helloWord := by
        rw [List.head?_cons, Option.some.injEq]
      rw [same]
      by_cases isHello : command = helloWord
      · rw [if_neg (not_not_intro isHello)]
        match words with
        | [] =>
            exact ⟨nofun, fun taken => False.elim (taken.2 isHello)⟩
        | name :: words =>
            simp only [HelloText]
            split
            · rename_i unknown
              exact ⟨fun _ => ⟨nofun, fun _ known => absurd known unknown⟩,
                fun _ => rfl⟩
            · rename_i known
              rw [not_not] at known
              split
              · rename_i written
                exact ⟨fun _ => ⟨nofun, fun _ _ => written⟩, fun _ => rfl⟩
              · rename_i notWritten
                exact ⟨nofun, fun taken =>
                  absurd (taken.2 isHello known) notWritten⟩
      · rw [if_pos isHello]
        exact ⟨fun _ => ⟨nofun, fun isHello' => absurd isHello' isHello⟩,
          fun _ => rfl⟩

/-- The commands that the server can take are the tolerable ones. -/
theorem processClientCommand_isSome_iff (args : List Bytes) :
    (processClientCommand session youAreWritten args).isSome = true ↔
      TolerableCommand session youAreWritten args := by
  unfold processClientCommand
  by_cases noName : session.client.devName = []
  · rw [if_pos noName, processClientHello_isSome_iff]
    exact ⟨fun ⟨notEmpty, greeting⟩ =>
        ⟨notEmpty, fun _ => greeting, fun hasName => absurd noName hasName⟩,
      fun tolerable => ⟨tolerable.notEmpty, tolerable.hello noName⟩⟩
  · rw [if_neg noName]
    match args with
    | [] =>
        exact ⟨nofun, fun tolerable => absurd rfl tolerable.notEmpty⟩
    | command :: words =>
        have others
            (notReady : command ≠ readyWord) :
            TolerableCommand session youAreWritten (command :: words) :=
          { notEmpty := nofun
            hello := fun isNone => absurd isNone noName
            ready := fun _ isReady =>
              absurd (Option.some.inj isReady) notReady }
        simp only
        split
        · rename_i isHello
          exact ⟨fun _ => others (by rw [isHello]; decide), fun _ => rfl⟩
        · split
          · rename_i isReady
            rw [processClientReady, Option.isSome_map, readyPlug_isSome_iff]
            exact ⟨fun text => ⟨nofun, fun isNone => absurd isNone noName,
                fun _ _ => text⟩,
              fun tolerable => tolerable.ready noName
                (congrArg some isReady)⟩
          · rename_i notReady
            split
            · exact ⟨fun _ => others notReady, fun _ => rfl⟩
            · exact ⟨fun _ => others notReady, fun _ => rfl⟩

/-! ## What stays the same -/

/-- Nothing but the bus of a client and the plug of its name has changed. -/
structure SameElsewhere (session session' : Session) : Prop where
  bus : session'.client.bus = session.client.bus
  name : session.client.devName ≠ [] →
    session'.client.devName = session.client.devName
  buses : ∀ port, port ≠ session.client.bus →
    session'.busMap port = session.busMap port
  devices : session'.bus.devices = session.bus.devices
  plugs : ∀ dev, dev ≠ session'.client.devName →
    session'.bus.deviceMap dev = session.bus.deviceMap dev

theorem SameElsewhere.refl (session : Session) :
    SameElsewhere session session where
  bus := rfl
  name := fun _ => rfl
  buses := fun _ _ => rfl
  devices := rfl
  plugs := fun _ _ => rfl

@[simp]
theorem bus_updateBus
    (session : Session)
    (change : BusState → BusState) :
    (session.updateBus change).bus = change session.bus :=
  Function.update_self session.client.bus _ _

theorem sameElsewhere_updatePlug
    (session : Session)
    (change : BusDevicePlug → BusDevicePlug) :
    SameElsewhere session
      (session.updatePlug session.client.devName change) where
  bus := rfl
  name := fun _ => rfl
  buses := fun _ other => Function.update_of_ne other _ _
  devices := by
    rw [Session.updatePlug, bus_updateBus]
  plugs := by
    intro dev other
    rw [Session.updatePlug, bus_updateBus]
    exact Function.update_of_ne other _ _

theorem SameElsewhere.setReader
    (same : SameElsewhere session session')
    (reader : LineReader) :
    SameElsewhere session (session'.setReader reader) :=
  ⟨same.bus, same.name, same.buses, same.devices, same.plugs⟩

theorem processClientHello_same
    {args : List Bytes}
    (noName : session.client.devName = [])
    (taken : processClientHello session youAreWritten args =
      some session') :
    SameElsewhere session session' := by
  unfold processClientHello at taken
  split at taken
  · cases taken
  · split at taken
    · cases taken
      exact .refl session
    · split at taken
      · cases taken
      · rename_i name words
        split at taken
        · cases taken
          exact .refl session
        · split at taken
          · cases taken
            have changed := bus_updateBus (session.setName name)
              (helloBus session.client.fd name words)
            exact
              { bus := rfl
                name := fun hasName => absurd noName hasName
                buses := fun _ other => Function.update_of_ne other _ _
                devices := by
                  rw [changed]
                  rfl
                plugs := by
                  intro dev other
                  rw [changed]
                  exact Function.update_of_ne other _ _ }
          · cases taken

theorem processClientCommand_same
    {args : List Bytes}
    (taken : processClientCommand session youAreWritten args =
      some session') :
    SameElsewhere session session' := by
  unfold processClientCommand at taken
  split at taken
  · rename_i noName
    exact processClientHello_same noName taken
  · split at taken
    · cases taken
    · split at taken
      · cases taken
        exact .refl session
      · split at taken
        · rw [processClientReady, Option.map_eq_some_iff] at taken
          obtain ⟨plug, _, rfl⟩ := taken
          exact sameElsewhere_updatePlug session _
        · split at taken
          · cases taken
            exact sameElsewhere_updatePlug session _
          · cases taken
            exact .refl session

theorem detach_same
    (taken : detach session = some session') :
    SameElsewhere session session' := by
  unfold detach at taken
  split at taken
  · cases taken
  · cases taken
    exact sameElsewhere_updatePlug session _

/-- A read changes nothing but the bus and the plug of the client. -/
theorem readFromSocket_same
    {result : ReadResult}
    (taken : readFromSocket session result youAreWritten = some session') :
    SameElsewhere session session' := by
  unfold readFromSocket at taken
  split at taken
  · split at taken
    · exact detach_same taken
    · exact detach_same taken
    · simp only at taken
      split at taken
      · cases taken
        exact (SameElsewhere.refl session).setReader _
      · split at taken
        · rw [Option.map_eq_some_iff] at taken
          obtain ⟨processed, isProcessed, rfl⟩ := taken
          exact (processClientCommand_same isProcessed).setReader _
        · cases taken
  · cases taken

theorem detach_isSome_iff :
    (detach session).isSome = true ↔ session.client.devName ≠ [] := by
  unfold detach
  split
  · rename_i noName
    exact ⟨nofun, fun hasName => absurd noName hasName⟩
  · rename_i hasName
    exact ⟨fun _ => hasName, fun _ => rfl⟩

/-- A read ends without a failed assertion exactly if it is tolerable. -/
theorem readFromSocket_isSome_iff (result : ReadResult) :
    (readFromSocket session result youAreWritten).isSome = true ↔
      Tolerable session result youAreWritten := by
  unfold readFromSocket
  split
  · rename_i roomLeft
    rcases result with _ | chunk
    case error =>
        refine detach_isSome_iff.trans ⟨fun hasName => ⟨roomLeft,
          fun _ => hasName, ?_⟩, fun tolerable => tolerable.attached (.inl rfl)⟩
        intro chunk line rest isData
        cases isData
    rcases chunk with _ | ⟨byte, chunk⟩
    case nil =>
        refine detach_isSome_iff.trans ⟨fun hasName => ⟨roomLeft,
          fun _ => hasName, ?_⟩, fun tolerable => tolerable.attached (.inr rfl)⟩
        rintro chunk line rest ⟨⟩ some_
        exact absurd rfl some_
    case cons =>
        simp only
        split
        · rename_i noLine
          refine ⟨fun _ => ⟨roomLeft, ?_, ?_⟩, fun _ => rfl⟩
          · rintro (isError | isEmpty)
            · cases isError
            · cases isEmpty
          · rintro _ line rest ⟨⟩ _ split
            rw [noLine] at split
            cases split
        · rename_i line rest split
          have asCommand :
              Tolerable session (.data (byte :: chunk)) youAreWritten ↔
                (argv line).length < argvSize ∧
                  TolerableCommand session youAreWritten (argv line) := by
            constructor
            · intro tolerable
              exact tolerable.command _ line rest rfl (List.cons_ne_nil _ _)
                split
            · intro command
              refine ⟨roomLeft, ?_, ?_⟩
              · rintro (isError | isEmpty)
                · cases isError
                · cases isEmpty
              · rintro _ line' rest' ⟨⟩ _ split'
                rw [split] at split'
                cases split'
                exact command
          rw [asCommand]
          split
          · rename_i fits
            rw [Option.isSome_map, processClientCommand_isSome_iff]
            exact ⟨fun command => ⟨fits, command⟩, And.right⟩
          · rename_i tooLong
            constructor
            · intro isSome
              cases isSome
            · intro command
              exact absurd command.1 tooLong
  · rename_i noRoom
    constructor
    · intro isSome
      cases isSome
    · intro tolerable
      exact absurd tolerable.roomLeft noRoom

end

/-! ## Whole connections -/

/--
What happens while a client is connected: a read from it, or anything that the
rest of the server does to the buses in between.
-/
inductive Activity where
  | read (result : ReadResult) (youAreWritten : Bool)
  | others (busMap : String → BusState)

/-- Every read ends, and changes only the bus and the plug of the client. -/
def Harmless : Session → List Activity → Prop
  | _, [] => True
  | session, .read result youAreWritten :: rest =>
      ∃ session',
        readFromSocket session result youAreWritten = some session' ∧
          SameElsewhere session session' ∧ Harmless session' rest
  | session, .others busMap :: rest =>
      Harmless { session with busMap := busMap } rest

/-- Every read is tolerable in the state before it. -/
def AllTolerable : Session → List Activity → Prop
  | _, [] => True
  | session, .read result youAreWritten :: rest =>
      Tolerable session result youAreWritten ∧
        ∀ session',
          readFromSocket session result youAreWritten = some session' →
          AllTolerable session' rest
  | session, .others busMap :: rest =>
      AllTolerable { session with busMap := busMap } rest

/-- Exactly the tolerable connections do no harm. -/
theorem harmless_iff (session : Session) (activities : List Activity) :
    Harmless session activities ↔ AllTolerable session activities := by
  induction activities generalizing session with
  | nil =>
      exact Iff.rfl
  | cons activity rest inductionHypothesis =>
      match activity with
      | .read result youAreWritten =>
          rw [Harmless, AllTolerable, ← readFromSocket_isSome_iff]
          constructor
          · rintro ⟨session', taken, _, harmless⟩
            rw [taken]
            refine ⟨rfl, ?_⟩
            rintro _ ⟨⟩
            exact (inductionHypothesis session').mp harmless
          · rintro ⟨isTaken, later⟩
            obtain ⟨session', taken⟩ := Option.isSome_iff_exists.mp isTaken
            exact ⟨session', taken, readFromSocket_same taken,
              (inductionHypothesis session').mpr (later session' taken)⟩
      | .others busMap =>
          exact inductionHypothesis { session with busMap := busMap }

/-! ## A HELLO without a name -/

/-- A bus with the device `host`, which nobody has attached yet. -/
def oneDevice : BusState where
  devices := [[104, 111, 115, 116]]
  deviceMap := fun _ =>
    { hostFlag := true
      ident := 0
      fd := -1
      readyFlag := false
      exitedFlag := false
      readyTime := 0
      readyScale := 0
      clientSignals := SignalMap.empty }
  options := fun _ => none

/-- A client that has just connected to it. -/
def newcomer : Session where
  client := { bus := "tcp:1", devName := [], fd := 5, reader := .init }
  busMap := fun _ => oneDevice

/-- A HELLO without a name fails an assertion. -/
theorem namelessHello_not_harmless :
    ¬ Harmless newcomer
      [.read (.data (helloWord ++ [newline])) true] := by
  rw [harmless_iff]
  rintro ⟨tolerable, _⟩
  have split : splitLine (LineReader.init.receive
      (helloWord ++ [newline])).buffer = some (helloWord, []) := by
    decide +kernel
  have words : argv helloWord = [helloWord] := by
    decide +kernel
  obtain ⟨_, command⟩ := tolerable.command _ helloWord [] rfl
    (List.cons_ne_nil _ _) split
  rw [words] at command
  exact command.hello rfl rfl

end Simbus.Service.Command
