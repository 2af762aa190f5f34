import Simbus.BusClock
import Simbus.Config.Records
import Simbus.KeyedTable
import Simbus.Numerals

/-!
# The tables of the server

`service_add_bus` and `process_add` enter the records of a configuration into the
tables of the buses and of the processes.  A bus whose port is taken ends the
server, and a process replaces one of its name.
-/

namespace Simbus.Config

open KeyedTable

/-! ## Buses and processes -/

/-- The protocols that a bus can have an object of. -/
inductive ProtocolKind where
  | pci
  | pointToPoint
  | axi4
  | pcieTlp
  deriving DecidableEq, Repr

/-- The protocol of a name; other names have none. -/
def protocolKind (name : Text) : Option ProtocolKind :=
  if name = "pci".toList then some .pci
  else if name = "point-to-point".toList then some .pointToPoint
  else if name = "AXI4".toList then some .axi4
  else if name = "pcie-tlp".toList then some .pcieTlp
  else none

/-- The options that the constructor of a protocol looks up. -/
def ProtocolKind.lookedUp : ProtocolKind → List Text
  | .pci =>
      ["bus_speed".toList, "bus_park".toList, "gnt_linger".toList,
        "PCIXCAP".toList]
  | .pointToPoint =>
      ["WIDTH".toList, "WIDTH_O".toList, "WIDTH_I".toList, "CLOCK_high".toList,
        "CLOCK_low".toList, "CLOCK_hold".toList, "CLOCK_setup".toList]
  | .axi4 | .pcieTlp =>
      ["CLOCK_high".toList, "CLOCK_low".toList, "CLOCK_hold".toList,
        "CLOCK_setup".toList]

/-- `options[key]` enters an empty text for a key that is not there. -/
def lookUp
    (options : Text → Option Text)
    (looked : List Text) : Text → Option Text :=
  fun key => if key ∈ looked then some ((options key).getD []) else options key

/-- The number of an option, by `strtoul`. -/
def optionNumber (options : Text → Option Text) (key : Text) : BitVec 64 :=
  (Numerals.strtoul
    (((options key).getD []).map fun char => UInt8.ofNat char.toNat)).1

/-- The options for the clock. -/
def clockOptions (options : Text → Option Text) : ClockOptions where
  clockHigh := optionNumber options "CLOCK_high".toList
  clockLow := optionNumber options "CLOCK_low".toList
  clockHold := optionNumber options "CLOCK_hold".toList
  clockSetup := optionNumber options "CLOCK_setup".toList

/-- The assertions of the constructor of a protocol. -/
def ProtocolKind.Constructs
    (options : Text → Option Text) : ProtocolKind → Prop
  | .pci => True
  | .pointToPoint | .axi4 | .pcieTlp => (clockOptions options).Accepted

instance (options : Text → Option Text) (kind : ProtocolKind) :
    Decidable (kind.Constructs options) :=
  match kind with
  | .pci => .isTrue trivial
  | .pointToPoint | .axi4 | .pcieTlp =>
      inferInstanceAs (Decidable (clockOptions options).Accepted)

/-- What the configuration says of a `struct bus_state`. -/
structure BusState where
  name : Text
  proto : Option ProtocolKind
  deviceMap : Text → Option BusDevicePlug
  options : Text → Option Text

/-- `struct process_info`. -/
structure ProcessInfo where
  useExec : Text
  useStdin : Text
  useStdout : Text
  useStderr : Text
  useEnv : Text → Option Text

/-- `bus_map` and `proc_table`, in the order in which the keys were entered. -/
structure Tables where
  busMap : List (Text × BusState)
  procTable : List (Text × ProcessInfo)
  portsDistinct : (keys busMap).Nodup
  namesDistinct : (keys procTable).Nodup

/-- The `bus_state` with its options after the constructor of the protocol. -/
def BusState.make
    (name protocol : Text)
    (devices : Text → Option BusDevicePlug)
    (options : Text → Option Text) : BusState where
  name := name
  proto := protocolKind protocol
  deviceMap := devices
  options :=
    match protocolKind protocol with
    | some kind => lookUp options kind.lookedUp
    | none => options

namespace Tables

/-- The tables of a server that has read nothing. -/
def empty : Tables where
  busMap := []
  procTable := []
  portsDistinct := List.nodup_nil
  namesDistinct := List.nodup_nil

/-- `process_add`. -/
def processAdd (tables : Tables) (name : Text) (info : ProcessInfo) : Tables :=
  { tables with
    procTable := enter tables.procTable (name, info)
    namesDistinct := nodup_keys_enter tables.namesDistinct _ }

/-- `service_add_bus`; its assertion and those of the constructors may fail. -/
def serviceAddBus
    (tables : Tables)
    (port name protocol : Text)
    (devices : Text → Option BusDevicePlug)
    (options : Text → Option Text) : Option Tables :=
  if taken : port ∈ keys tables.busMap then
    none
  else if ∀ kind ∈ protocolKind protocol, kind.Constructs options then
    some
      { tables with
        busMap := tables.busMap ++
          [(port, .make name protocol devices options)]
        portsDistinct := by
          rw [keys_append, keys_cons, keys_nil]
          exact (fresh_singleton taken).nodup_append tables.portsDistinct }
  else
    none

/-- What a call does to the tables. -/
def add (tables : Tables) : Call → Option Tables
  | .serviceAddBus port name protocol devices options =>
      tables.serviceAddBus port name protocol devices options
  | .processAdd name exec stdin stdout stderr env =>
      some (tables.processAdd name ⟨exec, stdin, stdout, stderr, env⟩)

/-- The calls of a file, in their order. -/
def addAll : Tables → List Call → Option Tables
  | tables, [] => some tables
  | tables, call :: rest => (tables.add call).bind fun tables => tables.addAll rest

end Tables

/-! ## The records of descriptions -/

/-- The entry of a bus. -/
def Call.busEntry : Call → Option (Text × BusState)
  | .serviceAddBus port name protocol devices options =>
      some (port, .make name protocol devices options)
  | .processAdd .. => none

/-- The entry of a process. -/
def Call.procEntry : Call → Option (Text × ProcessInfo)
  | .serviceAddBus .. => none
  | .processAdd name exec stdin stdout stderr env =>
      some (name, ⟨exec, stdin, stdout, stderr, env⟩)

/-- The constructor of the protocol does not end the server. -/
def Call.Constructs : Call → Prop
  | .serviceAddBus _ _ protocol _ options =>
      ∀ kind ∈ protocolKind protocol, kind.Constructs options
  | .processAdd .. => True

namespace Tables

variable {before after : Tables}
variable {calls : List Call}

/-- Exactly the records of the calls have been added to the tables. -/
structure Added (before after : Tables) (calls : List Call) : Prop where
  busMap : after.busMap = before.busMap ++ calls.filterMap Call.busEntry
  procTable : after.procTable = before.procTable ++ calls.filterMap Call.procEntry

/-- Every call adds a record of its own. -/
structure Addable (before : Tables) (calls : List Call) : Prop where
  ports : Fresh (keys before.busMap) (keys (calls.filterMap Call.busEntry))
  names : Fresh (keys before.procTable) (keys (calls.filterMap Call.procEntry))
  constructs : ∀ call ∈ calls, call.Constructs

/-- A bus is entered at a port that is free, if its protocol can be constructed. -/
theorem serviceAddBus_eq_some_iff
    {port name protocol : Text}
    {devices : Text → Option BusDevicePlug}
    {options : Text → Option Text} :
    before.serviceAddBus port name protocol devices options = some after ↔
      port ∉ keys before.busMap ∧
      (∀ kind ∈ protocolKind protocol, kind.Constructs options) ∧
      after.busMap =
        before.busMap ++ [(port, .make name protocol devices options)] ∧
      after.procTable = before.procTable := by
  rw [serviceAddBus]
  constructor
  · intro added
    split at added
    · cases added
    · rename_i notTaken
      split at added
      · rename_i constructs
        cases added
        exact ⟨notTaken, constructs, rfl, rfl⟩
      · cases added
  · rintro ⟨notTaken, constructs, busMap, procTable⟩
    rw [dif_neg notTaken, if_pos constructs]
    cases after
    cases busMap
    cases procTable
    rfl

/-- Which calls come back, and what they leave in the tables. -/
theorem addAll_eq_some_iff :
    before.addAll calls = some after ↔
      Fresh (keys before.busMap) (keys (calls.filterMap Call.busEntry)) ∧
      (∀ call ∈ calls, call.Constructs) ∧
      after.busMap = before.busMap ++ calls.filterMap Call.busEntry ∧
      after.procTable =
        (calls.filterMap Call.procEntry).foldl enter before.procTable := by
  induction calls generalizing before with
  | nil =>
      rw [addAll, Option.some.injEq]
      constructor
      · rintro rfl
        exact ⟨fresh_nil _, by simp, (List.append_nil _).symm, rfl⟩
      · rintro ⟨_, _, busMap, procTable⟩
        rw [List.filterMap_nil, List.append_nil] at busMap
        rw [List.filterMap_nil, List.foldl_nil] at procTable
        cases before
        cases after
        cases busMap
        cases procTable
        rfl
  | cons call rest inductionHypothesis =>
      rw [addAll, Option.bind_eq_some_iff, List.forall_mem_cons]
      match call with
      | .processAdd name exec stdin stdout stderr env =>
          simp only [add, Option.some.injEq, exists_eq_left',
            inductionHypothesis]
          exact and_congr_right' (and_congr_left' (true_and _).symm.to_iff)
      | .serviceAddBus port name protocol devices options =>
          have entry : (Call.serviceAddBus port name protocol devices
              options).busEntry = some (port, .make name protocol devices options) :=
            rfl
          rw [List.filterMap_cons_some entry, keys_cons, fresh_cons]
          simp only [add, serviceAddBus_eq_some_iff, inductionHypothesis]
          constructor
          · rintro ⟨middle, ⟨notTaken, constructs, entered, same⟩, fresh,
              constructsRest, busMap, procTable⟩
            rw [entered, keys_append] at fresh
            rw [entered, List.append_assoc] at busMap
            rw [same] at procTable
            exact ⟨⟨notTaken, fresh⟩, ⟨constructs, constructsRest⟩, busMap,
              procTable⟩
          · rintro ⟨⟨notTaken, fresh⟩, ⟨constructs, constructsRest⟩, busMap,
              procTable⟩
            let middle : Tables :=
              { before with
                busMap := before.busMap ++
                  [(port, .make name protocol devices options)]
                portsDistinct := by
                  rw [keys_append]
                  exact (fresh_singleton notTaken).nodup_append
                    before.portsDistinct }
            refine ⟨middle, ⟨notTaken, constructs, rfl, rfl⟩, ?_, constructsRest,
              ?_, procTable⟩
            · rw [keys_append]
              exact fresh
            · rw [busMap, List.append_assoc]
              rfl

/-- Exactly calls with records of their own add all of them. -/
theorem addAll_added_iff :
    (∃ after, before.addAll calls = some after ∧ Added before after calls) ↔
      Addable before calls := by
  constructor
  · rintro ⟨after, success, added⟩
    obtain ⟨ports, constructs, _, procTable⟩ := addAll_eq_some_iff.mp success
    refine ⟨ports, ?_, constructs⟩
    rw [← foldl_enter_eq_append_iff, ← procTable, added.procTable]
  · intro addable
    have procTable :=
      (foldl_enter_eq_append_iff _ before.procTable).mpr addable.names
    let after : Tables :=
      { busMap := before.busMap ++ calls.filterMap Call.busEntry
        procTable := before.procTable ++ calls.filterMap Call.procEntry
        portsDistinct := by
          rw [keys_append]
          exact addable.ports.nodup_append before.portsDistinct
        namesDistinct := by
          rw [keys_append]
          exact addable.names.nodup_append before.namesDistinct }
    exact ⟨after, addAll_eq_some_iff.mpr
      ⟨addable.ports, addable.constructs, rfl, procTable.symm⟩, rfl, rfl⟩

end Tables

end Simbus.Config
