import Mathlib
import Simbus.Config.Grammar
import Simbus.Config.Lexemes

/-!
# Descriptions of buses and processes

What a configuration says, the items that say it in any order, and that the
parser makes of them the records of the description.
-/

namespace Simbus.Config

/-! ## Descriptions -/

/-- A string free of quotes and newlines. -/
structure Quotable where
  text : Text
  plain : '\n' ∉ text ∧ '"' ∉ text

/-- The key of an option. -/
structure Identifier where
  text : Text
  isName : IsName text
  notKeyword : ∀ keyword : Keyword, keyword.spelling ≠ text

/-- Where the server listens for the clients of a bus. -/
inductive Address where
  | port (value : BitVec 32)
  | pipe (path : Quotable)

/-- The value of an option. -/
inductive OptionValue where
  | text (value : Quotable)
  | number (value : BitVec 32)

/-- A device or a host of a bus. -/
structure DeviceDescription where
  name : Quotable
  ident : BitVec 32
  host : Bool

/-- A bus. -/
structure BusDescription where
  name : Quotable
  protocol : Quotable
  address : Address
  devices : List DeviceDescription
  options : List (Identifier × OptionValue)
  devicesDistinct : (devices.map (·.name.text)).Nodup
  optionsDistinct : (options.map (·.1.text)).Nodup

/-- A process. -/
structure ProcessDescription where
  name : Quotable
  exec : Quotable
  stdin : Quotable
  stdout : Quotable
  stderr : Quotable
  env : List (Quotable × Quotable)
  envDistinct : (env.map (·.1.text)).Nodup

/-- A section of a configuration. -/
inductive Description where
  | bus (bus : BusDescription)
  | process (process : ProcessDescription)

/-! ## Records -/

section

variable {α β : Type}
variable {entries : List α}
variable {key : α → Text}
variable {value : α → β}

/-- The map of a list of entries. -/
def entriesMap (key : α → Text) (value : α → β) (entries : List α) :
    Text → Option β :=
  fun name => (entries.find? (key · = name)).map value

theorem entriesMap_cons
    (entry : α)
    (name : Text) :
    entriesMap key value (entry :: entries) name =
      if key entry = name then
        some (value entry)
      else
        entriesMap key value entries name := by
  unfold entriesMap
  by_cases isKey : key entry = name
  · rw [if_pos isKey, List.find?_cons_of_pos]
    · rfl
    · exact decide_eq_true isKey
  · rw [if_neg isKey, List.find?_cons_of_neg]
    rw [decide_eq_true_iff]
    exact isKey

theorem entriesMap_eq_none
    {name : Text}
    (missing : name ∉ entries.map key) :
    entriesMap key value entries name = none := by
  unfold entriesMap
  rw [Option.map_eq_none_iff, List.find?_eq_none]
  intro other isIn
  rw [decide_eq_true_iff]
  exact fun same => missing (same ▸ List.mem_map_of_mem isIn)

/-- Entries with distinct keys that are set one after the other. -/
theorem foldl_update
    (distinct : (entries.map key).Nodup)
    (map : Text → Option β) :
    entries.foldl
        (fun map entry => Function.update map (key entry) (some (value entry)))
        map =
      fun name => (entriesMap key value entries name).or (map name) := by
  induction entries generalizing map with
  | nil =>
      rfl
  | cons entry entries inductionHypothesis =>
      rw [List.map_cons, List.nodup_cons] at distinct
      rw [List.foldl_cons, inductionHypothesis distinct.2]
      funext name
      rw [entriesMap_cons]
      split
      · rename_i isKey
        rw [← isKey, entriesMap_eq_none distinct.1, Function.update_self]
        rfl
      · rename_i other
        rw [Function.update_of_ne (Ne.symm other)]

theorem foldl_update_noEntries
    (distinct : (entries.map key).Nodup) :
    entries.foldl
        (fun map entry => Function.update map (key entry) (some (value entry)))
        noEntries =
      entriesMap key value entries := by
  rw [foldl_update distinct]
  funext name
  exact Option.or_none

end

/-- The key of the bus map that an address stands for. -/
def Address.key : Address → Text
  | .port value => "tcp:".toList ++ Nat.toDigits 10 value.toNat
  | .pipe path => "pipe:".toList ++ path.text

/-- The text of the value of an option. -/
def OptionValue.record : OptionValue → Text
  | .text value => value.text
  | .number value => Nat.toDigits 10 value.toNat

/-- The plug of a device. -/
def DeviceDescription.plug (device : DeviceDescription) : BusDevicePlug :=
  { name := device.name.text, hostFlag := device.host, ident := device.ident }

/-- The record of a bus. -/
def BusDescription.record (bus : BusDescription) : Call :=
  .serviceAddBus bus.address.key bus.name.text bus.protocol.text
    (entriesMap (·.name.text) DeviceDescription.plug bus.devices)
    (entriesMap (·.1.text) (·.2.record) bus.options)

/-- The record of a process. -/
def ProcessDescription.record (process : ProcessDescription) : Call :=
  .processAdd process.name.text process.exec.text process.stdin.text
    process.stdout.text process.stderr.text
    (entriesMap (·.1.text) (·.2.text) process.env)

/-- The record of a section. -/
def Description.record : Description → Call
  | .bus description => description.record
  | .process description => description.record

/-! ## Items -/

/-- The items of a bus. -/
inductive BusItem where
  | name (text : Quotable)
  | protocol (text : Quotable)
  | address (address : Address)
  | device (device : DeviceDescription)
  | option (key : Identifier) (value : OptionValue)

/-- The items of a process. -/
inductive ProcessItem where
  | name (text : Quotable)
  | exec (text : Quotable)
  | stdin (text : Quotable)
  | stdout (text : Quotable)
  | stderr (text : Quotable)
  | env (key value : Quotable)

/-- An assignment to a keyword. -/
def assignment (keyword : Keyword) (text : Quotable) : List Token :=
  [.keyword keyword, .char '=', .string text.text, .char ';']

/-- An item in the syntax of the configuration file. -/
def BusItem.tokens : BusItem → List Token
  | .name text => assignment .name text
  | .protocol text => assignment .protocol text
  | .address (.port value) =>
      [.keyword .port, .char '=', .integer value, .char ';']
  | .address (.pipe path) => assignment .pipe path
  | .device plug =>
      [.keyword (if plug.host then .host else .device), .integer plug.ident,
        .string plug.name.text, .char ';']
  | .option key (.text value) =>
      [.identifier key.text, .char '=', .string value.text, .char ';']
  | .option key (.number value) =>
      [.identifier key.text, .char '=', .integer value, .char ';']

/-- An item in the syntax of the configuration file. -/
def ProcessItem.tokens : ProcessItem → List Token
  | .name text => assignment .name text
  | .exec text => assignment .exec text
  | .stdin text => assignment .stdin text
  | .stdout text => assignment .stdout text
  | .stderr text => assignment .stderr text
  | .env key value =>
      [.keyword .env, .string key.text, .char '=', .string value.text, .char ';']

/-- The items of a bus in one order. -/
def BusDescription.items (bus : BusDescription) : List BusItem :=
  .name bus.name :: .protocol bus.protocol :: .address bus.address ::
    (bus.devices.map .device ++ bus.options.map fun option =>
      .option option.1 option.2)

/-- The items of a process in one order. -/
def ProcessDescription.items (process : ProcessDescription) : List ProcessItem :=
  .name process.name :: .exec process.exec :: .stdin process.stdin ::
    .stdout process.stdout :: .stderr process.stderr ::
    process.env.map fun setting => .env setting.1 setting.2

/-- The items that need not be there: the name is optional. -/
def BusItem.Default : BusItem → Prop
  | .name text => text.text = []
  | _ => False

/-- The items that need not be there, with what they default to. -/
def ProcessItem.Default : ProcessItem → Prop
  | .name text | .stderr text => text.text = []
  | .stdin text | .stdout text => text.text = "/dev/null".toList
  | _ => False

/-- Items in any order, some defaults left out. -/
def Arranges {Item : Type} (Default : Item → Prop) (all items : List Item) : Prop :=
  ∃ omitted, (omitted ++ items).Perm all ∧ ∀ item ∈ omitted, Default item

/-- The tokens of a section. -/
def sectionTokens (kind : SectionKind) (items : List (List Token)) : List Token :=
  [.keyword kind.keyword, .char '\x7b'] ++ items.flatten ++ [.char '\x7d']

/-- The tokens that describe a section. -/
inductive Description.Described : Description → List Token → Prop where
  | bus
      (bus : BusDescription)
      (items : List BusItem)
      (arranges : Arranges BusItem.Default bus.items items) :
      Described (.bus bus) (sectionTokens .bus (items.map BusItem.tokens))
  | process
      (process : ProcessDescription)
      (items : List ProcessItem)
      (arranges : Arranges ProcessItem.Default process.items items) :
      Described (.process process)
        (sectionTokens .process (items.map ProcessItem.tokens))

end Simbus.Config
