import Mathlib
import Simbus.Config.Description

/-!
# The records of descriptions

The actions of the items of a section commute, so that any arrangement of them
leaves the same static variables behind.
-/

namespace Simbus.Config

/-! ## Arrangements -/

section

variable {Item : Type}
variable {Default : Item → Prop}
variable {all items : List Item}
variable {act : Statics → Item → Statics}
variable {use : Statics}

theorem foldl_idle
    (idle : ∀ item ∈ items, act use item = use) :
    items.foldl act use = use := by
  induction items with
  | nil =>
      rfl
  | cons item items inductionHypothesis =>
      rw [List.foldl_cons, idle item List.mem_cons_self]
      exact inductionHypothesis fun other isIn =>
        idle other (List.mem_cons_of_mem _ isIn)

/-- An arrangement of commuting items does what all items do in their order. -/
theorem Arranges.foldl
    (arranges : Arranges Default all items)
    (commute : ∀ item ∈ all, ∀ other ∈ all, ∀ use,
      act (act use item) other = act (act use other) item)
    (idle : ∀ item, Default item → act use item = use) :
    items.foldl act use = all.foldl act use := by
  obtain ⟨omitted, rearranged, defaults⟩ := arranges
  have same : (omitted ++ items).foldl act use = all.foldl act use := by
    apply rearranged.foldl_eq'
    intro item isItem other isOther
    exact commute item (rearranged.mem_iff.mp isItem) other
      (rearranged.mem_iff.mp isOther)
  rw [← same, List.foldl_append,
    foldl_idle fun item isIn => idle item (defaults item isIn)]

theorem Arranges.mem
    (arranges : Arranges Default all items)
    {item : Item}
    (isItem : item ∈ all)
    (notDefault : ¬ Default item) :
    item ∈ items := by
  obtain ⟨omitted, rearranged, defaults⟩ := arranges
  rcases List.mem_append.mp (rearranged.mem_iff.mpr isItem) with isIn | isIn
  · exact absurd (defaults item isIn) notDefault
  · exact isIn

end

/-- Where an item is recorded. -/
inductive Place where
  | name | protocol | address | exec | stdin | stdout | stderr
  | device (name : Text)
  | option (key : Text)
  | env (key : Text)

section

variable {Item : Type}
variable {place : Item → Place}
variable {all : List Item}
variable {act : Statics → Item → Statics}

/-- Items at distinct places commute if those at different ones do. -/
theorem commute_of_distinct
    (distinct : (all.map place).Nodup)
    (commute : ∀ item other use, place item ≠ place other →
      act (act use item) other = act (act use other) item) :
    ∀ item ∈ all, ∀ other ∈ all, ∀ use,
      act (act use item) other = act (act use other) item := by
  intro item isItem other isOther use
  by_cases same : place item = place other
  · rw [List.inj_on_of_nodup_map distinct isItem isOther same]
  · exact commute item other use same

end

/-! ## Buses -/

/-- The action of an item of a bus. -/
def BusItem.act (use : Statics) (item : BusItem) : Statics :=
  busAction item.tokens use

/-- Where an item of a bus is recorded. -/
def BusItem.place : BusItem → Place
  | .name _ => .name
  | .protocol _ => .protocol
  | .address _ => .address
  | .device plug => .device plug.name.text
  | .option key _ => .option key.text

theorem BusItem.act_device
    (use : Statics)
    (device : DeviceDescription) :
    BusItem.act use (.device device) =
      { use with
        busDevices :=
          Function.update use.busDevices device.name.text (some device.plug) } := by
  obtain ⟨name, ident, host⟩ := device
  cases host <;> rfl

theorem BusItem.act_option
    (use : Statics)
    (key : Identifier)
    (value : OptionValue) :
    BusItem.act use (.option key value) =
      { use with
        busOptions :=
          Function.update use.busOptions key.text (some value.record) } := by
  cases value <;> rfl

theorem BusItem.act_comm
    (item other : BusItem)
    (use : Statics)
    (apart : item.place ≠ other.place) :
    BusItem.act (BusItem.act use item) other =
      BusItem.act (BusItem.act use other) item := by
  cases item with
  | device device =>
      rw [act_device, act_device]
      cases other with
      | device other =>
          rw [act_device, act_device]
          have differ : other.name.text ≠ device.name.text := fun same =>
            apart (congrArg Place.device same.symm)
          simp only
          rw [Function.update_comm differ]
      | option key value =>
          rw [act_option, act_option]
      | address address =>
          cases address <;> rfl
      | _ =>
          rfl
  | option key value =>
      rw [act_option, act_option]
      cases other with
      | device other =>
          rw [act_device, act_device]
      | option other value' =>
          rw [act_option, act_option]
          have differ : other.text ≠ key.text := fun same =>
            apart (congrArg Place.option same.symm)
          simp only
          rw [Function.update_comm differ]
      | address address =>
          cases address <;> rfl
      | _ =>
          rfl
  | address address =>
      cases other with
      | device other =>
          rw [act_device, act_device]
          cases address <;> rfl
      | option key value =>
          rw [act_option, act_option]
          cases address <;> rfl
      | address other =>
          exact absurd rfl apart
      | _ =>
          cases address <;> rfl
  | name text | protocol text =>
      cases other with
      | device other =>
          rw [act_device, act_device]
          rfl
      | option key value =>
          rw [act_option, act_option]
          rfl
      | address other =>
          cases other <;> rfl
      | _ =>
          first
          | rfl
          | exact absurd rfl apart

/-- The items of a bus are recorded at distinct places. -/
theorem BusDescription.places_distinct
    (bus : BusDescription) :
    (bus.items.map BusItem.place).Nodup := by
  have places : bus.items.map BusItem.place =
      .name :: .protocol :: .address ::
        ((bus.devices.map (·.name.text)).map .device ++
          (bus.options.map (·.1.text)).map .option) := by
    rw [BusDescription.items, List.map_cons, List.map_cons, List.map_cons,
      List.map_append, List.map_map, List.map_map, List.map_map, List.map_map]
    rfl
  have devices := bus.devicesDistinct.map
    (fun _ _ same => Place.device.inj same : Function.Injective Place.device)
  have options := bus.optionsDistinct.map
    (fun _ _ same => Place.option.inj same : Function.Injective Place.option)
  have apart : List.Disjoint ((bus.devices.map (·.name.text)).map Place.device)
      ((bus.options.map (·.1.text)).map Place.option) := by
    intro place isDevice isOption
    obtain ⟨_, _, rfl⟩ := List.mem_map.mp isDevice
    obtain ⟨_, _, same⟩ := List.mem_map.mp isOption
    cases same
  rw [places, List.nodup_cons, List.nodup_cons, List.nodup_cons]
  refine ⟨?_, ?_, ?_, devices.append options apart⟩ <;> simp

/-- What is recorded for the address: an empty path is taken for no path. -/
def Address.made : Address → Text
  | .port value => "tcp:".toList ++ Nat.toDigits 10 value.toNat
  | .pipe path =>
      if path.text.length = 0 then
        "tcp:".toList ++ Nat.toDigits 10 0
      else
        "pipe:".toList ++ path.text

/-- The record that is made of a bus. -/
def BusDescription.made (bus : BusDescription) : Call :=
  .serviceAddBus bus.address.made bus.name.text bus.protocol.text
    (entriesMap (·.name.text) DeviceDescription.plug bus.devices)
    (entriesMap (·.1.text) (·.2.record) bus.options)

theorem foldl_devices
    (devices : List DeviceDescription)
    (use : Statics) :
    (devices.map .device).foldl BusItem.act use =
      { use with
        busDevices :=
          devices.foldl
            (fun map device =>
              Function.update map device.name.text (some device.plug))
            use.busDevices } := by
  induction devices generalizing use with
  | nil =>
      rfl
  | cons device devices inductionHypothesis =>
      rw [List.map_cons, List.foldl_cons, BusItem.act_device,
        inductionHypothesis]
      rfl

theorem foldl_options
    (options : List (Identifier × OptionValue))
    (use : Statics) :
    (options.map fun option => .option option.1 option.2).foldl BusItem.act use =
      { use with
        busOptions :=
          options.foldl
            (fun map option =>
              Function.update map option.1.text (some option.2.record))
            use.busOptions } := by
  induction options generalizing use with
  | nil =>
      rfl
  | cons option options inductionHypothesis =>
      rw [List.map_cons, List.foldl_cons, BusItem.act_option,
        inductionHypothesis]
      rfl

/-- The record of a bus depends on no arrangement of its items. -/
theorem BusDescription.wrapUp
    (bus : BusDescription)
    {items : List BusItem}
    (arranges : Arranges BusItem.Default bus.items items)
    (use : Statics) :
    (items.foldl BusItem.act use.startNewBus).wrapUpNewBus = bus.made := by
  have idle : ∀ item : BusItem, item.Default →
      BusItem.act use.startNewBus item = use.startNewBus := by
    intro item default
    cases item with
    | name text =>
        have none_ : text.text = [] := default
        change { use.startNewBus with name := text.text } = use.startNewBus
        rw [none_]
        rfl
    | _ =>
        exact absurd default id
  rw [arranges.foldl (commute_of_distinct bus.places_distinct BusItem.act_comm)
    idle, BusDescription.items, List.foldl_cons, List.foldl_cons,
    List.foldl_cons, List.foldl_append, foldl_devices, foldl_options]
  rcases address : bus.address with value | path
  · rw [BusDescription.made, address]
    exact congrArg₂ (Call.serviceAddBus _ _ _)
      (foldl_update_noEntries bus.devicesDistinct)
      (foldl_update_noEntries bus.optionsDistinct)
  · rw [BusDescription.made, address]
    exact congrArg₂ (Call.serviceAddBus _ _ _)
      (foldl_update_noEntries bus.devicesDistinct)
      (foldl_update_noEntries bus.optionsDistinct)

/-! ## Processes -/

/-- The action of an item of a process. -/
def ProcessItem.act (use : Statics) (item : ProcessItem) : Statics :=
  processAction item.tokens use

/-- Where an item of a process is recorded. -/
def ProcessItem.place : ProcessItem → Place
  | .name _ => .name
  | .exec _ => .exec
  | .stdin _ => .stdin
  | .stdout _ => .stdout
  | .stderr _ => .stderr
  | .env key _ => .env key.text

theorem ProcessItem.act_comm
    (item other : ProcessItem)
    (use : Statics)
    (apart : item.place ≠ other.place) :
    ProcessItem.act (ProcessItem.act use item) other =
      ProcessItem.act (ProcessItem.act use other) item := by
  cases item with
  | env key value =>
      cases other with
      | env other value' =>
          have differ : other.text ≠ key.text := fun same =>
            apart (congrArg Place.env same.symm)
          exact congrArg
            (fun env : Text → Option Text => { use with procEnv := env })
            (Function.update_comm differ _ _ _).symm
      | _ =>
          rfl
  | _ =>
      cases other <;>
        first
        | rfl
        | exact absurd rfl apart

/-- The items of a process are recorded at distinct places. -/
theorem ProcessDescription.places_distinct
    (process : ProcessDescription) :
    (process.items.map ProcessItem.place).Nodup := by
  have places : process.items.map ProcessItem.place =
      .name :: .exec :: .stdin :: .stdout :: .stderr ::
        (process.env.map (·.1.text)).map .env := by
    rw [ProcessDescription.items, List.map_cons, List.map_cons, List.map_cons,
      List.map_cons, List.map_cons, List.map_map, List.map_map]
    rfl
  have env := process.envDistinct.map
    (fun _ _ same => Place.env.inj same : Function.Injective Place.env)
  rw [places, List.nodup_cons, List.nodup_cons, List.nodup_cons, List.nodup_cons,
    List.nodup_cons]
  refine ⟨?_, ?_, ?_, ?_, ?_, env⟩ <;> simp

theorem foldl_env
    (env : List (Quotable × Quotable))
    (use : Statics) :
    (env.map fun setting => .env setting.1 setting.2).foldl ProcessItem.act use =
      { use with
        procEnv :=
          env.foldl
            (fun map setting =>
              Function.update map setting.1.text (some setting.2.text))
            use.procEnv } := by
  induction env generalizing use with
  | nil =>
      rfl
  | cons setting env inductionHypothesis =>
      rw [List.map_cons, List.foldl_cons, inductionHypothesis]
      rfl

/-- The record of a process depends on no arrangement of its items. -/
theorem ProcessDescription.wrapUp
    (process : ProcessDescription)
    {items : List ProcessItem}
    (arranges : Arranges ProcessItem.Default process.items items)
    (use : Statics) :
    (items.foldl ProcessItem.act use.startNewProcess).wrapUpNewProcess =
      process.record := by
  have idle : ∀ item : ProcessItem, item.Default →
      ProcessItem.act use.startNewProcess item = use.startNewProcess := by
    intro item default
    cases item with
    | name text =>
        have none_ : text.text = [] := default
        change { use.startNewProcess with name := text.text } = _
        rw [none_]
        rfl
    | stdin text =>
        have null : text.text = "/dev/null".toList := default
        change { use.startNewProcess with procStdin := text.text } = _
        rw [null]
        rfl
    | stdout text =>
        have null : text.text = "/dev/null".toList := default
        change { use.startNewProcess with procStdout := text.text } = _
        rw [null]
        rfl
    | stderr text =>
        have none_ : text.text = [] := default
        change { use.startNewProcess with procStderr := text.text } = _
        rw [none_]
        rfl
    | _ =>
        exact absurd default id
  rw [arranges.foldl
    (commute_of_distinct process.places_distinct ProcessItem.act_comm) idle,
    ProcessDescription.items, List.foldl_cons, List.foldl_cons, List.foldl_cons,
    List.foldl_cons, List.foldl_cons, foldl_env]
  exact congrArg (Call.processAdd _ _ _ _ _)
    (foldl_update_noEntries process.envDistinct)

/-! ## Sections -/

/-- The record that is made of a section. -/
def Description.made : Description → Call
  | .bus description => description.made
  | .process description => description.record

/-- A pipe has a path. -/
def Address.Named : Address → Prop
  | .port _ => True
  | .pipe path => path.text ≠ []

/-- The pipe of a bus has a path. -/
def Description.Named : Description → Prop
  | .bus description => description.address.Named
  | .process _ => True

/-- A path that is there is recorded. -/
theorem Address.made_eq_key_iff
    (address : Address) :
    address.made = address.key ↔ address.Named := by
  cases address with
  | port value =>
      exact ⟨fun _ => trivial, fun _ => rfl⟩
  | pipe path =>
      rw [Address.made, Address.key, Address.Named]
      split
      · rename_i none_
        rw [List.length_eq_zero_iff] at none_
        rw [none_]
        decide
      · rename_i some_
        exact ⟨fun _ none_ => some_ (List.length_eq_zero_iff.mpr none_),
          fun _ => rfl⟩

/-- The record that is made is the one of the description. -/
theorem Description.made_eq_record_iff
    (description : Description) :
    description.made = description.record ↔ description.Named := by
  cases description with
  | bus bus =>
      rw [Description.Named, ← Address.made_eq_key_iff]
      constructor
      · intro same
        injection same
      · intro same
        rw [Description.made, Description.record, BusDescription.made, same]
        rfl
  | process process =>
      exact ⟨fun _ => trivial, fun _ => rfl⟩

end Simbus.Config
