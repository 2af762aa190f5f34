import Simbus.CheckedArray
import Simbus.Lxt2.Facilities
import Simbus.Numbering
import Mathlib

/-!
# The LXT2 writer

The writer collects the changes of up to 64 times in the symbols, then writes
them as a granule, and ends a section after so many granules.  A call fails where
the C code would follow a null pointer, access an array outside of its bounds or
report an internal error.
-/

set_option autoImplicit false

namespace Simbus.Lxt2

open ByteFormat Numbering Splay

/-- `LXT2_WR_GRANULE_NUM`. -/
def granuleNum : Nat := 256

/-- A symbol; `chg` holds as many changes as `chgpos` counts. -/
structure Symbol where
  facility : Facility
  value : Text
  msk : Nat
  chg : List Encoding

namespace Symbol

/-- A symbol as it is added, with the initial value x. -/
def added (facility : Facility) : Symbol where
  facility := facility
  value := List.replicate facility.len 'x'
  msk := 1
  chg := [.x]

/-- Put a change at a time position, or replace the one that is there. -/
def change
    (timepos : Nat)
    (encoding : Encoding)
    (symbol : Symbol) : Option Symbol :=
  if granuleSize ≤ timepos then
    none
  else if symbol.msk.testBit timepos then
    if symbol.chg.length = 0 then
      none
    else
      some { symbol with chg := symbol.chg.dropLast ++ [encoding] }
  else if granuleSize ≤ symbol.chg.length then
    none
  else
    some { symbol with
      msk := symbol.msk ||| 1 <<< timepos
      chg := symbol.chg ++ [encoding] }

/-- A symbol whose changes have been written. -/
def cleared (symbol : Symbol) : Symbol :=
  { symbol with
    msk := 0
    chg := [] }

/-- The changes of a symbol. -/
def column (symbol : Symbol) : Column where
  msk := symbol.msk
  chg := symbol.chg

end Symbol

/-- A finished section, with its sizes and times as they are patched in. -/
structure FileSection where
  unclen : Nat
  firsttime : BitVec 64
  lasttime : BitVec 64
  contents : List UInt8

/-- `lxt2_wr_trace`; there are no aliases, breaks, blackouts and partial blocks. -/
structure Trace where
  dict : Dictionary Text
  dictStringMemRequired : Nat
  mapdict : Dictionary Nat
  sym : SymTable
  symbols : List Symbol
  sortedFacs : Option (List Nat)
  numfacbytes : Nat
  longestname : Nat
  maxtime : BitVec 64
  timegranule : Nat
  timepos : Nat
  maxgranule : Nat
  firsttime : BitVec 64
  lasttime : BitVec 64
  timetable : Vector (BitVec 64) granuleSize
  flushtime : BitVec 64
  flushValid : Bool
  emitted : Bool
  timeset : Bool
  bumptime : Bool
  granuleDirty : Bool
  zhandle : GzStream
  header : Option FacHeader
  sections : List FileSection

namespace Trace

/-- `lxt2_wr_init`. -/
def init : Trace where
  dict := .empty
  dictStringMemRequired := 0
  mapdict := .empty
  sym := fun _ => []
  symbols := []
  sortedFacs := none
  numfacbytes := 0
  longestname := 0
  maxtime := 0
  timegranule := 0
  timepos := 0
  maxgranule := granuleNum
  firsttime := 0
  lasttime := 0
  timetable := Vector.replicate granuleSize 0
  flushtime := 0
  flushValid := false
  emitted := false
  timeset := false
  bumptime := false
  granuleDirty := false
  zhandle := .opened
  header := none
  sections := []

/-- The names of the symbols, in the order of their addition. -/
def names (trace : Trace) : List Text :=
  trace.symbols.map (·.facility.name)

/-! ## Facilities -/

/-- The facility that a call adds; strings have no range. -/
def facilityOf (name : Text) (rows msb lsb : BitVec 32) : Kind → Facility
  | .bits => ⟨name, rows, msb, lsb, .bits⟩
  | .string => ⟨name, rows, 0, 0, .string⟩

/-- `lxt2_wr_symbol_add`; it fails where the length of a range overflows. -/
def symbolAdd
    (name : Text)
    (rows msb lsb : BitVec 32)
    (kind : Kind)
    (trace : Trace) : Option (Option Nat × Trace) :=
  if trace.sortedFacs.isSome then
    some (none, trace)
  else if (symfind trace.sym trace.names name).isSome then
    some (none, trace)
  else if (facilityOf name rows msb lsb kind).InRange then
    some
      (some trace.symbols.length,
        { trace with
          sym := trace.sym.add name trace.symbols.length
          symbols := trace.symbols ++ [.added (facilityOf name rows msb lsb kind)]
          longestname := max trace.longestname name.length
          numfacbytes := trace.numfacbytes + (name.length + 1) })
  else
    none

/--
`lxt2_wr_symbol_find`.  The names of the symbols are null once the facilities are
written, so that it fails as soon as it comes to a symbol.
-/
def symbolFind (name : Text) (trace : Trace) : Option (Option Nat) :=
  if trace.sortedFacs.isSome then
    if trace.sym (hash name) = [] then
      some none
    else
      none
  else
    some (symfind trace.sym trace.names name)

/--
`lxt2_wr_emitfacs`.  It frees the names, which nothing reads later but
`symbolFind`.
-/
def emitfacs (trace : Trace) : Option Trace :=
  if trace.symbols.length = 0 then
    some trace
  else do
    let sorted ← waveMsort trace.names
    let facs ← sorted.mapM fun handle =>
      (trace.symbols[handle]?).map Symbol.facility
    let facnames ← emitFacnames none (facs.map Facility.name) .opened
    let geometry ← GzStream.emitEach emitGeometry facs .opened
    some { trace with
      sortedFacs := some sorted
      header := some
        { numfacs := trace.symbols.length
          numfacbytes := trace.numfacbytes
          longestname := trace.longestname
          zfacnamePredecSize := facnames.contents.length
          facnames := facnames.flushBuffered.contents
          geometry := geometry.flushBuffered.contents } }

/-- The first value writes the facilities. -/
def ensureFacs (trace : Trace) : Option Trace :=
  if trace.emitted then
    some trace
  else
    trace.emitfacs.map fun trace => { trace with emitted := true }

/-! ## Changes -/

/-- The code of a string in the dictionary, which it is added to if need be. -/
def dictEncoding (text : Text) (trace : Trace) : Option (Trace × Encoding) := do
  let (dict, number) :=
    trace.dict.use text (reaches text trace.dict.tree)
      (reaches_iff_mem trace.dict)
  let number ← number
  let added := if reaches text trace.dict.tree then 0 else text.length + 1
  some
    ({ trace with
        dict := dict
        dictStringMemRequired := trace.dictStringMemRequired + added },
      .dict number)

/-- `lxt2_wr_emit_value_bit_string` behind its first lines. -/
def recordBits (handle : Nat) (value : Text) (trace : Trace) : Option Trace := do
  let symbol ← trace.symbols[handle]?
  let value := normalize symbol.facility.len value
  let later := trace.timepos ≠ 0 || trace.timegranule ≠ 0
  if later && value = symbol.value then
    some trace
  else
    match symbol.facility.kind with
    | .string => some trace
    | .bits => do
        let (trace, encoding) ←
          match shortEncoding later symbol.value value with
          | some encoding => some (trace, encoding)
          | none => trace.dictEncoding (vcdTruncateBitvec value)
        let symbol ← symbol.change trace.timepos encoding
        some { trace with
          symbols := trace.symbols.set handle { symbol with value := value }
          bumptime := true
          granuleDirty := true }

/-- `lxt2_wr_emit_value_string` behind its first lines. -/
def recordString (handle : Nat) (value : Text) (trace : Trace) : Option Trace := do
  let symbol ← trace.symbols[handle]?
  match symbol.facility.kind with
  | .bits => some trace
  | .string =>
      if value = symbol.value then
        some trace
      else do
        let (trace, encoding) ← trace.dictEncoding value
        let symbol ← symbol.change trace.timepos encoding
        some { trace with
          symbols := trace.symbols.set handle { symbol with value := value }
          bumptime := true
          granuleDirty := true }

/-! ## Granules and sections -/

/-- The number of a mask, which gets one if it has none. -/
def useMap (mapdict : Dictionary Nat) (msk : Nat) : Dictionary Nat × Option Nat :=
  mapdict.use msk
    (decide ((splay msk mapdict.tree).root?.map Prod.fst = some msk))
    (decide_eq_true_iff.trans (root_splay_iff_mem mapdict))

/-- Write the numbers of some masks. -/
def emitMaps (mapNbytes : Nat) :
    List Nat → Dictionary Nat → GzStream → Option (Dictionary Nat × GzStream)
  | [], mapdict, stream => some (mapdict, stream)
  | msk :: msks, mapdict, stream => do
      let mapdict := mapdict.splayTo msk
      let val ← mapdict.rootNumber?
      let stream ← stream.emitNumber mapNbytes val
      emitMaps mapNbytes msks mapdict stream

/-- Write the changes of a facility. -/
def emitChanges (idxNbytes : Nat) (column : Column) : GzStream → Option GzStream :=
  GzStream.emitEach (fun encoding => GzStream.emitNumber idxNbytes encoding.code)
    column.chg

/-- The part of `lxt2_wr_flush_granule` that writes the granule. -/
def emitGranule (trace : Trace) : Option Trace :=
  if trace.symbols.length = 0 then
    some trace
  else do
    let facs ← trace.sortedFacs
    let columns ← facs.mapM fun handle =>
      (trace.symbols[handle]?).map Symbol.column
    let mapdict := (columns.map Column.msk).foldl
      (fun mapdict msk => (useMap mapdict msk).1) trace.mapdict
    let mapNbytes := nbytes mapdict.count
    let idxNbytes := nbytes (trace.dict.count + dictStart)
    let stream ← trace.zhandle.emitNumber 1 granSectTime
    let stream ← stream.emitNumber 1 trace.timepos
    let times ← CheckedArray.block? trace.timetable 0 trace.timepos
    let stream ← GzStream.emitEach (fun time => GzStream.emitU64z time.toNat)
      times stream
    let stream ← stream.flushBuffered.emitNumber 1 mapNbytes
    let (mapdict, stream) ← emitMaps mapNbytes (columns.map Column.msk) mapdict
      stream
    let stream ← stream.emitNumber 1 idxNbytes
    let stream ← GzStream.emitEach (emitChanges idxNbytes) columns
      stream.flushBuffered
    some { trace with
      mapdict := mapdict
      symbols := facs.foldl (fun symbols handle =>
        symbols.modify handle Symbol.cleared) trace.symbols
      zhandle := stream.flushBuffered }

/-- Write the entries of a chain, whose numbers must count from 0. -/
def emitChain
    {Item : Type}
    (emitOne : Item → GzStream → Option GzStream) :
    Nat → List (Item × Nat) → Nat → GzStream → Option GzStream
  | _, _, 0, stream => some stream
  | _, [], _ + 1, _ => none
  | idx, (item, val) :: chain, count + 1, stream =>
      if val ≠ idx then
        none
      else
        (emitOne item stream).bind (emitChain emitOne (idx + 1) chain count)

/-- The part of `lxt2_wr_flush_granule` that ends a section. -/
def finalizeSection (trace : Trace) : Option Trace := do
  let stream ← trace.zhandle.emitNumber 1 granSectDict
  let stream ← emitChain (fun text => GzStream.emitStringz (textBytes text)) 0
    trace.dict.chain trace.dict.count stream.flushBuffered
  let stream ← emitChain GzStream.emitU64z 0 trace.mapdict.chain
    trace.mapdict.count stream.flushBuffered
  let stream ← stream.emitNumber 4 trace.dict.count
  let stream ← stream.emitNumber 4 trace.dictStringMemRequired
  let stream ← stream.emitNumber 4 trace.mapdict.count
  let stream := stream.flushBuffered
  some { trace with
    dict := .empty
    dictStringMemRequired := 0
    mapdict := .empty
    timegranule := 0
    zhandle := stream
    sections := trace.sections ++
      [{ unclen := stream.contents.length
         firsttime := trace.firsttime
         lasttime := trace.lasttime
         contents := stream.contents }] }

/-- `lxt2_wr_flush_granule`. -/
def flushGranule (doFinalize : Bool) (trace : Trace) : Option Trace :=
  if trace.flushValid && trace.flushtime = trace.lasttime then
    some trace
  else do
    let trace :=
      { trace with
        flushValid := false
        granuleDirty := false
        zhandle := if trace.timegranule = 0 then .opened else trace.zhandle }
    let trace ← trace.emitGranule
    let trace :=
      { trace with
        timepos := 0
        timegranule := trace.timegranule + 1 }
    let trace ←
      if trace.maxgranule ≤ trace.timegranule || doFinalize then
        trace.finalizeSection
      else
        some trace
    some
      (if doFinalize then
        { trace with
          flushValid := true
          flushtime := trace.lasttime }
      else
        trace)

/-! ## Times -/

/-- Give a symbol its value again; the time is set, so that nothing else comes first. -/
def burstOne (trace : Trace) (handle : Nat) : Option Trace := do
  let symbol ← trace.symbols[handle]?
  if symbol.facility.rows.toNat < 2 then
    match symbol.facility.kind with
    | .bits =>
        if symbol.value = [] then
          some trace
        else
          trace.ensureFacs.bind (recordBits handle symbol.value)
    | .string => trace.ensureFacs.bind (recordString handle symbol.value)
  else
    some trace

/-- Give each symbol its value again, the newest one first. -/
def initialBurst (trace : Trace) : Option Trace :=
  (List.range trace.symbols.length).reverse.foldlM burstOne trace

/-- The next time position, if values have come since the last one. -/
def bump (trace : Trace) : Option Trace :=
  if trace.bumptime then
    let trace :=
      { trace with
        bumptime := false
        timepos := if trace.flushValid then trace.timepos else trace.timepos + 1
        flushValid := false }
    if trace.timepos = granuleSize then trace.flushGranule false else some trace
  else
    some trace

/-- The part of `lxt2_wr_set_time64` that stores the time. -/
def stamp (timeval : BitVec 64) (trace : Trace) : Option Trace :=
  if trace.timeset then
    if trace.maxtime < timeval then do
      let trace ← trace.bump
      let timetable ← CheckedArray.put? trace.timetable trace.timepos timeval
      some { trace with
        timetable := timetable
        lasttime := timeval }
    else
      some trace
  else do
    let timetable ← CheckedArray.put? trace.timetable trace.timepos timeval
    some { trace with
      timeset := true
      maxtime := timeval
      timetable := timetable }

/-- Its part that starts a section. -/
def checkpoint (timeval : BitVec 64) (trace : Trace) : Option Trace :=
  if trace.timepos = 0 && trace.timegranule = 0 then
    initialBurst
      { trace with
        firsttime := timeval
        lasttime := timeval }
  else
    some trace

/-- `lxt2_wr_set_time64`. -/
def setTime64 (timeval : BitVec 64) (trace : Trace) : Option Trace := do
  let trace ← trace.stamp timeval
  let trace ← trace.checkpoint timeval
  some { trace with granuleDirty := true }

/-- `lxt2_wr_set_time`. -/
def setTime (timeval : BitVec 32) (trace : Trace) : Option Trace :=
  trace.setTime64 (timeval.setWidth 64)

/-- What comes first in every call with a value. -/
def prologue (trace : Trace) : Option Trace :=
  if trace.emitted then
    some trace
  else do
    let trace ← trace.ensureFacs
    if trace.timeset then some trace else trace.setTime 0

/-- `lxt2_wr_emit_value_bit_string`; there may be no symbol. -/
def emitValueBitString
    (symbol : Option Nat)
    (value : Text)
    (trace : Trace) : Option Trace :=
  match symbol with
  | none => some trace
  | some handle =>
      if value = [] then
        some trace
      else
        trace.prologue.bind (recordBits handle value)

/-- `lxt2_wr_emit_value_string`. -/
def emitValueString
    (symbol : Option Nat)
    (value : Text)
    (trace : Trace) : Option Trace :=
  match symbol with
  | none => some trace
  | some handle => trace.prologue.bind (recordString handle value)

/-! ## The end -/

/-- `lxt2_wr_flush`. -/
def flush (trace : Trace) : Option Trace :=
  if trace.timegranule ≠ 0 || 0 < trace.timepos then
    if trace.granuleDirty then
      flushGranule true { trace with timepos := trace.timepos + 1 }
    else
      some trace
  else
    some trace

/-- `lxt2_wr_close`. -/
def close (trace : Trace) : Option Trace :=
  if trace.granuleDirty then
    flushGranule true { trace with timepos := trace.timepos + 1 }
  else
    some trace

end Trace

end Simbus.Lxt2
