import Simbus.ByteFormat
import Simbus.Lxt2.Change
import Mathlib

/-!
# Sections of an LXT2 trace

A section has the granules of up to 256 × 64 times, and behind them the strings
and the masks that their codes and columns refer to by number.  The numbers of
entries come last, so a reader starts at the end.
-/

set_option autoImplicit false

namespace Simbus.Lxt2

open ByteFormat

/-- `LXT2_WR_GRANULE_SIZE`. -/
def granuleSize : Nat := 64

/-- `LXT2_WR_GRAN_SECT_TIME`. -/
def granSectTime : Nat := 0

/-- `LXT2_WR_GRAN_SECT_DICT`. -/
def granSectDict : Nat := 1

/-! ## Texts as bytes -/

/-- The characters of a C string are bytes other than 0. -/
def IsCString (text : Text) : Prop :=
  ∀ ch ∈ text, 0 < ch.toNat ∧ ch.toNat < 256

instance (text : Text) : Decidable (IsCString text) :=
  List.decidableBAll (fun ch : Char => 0 < ch.toNat ∧ ch.toNat < 256) text

/-- The bytes of a C string. -/
def textBytes (text : Text) : List UInt8 :=
  text.map fun ch => UInt8.ofNat ch.toNat

/-- The C string of some bytes. -/
def bytesText (bytes : List UInt8) : Text :=
  bytes.map fun byte => Char.ofNat byte.toNat

theorem bytesText_textBytes
    {text : Text}
    (isCString : IsCString text) :
    bytesText (textBytes text) = text := by
  induction text with
  | nil =>
      rfl
  | cons ch text inductionHypothesis =>
      rcases List.forall_mem_cons.mp isCString with ⟨⟨_, isByte⟩, isRest⟩
      rw [textBytes, List.map_cons, bytesText, List.map_cons,
        UInt8.toNat_ofNat', Nat.mod_eq_of_lt isByte, Char.ofNat_toNat]
      exact congrArg (ch :: ·) (inductionHypothesis isRest)

theorem textBytes_noZero
    {text : Text}
    (isCString : IsCString text) :
    0 ∉ textBytes text := by
  intro member
  rcases List.mem_map.mp member with ⟨ch, isChar, isZero⟩
  rcases isCString ch isChar with ⟨positive, isByte⟩
  have value := congrArg UInt8.toNat isZero
  rw [UInt8.toNat_ofNat', Nat.mod_eq_of_lt isByte] at value
  exact positive.ne' value

/-- Read a C string. -/
def readText : Reader Text :=
  readZeroEnded.map bytesText

theorem reads_text
    {text : Text}
    (isCString : IsCString text) :
    Reads readText (zeroEnded (textBytes text)) text := by
  have reads := (reads_zeroEnded (textBytes_noZero isCString)).map bytesText
  rwa [bytesText_textBytes isCString] at reads

/-! ## Granules -/

/-- The changes of a facility in a granule: at which times, and which ones. -/
structure Column where
  msk : Nat
  chg : List Encoding

/-- The times of a granule and the changes of each facility. -/
structure Granule where
  times : List (BitVec 64)
  columns : List Column

/-- The number of changes that a mask stands for. -/
def ones (msk : Nat) : Nat :=
  (List.range granuleSize).countP msk.testBit

/-- How many bytes a number below some bound takes. -/
def nbytes (entries : Nat) : Nat :=
  if entries ≤ 256 then
    1
  else if entries ≤ 256 * 256 then
    2
  else if entries ≤ 256 * 256 * 256 then
    3
  else
    4

/-- What `lxt2_wr_flush_granule` writes of the times. -/
def timesBytes (times : List (BitVec 64)) : List UInt8 :=
  bigEndian 1 times.length ++ times.flatMap fun time => bigEndian 8 time.toNat

/-- What it writes of the masks. -/
def mapsBytes (mapNbytes : Nat) (numbers : List Nat) : List UInt8 :=
  bigEndian 1 mapNbytes ++ numbers.flatMap (bigEndian mapNbytes)

/-- What it writes of the changes. -/
def changesBytes (idxNbytes : Nat) (columns : List Column) : List UInt8 :=
  bigEndian 1 idxNbytes ++
    columns.flatMap fun column =>
      column.chg.flatMap fun encoding => bigEndian idxNbytes encoding.code

/-- A granule whose masks have some numbers, behind its tag. -/
def granuleBytes
    (mapNbytes idxNbytes : Nat)
    (numbers : List Nat)
    (granule : Granule) : List UInt8 :=
  timesBytes granule.times ++
    (mapsBytes mapNbytes numbers ++ changesBytes idxNbytes granule.columns)

/-- Read some time. -/
def readTime : Reader (BitVec 64) :=
  (readNumber 8).map (BitVec.ofNat 64)

/-- Read a change. -/
def readChange (idxNbytes : Nat) : Reader Encoding :=
  (readNumber idxNbytes).map Encoding.ofCode

/-- Read the changes of a facility with the mask of some number. -/
def readColumn
    (maps : List Nat)
    (idxNbytes number : Nat) : Reader Column :=
  match maps[number]? with
  | none => fun _ => none
  | some msk =>
      (Reader.each (List.replicate (ones msk) (readChange idxNbytes))).map
        (Column.mk msk)

/-- Read what follows the tag of a granule. -/
def readGranule (maps : List Nat) (numfacs : Nat) : Reader Granule :=
  (readNumber 1).bind fun timepos =>
    (Reader.each (List.replicate timepos readTime)).bind fun times =>
      (readNumber 1).bind fun mapNbytes =>
        (Reader.each (List.replicate numfacs (readNumber mapNbytes))).bind
          fun numbers =>
            (readNumber 1).bind fun idxNbytes =>
              (Reader.each (numbers.map (readColumn maps idxNbytes))).map
                (Granule.mk times)

theorem reads_time (time : BitVec 64) :
    Reads readTime (bigEndian 8 time.toNat) time := by
  have fits : time.toNat < 256 ^ 8 := time.isLt
  have reads := (reads_number fits).map (BitVec.ofNat 64)
  rwa [BitVec.ofNat_toNat, BitVec.setWidth_eq] at reads

theorem reads_change
    {idxNbytes : Nat}
    {encoding : Encoding}
    (fits : encoding.code < 256 ^ idxNbytes) :
    Reads (readChange idxNbytes) (bigEndian idxNbytes encoding.code) encoding := by
  have reads := (reads_number fits).map Encoding.ofCode
  rwa [ofCode_code] at reads

/-- Items that are read alike. -/
theorem reads_replicate
    {ι : Type}
    {reader : Reader ι}
    {items : List ι}
    {bytes : ι → List UInt8}
    (reads : ∀ item ∈ items, Reads reader (bytes item) item) :
    Reads (.each (List.replicate items.length reader)) (items.flatMap bytes)
      items := by
  have readsAll : Reads (.each (items.map fun _ => reader))
      (items.flatMap bytes) (items.map id) :=
    .each reads
  rwa [List.map_id, List.map_const'] at readsAll

theorem reads_column
    {maps : List Nat}
    {idxNbytes number : Nat}
    {column : Column}
    (isMap : maps[number]? = some column.msk)
    (whole : column.chg.length = ones column.msk)
    (fits : ∀ encoding ∈ column.chg, encoding.code < 256 ^ idxNbytes) :
    Reads (readColumn maps idxNbytes number)
      (column.chg.flatMap fun encoding => bigEndian idxNbytes encoding.code)
      column := by
  have reads := (reads_replicate fun encoding member =>
    reads_change (fits encoding member)).map (Column.mk column.msk)
  rw [whole] at reads
  simpa only [readColumn, isMap] using reads

/-- What makes a granule legible: its numbers stand for its masks, and all fit. -/
structure Legible
    (maps : List Nat)
    (mapNbytes idxNbytes : Nat)
    (numbers : List Nat)
    (granule : Granule) : Prop where
  times : granule.times.length < 256
  mapNarrow : mapNbytes < 256
  idxNarrow : idxNbytes < 256
  isMap : List.Forall₂
    (fun number column => maps[number]? = some column.msk) numbers granule.columns
  numberFits : ∀ number ∈ numbers, number < 256 ^ mapNbytes
  whole : ∀ column ∈ granule.columns, column.chg.length = ones column.msk
  changeFits : ∀ column ∈ granule.columns, ∀ encoding ∈ column.chg,
    encoding.code < 256 ^ idxNbytes

/-- The columns are read by the numbers of their masks. -/
theorem reads_columns
    {maps : List Nat}
    {idxNbytes : Nat}
    {numbers : List Nat}
    {columns : List Column}
    (isMap : List.Forall₂
      (fun number column => maps[number]? = some column.msk) numbers columns)
    (whole : ∀ column ∈ columns, column.chg.length = ones column.msk)
    (fits : ∀ column ∈ columns, ∀ encoding ∈ column.chg,
      encoding.code < 256 ^ idxNbytes) :
    Reads (.each (numbers.map (readColumn maps idxNbytes)))
      (columns.flatMap fun column =>
        column.chg.flatMap fun encoding => bigEndian idxNbytes encoding.code)
      columns := by
  induction isMap with
  | nil =>
      exact .pure []
  | @cons number column numbers columns isFirst _ inductionHypothesis =>
      rw [List.forall_mem_cons] at whole fits
      exact (reads_column isFirst whole.1 fits.1).bind
        ((inductionHypothesis whole.2 fits.2).map (column :: ·))

theorem reads_granule
    {maps : List Nat}
    {mapNbytes idxNbytes : Nat}
    {numbers : List Nat}
    {granule : Granule}
    (legible : Legible maps mapNbytes idxNbytes numbers granule) :
    Reads (readGranule maps granule.columns.length)
      (granuleBytes mapNbytes idxNbytes numbers granule) granule := by
  have sameLength : numbers.length = granule.columns.length :=
    legible.isMap.length_eq
  have readsColumns := (reads_columns legible.isMap legible.whole
    legible.changeFits).map (Granule.mk granule.times)
  have readsNumbers : Reads
      (.each (List.replicate granule.columns.length (readNumber mapNbytes)))
      (numbers.flatMap (bigEndian mapNbytes)) numbers := by
    rw [← sameLength]
    exact reads_replicate fun number member =>
      reads_number (legible.numberFits number member)
  have readsTimes : Reads
      (.each (List.replicate granule.times.length readTime))
      (granule.times.flatMap fun time => bigEndian 8 time.toNat) granule.times :=
    reads_replicate fun time _ => reads_time time
  rw [granuleBytes, timesBytes, mapsBytes, changesBytes]
  simp only [List.append_assoc]
  apply (reads_number (by rw [pow_one]; exact legible.times)).bind
  apply readsTimes.bind
  apply (reads_number (by rw [pow_one]; exact legible.mapNarrow)).bind
  apply readsNumbers.bind
  apply (reads_number (by rw [pow_one]; exact legible.idxNarrow)).bind
  exact readsColumns

/-! ## Sections -/

/-- What a section says: its granules and the strings of its dictionary. -/
structure Section where
  granules : List Granule
  strings : List Text

/-- What the end of a section refers to by number. -/
def dictBytes (strings : List Text) : List UInt8 :=
  bigEndian 1 granSectDict ++
    strings.flatMap fun text => zeroEnded (textBytes text)

/-- The numbers of entries at the very end, with the size of the strings. -/
def trailerBytes (numDict stringMem numMap : Nat) : List UInt8 :=
  bigEndian 4 numDict ++ (bigEndian 4 stringMem ++ bigEndian 4 numMap)

/-- Read granules up to the dictionary, at most as many as there are bytes. -/
def readGranules (maps : List Nat) (numfacs : Nat) : Nat → Reader (List Granule)
  | 0 => fun _ => none
  | fuel + 1 =>
      (readNumber 1).bind fun tag =>
        if tag = granSectTime then
          (readGranule maps numfacs).bind fun granule =>
            (readGranules maps numfacs fuel).map (granule :: ·)
        else if tag = granSectDict then
          .pure []
        else
          fun _ => none

/-- Read how many strings and how many masks there are. -/
def readTrailer : Reader (Nat × Nat) :=
  (readNumber 4).bind fun numDict => (readNumber 4).bind fun _ =>
    (readNumber 4).map fun numMap => (numDict, numMap)

/-- Read a section of so many facilities, from its end and then from its start. -/
def readSection (numfacs : Nat) (contents : List UInt8) : Option Section := do
  let size := contents.length
  let ((numDict, numMap), _) ← readTrailer (contents.drop (size - 12))
  let (maps, _) ← Reader.each (List.replicate numMap (readNumber 8))
    (contents.drop (size - (8 * numMap + 12)))
  let (granules, rest) ← readGranules maps numfacs size contents
  let (strings, _) ← Reader.each (List.replicate numDict readText) rest
  some ⟨granules, strings⟩

/-- All granules of a section, with the numbers and widths they are written with. -/
structure WrittenGranule where
  granule : Granule
  numbers : List Nat
  mapNbytes : Nat
  idxNbytes : Nat

/-- The bytes of a granule with its tag. -/
def WrittenGranule.bytes (written : WrittenGranule) : List UInt8 :=
  bigEndian 1 granSectTime ++
    granuleBytes written.mapNbytes written.idxNbytes written.numbers
      written.granule

/-- A written granule of so many facilities can be read with some masks. -/
def WrittenGranule.Legible
    (maps : List Nat)
    (numfacs : Nat)
    (written : WrittenGranule) : Prop :=
  Lxt2.Legible maps written.mapNbytes written.idxNbytes written.numbers
      written.granule ∧
    written.granule.columns.length = numfacs

/-- The bytes of a section. -/
def sectionBytes
    (granules : List WrittenGranule)
    (strings : List Text)
    (maps : List Nat)
    (stringMem : Nat) : List UInt8 :=
  granules.flatMap WrittenGranule.bytes ++
    (dictBytes strings ++
      (maps.flatMap (bigEndian 8) ++
        trailerBytes strings.length stringMem maps.length))

theorem reads_granules
    {maps : List Nat}
    {numfacs fuel : Nat}
    {granules : List WrittenGranule}
    (legible : ∀ written ∈ granules, written.Legible maps numfacs)
    (enough : granules.length < fuel) :
    Reads (readGranules maps numfacs fuel)
      (granules.flatMap WrittenGranule.bytes ++ bigEndian 1 granSectDict)
      (granules.map WrittenGranule.granule) := by
  induction granules generalizing fuel with
  | nil =>
      cases fuel with
      | zero =>
          cases enough
      | succ fuel =>
          have tagFits : granSectDict < 256 ^ 1 := by decide
          rw [List.flatMap_nil, List.nil_append,
            ← List.append_nil (bigEndian 1 granSectDict)]
          exact (reads_number tagFits).bind (.pure [])
  | cons written granules inductionHypothesis =>
      cases fuel with
      | zero =>
          cases enough
      | succ fuel =>
          rw [List.forall_mem_cons] at legible
          rcases legible with ⟨⟨isLegible, rfl⟩, others⟩
          have tagFits : granSectTime < 256 ^ 1 := by decide
          have readsOthers := inductionHypothesis others
            (Nat.lt_of_succ_lt_succ enough)
          rw [List.flatMap_cons, WrittenGranule.bytes, List.append_assoc,
            List.append_assoc]
          apply (reads_number tagFits).bind
          exact (reads_granule isLegible).bind (readsOthers.map (_ :: ·))

theorem length_flatMap_bigEndian (width : Nat) (numbers : List Nat) :
    (numbers.flatMap (bigEndian width)).length = width * numbers.length := by
  induction numbers with
  | nil =>
      rfl
  | cons number numbers inductionHypothesis =>
      rw [List.flatMap_cons, List.length_append, length_bigEndian,
        inductionHypothesis, List.length_cons, Nat.mul_succ, Nat.add_comm]

/-- Every granule takes some place. -/
theorem length_le_flatMap_bytes (granules : List WrittenGranule) :
    granules.length ≤ (granules.flatMap WrittenGranule.bytes).length := by
  induction granules with
  | nil =>
      exact Nat.le_refl 0
  | cons written granules inductionHypothesis =>
      rw [List.flatMap_cons, List.length_append, WrittenGranule.bytes,
        List.length_append, length_bigEndian, List.length_cons]
      omega

/-- A reader at the end of some bytes. -/
theorem drop_back
    (front back : List UInt8)
    {size : Nat}
    (isBack : back.length = size) :
    (front ++ back).drop ((front ++ back).length - size) = back := by
  rw [List.length_append, isBack, Nat.add_sub_cancel, List.drop_left]

/-- What is read off the end of a section. -/
theorem reads_trailer
    {numDict numMap : Nat}
    (stringMem : Nat)
    (dictFits : numDict < 256 ^ 4)
    (mapFits : numMap < 256 ^ 4) :
    Reads readTrailer (trailerBytes numDict stringMem numMap)
      (numDict, numMap) := by
  apply (reads_number dictFits).bind
  apply (readNumber_bigEndian 4 stringMem).bind
  exact (reads_number mapFits).map _

/-- A section whose parts are legible is read as it was written. -/
theorem readSection_sectionBytes
    {numfacs : Nat}
    {granules : List WrittenGranule}
    {strings : List Text}
    {maps : List Nat}
    (stringMem : Nat)
    (legible : ∀ written ∈ granules, written.Legible maps numfacs)
    (cStrings : ∀ text ∈ strings, IsCString text)
    (dictFits : strings.length < 256 ^ 4)
    (mapFits : maps.length < 256 ^ 4)
    (masks : ∀ msk ∈ maps, msk < 256 ^ 8) :
    readSection numfacs (sectionBytes granules strings maps stringMem) =
      some ⟨granules.map WrittenGranule.granule, strings⟩ := by
  have trailerSize :
      (trailerBytes strings.length stringMem maps.length).length = 12 := by
    simp only [trailerBytes, List.length_append, length_bigEndian]
  have mapsSize : (maps.flatMap (bigEndian 8) ++
      trailerBytes strings.length stringMem maps.length).length =
        8 * maps.length + 12 := by
    rw [List.length_append, trailerSize, length_flatMap_bigEndian]
  have readsMaps : Reads
      (.each (List.replicate maps.length (readNumber 8)))
      (maps.flatMap (bigEndian 8)) maps :=
    reads_replicate fun msk member => reads_number (masks msk member)
  have readsStrings : Reads
      (.each (List.replicate strings.length readText))
      (strings.flatMap fun text => zeroEnded (textBytes text)) strings :=
    reads_replicate fun text member => reads_text (cStrings text member)
  have enough : granules.length <
      (sectionBytes granules strings maps stringMem).length := by
    have each := length_le_flatMap_bytes granules
    rw [sectionBytes, List.length_append, List.length_append, mapsSize]
    omega
  have atTrailer : (sectionBytes granules strings maps stringMem).drop
      ((sectionBytes granules strings maps stringMem).length - 12) =
        trailerBytes strings.length stringMem maps.length ++ [] := by
    simp only [sectionBytes, ← List.append_assoc]
    rw [drop_back _ _ trailerSize, List.append_nil]
  have atMaps : (sectionBytes granules strings maps stringMem).drop
      ((sectionBytes granules strings maps stringMem).length -
        (8 * maps.length + 12)) =
        maps.flatMap (bigEndian 8) ++
          trailerBytes strings.length stringMem maps.length := by
    rw [sectionBytes, ← List.append_assoc, drop_back _ _ mapsSize]
  have atStart : sectionBytes granules strings maps stringMem =
      (granules.flatMap WrittenGranule.bytes ++ bigEndian 1 granSectDict) ++
        ((strings.flatMap fun text => zeroEnded (textBytes text)) ++
          (maps.flatMap (bigEndian 8) ++
            trailerBytes strings.length stringMem maps.length)) := by
    simp only [sectionBytes, dictBytes, List.append_assoc]
  have readsGranules := reads_granules legible enough
  rw [readSection]
  simp only [atTrailer, reads_trailer stringMem dictFits mapFits [], atMaps,
    readsMaps _, Option.bind_eq_bind, Option.bind_some]
  rw [atStart] at readsGranules ⊢
  rw [readsGranules _, Option.bind_some, readsStrings _, Option.bind_some]

end Simbus.Lxt2
