import CartLedger.Journal.Durable
import CartLedger.Proofs.Journal.Numbering
import CartLedger.Proofs.Record.Codec
import CartLedger.Proofs.Storage.Registry

/-! What is in the file of a stream.

The file of a stream holds the stream's records, a line each, and perhaps what a write that
was cut short left behind them (`Filled`). A journal that reads it goes through the lines
of these records and nothing else (`Filled.readFile_eq`), one that looks for its end finds
it (`Filled.scan_eq`), and the next record goes where the intact part ends
(`Filled.place_eq`). What a line says beyond its number depends on the record; those that a
line keeps as they are are read again (`Written.readFile_eq`). -/
namespace CartLedger.Journal.Durable
open CartLedger.Json (Document)
open CartLedger.Record (Storable)
open CartLedger.Storage
open CartLedger.Text
open CartLedger.Text.Lines (newline joined counted Plain)

/-! ### Lines -/

/-- The bytes of a record, without the newline. -/
def text (r : Record) : List UInt8 := Utf8.encode r.toJson.compact

/-- What a file with just these records holds. -/
def content (rs : List Record) : List UInt8 := joined (rs.map text)

theorem plain_text (r : Record) : Plain (text r) := Json.plain_compact r.toJson

theorem plain_texts (rs : List Record) : ∀ l ∈ rs.map text, Plain l := by
  intro l hl
  obtain ⟨r, -, rfl⟩ := List.mem_map.1 hl
  exact plain_text r

theorem lineOf_text (r : Record) : lineOf r = text r ++ [newline] := by
  rw [lineOf, Utf8.encode_append, Utf8.encode_newline, text]

theorem lineOf_eq (r : Record) : lineOf r = content [r] := by
  rw [lineOf_text]
  exact (Lines.joined_cons (text r) []).symm

theorem content_append (rs rs' : List Record) : content (rs ++ rs') = content rs ++ content rs' := by
  rw [content, List.map_append, Lines.joined_append]
  rfl

theorem content_concat (rs : List Record) (r : Record) : content (rs ++ [r]) = content rs ++ lineOf r := by
  rw [content_append, lineOf_eq]

/-- The length of a file tells how many of the records are in it. -/
theorem length_content_take_lt {rs : List Record} {k : Nat} (hk : k < rs.length) :
    (content (rs.take k)).length < (content rs).length := by
  have h : (rs.drop k).map text ≠ [] := by
    intro he
    have := List.drop_eq_nil_iff.1 (List.map_eq_nil_iff.1 he)
    omega
  have hlt : (joined ((rs.take k).map text)).length <
      (joined ((rs.take k).map text ++ (rs.drop k).map text)).length := Lines.length_joined_lt h
  rwa [← List.map_append, List.take_append_drop] at hlt

/-- The text of a record tells its number, -/
theorem position_text {r : Record} (h : r.sequenceNr < UInt64.size) :
    (Document.ofBytes (text r)).decode Record.position = .ok r.sequenceNr := by
  rw [text, Document.ofBytes_compact, Document.decode_complete, Record.decode_position h]

/-- and everything else, when it is one that a text keeps. -/
theorem decode_text {r : Record} (h : Storable r) :
    (Document.ofBytes (text r)).decode Record.decoder = .ok r := by
  rw [text, Document.ofBytes_compact, Document.decode_whole _ (Record.whole_toJson h), Record.decode_toJson h]

theorem line_position (file : Path) (number : Nat) {r : Record} (h : r.sequenceNr < UInt64.size) :
    line file number Record.position (text r) = .ok r.sequenceNr := by
  rw [line, position_text h]

theorem line_record (file : Path) (number : Nat) {r : Record} (h : Storable r) :
    line file number Record.decoder (text r) = .ok r := by
  rw [line, decode_text h]

theorem records_counted (file : Path) (start : Nat) {rs : List Record} (h : ∀ r ∈ rs, Storable r)
    (first : Nat) :
    records file start (counted first (rs.map text)) =
      .ok (rs.filter (fun r => start ≤ r.sequenceNr)) := by
  induction rs generalizing first with
  | nil => rfl
  | cons r rest ih =>
    have hr := h r (List.mem_cons_self ..)
    have hrest := ih (fun r' hr' => h r' (List.mem_cons_of_mem _ hr')) (first + 1)
    rw [List.map_cons, Lines.counted_cons, records, line_position file first hr.sequenceNr_lt, Json.Decoder.ok_bind,
      List.filter_cons]
    by_cases hlt : r.sequenceNr < start
    · have hfilter : decide (start ≤ r.sequenceNr) = false := decide_eq_false (by omega)
      rw [if_pos hlt, hrest, hfilter]
      rfl
    · have hfilter : decide (start ≤ r.sequenceNr) = true := decide_eq_true (by omega)
      rw [if_neg hlt, line_record file first hr, hrest, hfilter]
      rfl

/-- The lines of a file are gone through from its beginning to its end. -/
theorem records_append (file : Path) (start : Nat) (ls ls' : List (Nat × List UInt8)) :
    records file start (ls ++ ls') = (do
      let rs ← records file start ls
      let rs' ← records file start ls'
      return rs ++ rs') := by
  induction ls with
  | nil =>
    rw [List.nil_append, records, Json.Decoder.ok_bind]
    cases records file start ls' <;> rfl
  | cons l rest ih =>
    obtain ⟨number, bytes⟩ := l
    rw [List.cons_append, records, records, ih]
    cases line file number Record.position bytes with
    | error e => rfl
    | ok position =>
      rw [Json.Decoder.ok_bind, Json.Decoder.ok_bind]
      split
      · rfl
      · cases line file number Record.decoder bytes with
        | error e => rfl
        | ok r =>
          cases records file start rest with
          | error e => rfl
          | ok rs => cases records file start ls' <;> rfl

/-! ### Files -/

/-- The file of a stream holds records, and bytes behind them that end no line. A file that
holds nothing may be missing. -/
structure Filled (d : Disk) (file : Path) (rs : List Record) (torn : List UInt8) : Prop where
  read : d.read file = .ok (content rs ++ torn) ∨
    (d.read file = .error .missing ∧ rs = [] ∧ torn = [])
  fits : ∀ r ∈ rs, r.sequenceNr < UInt64.size
  torn : newline ∉ torn

namespace Filled
variable {d : Disk} {file : Path} {rs : List Record} {torn : List UInt8}

theorem missing (h : d.read file = .error .missing) : Filled d file [] [] :=
  ⟨.inr ⟨h, rfl, rfl⟩, List.forall_mem_nil _, List.not_mem_nil⟩

/-- A file that is the same on two orderly disks reads the same. -/
theorem read_of_find? {d' : Disk} (hd : Orderly d) (hd' : Orderly d') (hleaf : Layout.Leaf file)
    (hfind : d'.find? file = d.find? file) : d'.read file = d.read file := by
  obtain ⟨bytes, hfile, hread⟩ | ⟨hnone, hread⟩ := hd.read_leaf hleaf
  · rw [hread, Disk.read_file (hfind.trans hfile)]
  · rw [hread, hd'.read_missing hleaf (hfind.trans hnone)]

theorem of_find? {d' : Disk} (h : Filled d file rs torn) (hd : Orderly d) (hd' : Orderly d')
    (hleaf : Layout.Leaf file) (hfind : d'.find? file = d.find? file) : Filled d' file rs torn :=
  ⟨read_of_find? hd hd' hleaf hfind ▸ h.read, h.fits, h.torn⟩

theorem intact_eq (h : Filled d file rs torn) : intact d file = .ok (content rs) := by
  rw [intact]
  obtain hread | ⟨hread, rfl, -⟩ := h.read
  · rw [hread]
    exact congrArg Except.ok (Lines.intact_joined_append _ h.torn)
  · rw [hread]
    rfl

theorem numbered_eq (rs : List Record) : Lines.numbered (content rs) = counted 1 (rs.map text) :=
  Lines.numbered_joined (plain_texts rs)

/-- **A journal reads the lines that were written**, and nothing of what was torn off. -/
theorem readFile_eq (h : Filled d file rs torn) (start : Nat) :
    readFile d file start = records file start (counted 1 (rs.map text)) := by
  rw [readFile, h.intact_eq, Json.Decoder.ok_bind, numbered_eq]

theorem length_eq (h : Filled d file rs torn) :
    length d file = .ok ((content rs).length + torn.length) := by
  rw [length]
  obtain hread | ⟨hread, rfl, rfl⟩ := h.read
  · rw [hread, ← List.length_append]
  · rw [hread]
    rfl

theorem scan_eq (h : Filled d file rs torn) (hnumbered : Numbered rs) :
    scan d file = .ok ⟨(content rs).length, rs.length⟩ := by
  rw [scan, h.intact_eq, Json.Decoder.ok_bind, numbered_eq]
  obtain rfl | ⟨rs', r, hrs⟩ := List.eq_nil_or_concat rs
  · rfl
  · rw [List.concat_eq_append] at hrs
    subst hrs
    have hr : r.sequenceNr = (rs' ++ [r]).length := by
      have := hnumbered.getElem (i := rs'.length) (by simp)
      rwa [List.getElem_concat_length rfl, ← List.length_concat, List.concat_eq_append] at this
    rw [List.map_append, List.map_singleton, Lines.counted_concat, List.getLast?_concat]
    dsimp only
    rw [line_position file _ (h.fits r (by simp)), hr]
    rfl

end Filled

/-- A file that holds records as they are. -/
structure Written (d : Disk) (file : Path) (rs : List Record) (torn : List UInt8) : Prop where
  read : d.read file = .ok (content rs ++ torn) ∨
    (d.read file = .error .missing ∧ rs = [] ∧ torn = [])
  storable : ∀ r ∈ rs, Storable r
  torn : newline ∉ torn

namespace Written
variable {d : Disk} {file : Path} {rs : List Record} {torn : List UInt8}

theorem filled (h : Written d file rs torn) : Filled d file rs torn :=
  ⟨h.read, fun r hr => (h.storable r hr).sequenceNr_lt, h.torn⟩

theorem missing (h : d.read file = .error .missing) : Written d file [] [] :=
  ⟨.inr ⟨h, rfl, rfl⟩, List.forall_mem_nil _, List.not_mem_nil⟩

theorem of_find? {d' : Disk} (h : Written d file rs torn) (hd : Orderly d) (hd' : Orderly d')
    (hleaf : Layout.Leaf file) (hfind : d'.find? file = d.find? file) : Written d' file rs torn :=
  ⟨(h.filled.of_find? hd hd' hleaf hfind).read, h.storable, h.torn⟩

/-- **A journal reads the records that were written.** -/
theorem readFile_eq (h : Written d file rs torn) (start : Nat) :
    readFile d file start = .ok (rs.filter (fun r => start ≤ r.sequenceNr)) := by
  rw [h.filled.readFile_eq, records_counted file start h.storable]

end Written

/-! ### The end of a file -/

/-- A tail that was right when the first of the records were there, and none of the rest. -/
def Remembers (rs : List Record) (tail : Tail) : Prop :=
  ∃ k ≤ rs.length, tail = ⟨(content (rs.take k)).length, k⟩

theorem remembers_all (rs : List Record) : Remembers rs ⟨(content rs).length, rs.length⟩ :=
  ⟨rs.length, Nat.le_refl _, by rw [List.take_length]⟩

/-- What is remembered of a stream stays a memory of it as the stream goes on. -/
theorem Remembers.append {rs : List Record} {tail : Tail} (h : Remembers rs tail) (more : List Record) :
    Remembers (rs ++ more) tail := by
  obtain ⟨k, hk, rfl⟩ := h
  refine ⟨k, ?_, ?_⟩
  · rw [List.length_append]
    omega
  · rw [List.take_append_of_le_length hk]

variable {d : Disk} {file : Path} {rs : List Record} {torn : List UInt8}

/-- **A stale tail is never trusted.** Whatever a journal remembers, it goes by the end that
the file has now. -/
theorem Filled.currentTail_eq (h : Filled d file rs torn) (hnumbered : Numbered rs)
    {known : Option Tail} (hknown : ∀ tail ∈ known, Remembers rs tail) :
    currentTail d file known = .ok ⟨(content rs).length, rs.length⟩ := by
  rw [currentTail, h.length_eq, Json.Decoder.ok_bind]
  cases known with
  | none => exact h.scan_eq hnumbered
  | some tail =>
    obtain ⟨k, hk, rfl⟩ := hknown tail rfl
    dsimp only
    split
    · next heq =>
      -- The file is as long as it was with `k` records, so there are no more than these.
      have hall : k = rs.length := by
        refine Nat.le_antisymm hk (Nat.le_of_not_lt fun hlt => ?_)
        have := length_content_take_lt hlt
        omega
      rw [hall, List.take_length]
      rfl
    · exact h.scan_eq hnumbered

/-- The next record takes the place of what was torn off. -/
theorem Filled.place_eq (h : Filled d file rs torn) (horderly : Orderly d) (hleaf : Layout.Leaf file)
    (habove : d.find? file.dropLast = some .directory) (highest : Nat) (r : Record) :
    place file ⟨(content rs).length, highest⟩ r d =
      .ok (d.put file (.file (content (rs ++ [r])))) := by
  have hwrite := horderly.write_leaf hleaf habove
  rw [content_concat, place]
  obtain hread | ⟨hread, rfl, -⟩ := h.read
  · rw [hread]
    dsimp only
    rw [List.take_left' rfl, hwrite]
    rfl
  · rw [hread]
    dsimp only
    rw [hwrite]
    rfl

end CartLedger.Journal.Durable
