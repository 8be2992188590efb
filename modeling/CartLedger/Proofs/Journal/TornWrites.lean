import CartLedger.Proofs.Journal.Alike

/-! Cut writes do no harm.

A crash may leave any bytes behind the last newline of a stream's file. Journals cannot tell
such a file from one that ends there, whatever they remember of it: the two disks are alike
(`Holds.alike_tear`). A record that is refused leaves the bytes where they are, and one that
is taken goes in their place (`torn_write_harmless`). -/
namespace CartLedger.Journal
open CartLedger.Json (Document)
open CartLedger.Storage
open CartLedger.Storage.Layout (Usable eventsPath)
open CartLedger.Text.Lines (newline counted)

namespace Durable

/-! ### What a record's line says -/

/-- What a read from `start` on makes of the line of a record. -/
def reread (start : Nat) (r : Record) : Except StorageError (List Record) :=
  records (eventsPath r.stream) start [(r.sequenceNr, text r)]

/-- The line of a record says all there is to it. -/
def Plainly (r : Record) : Prop := (Document.ofBytes (text r)).decode Record.decoder = .ok r

theorem plainly_of_storable {r : Record} (h : r.Storable) : Plainly r := by
  rw [Plainly, text, Document.ofBytes_compact, Document.decode_whole _ (Record.whole_toJson h),
    Record.decode_toJson h]

theorem reread_plainly {r : Record} (hfits : r.sequenceNr < UInt64.size) (h : Plainly r) (start : Nat) :
    reread start r = .ok (if start ≤ r.sequenceNr then [r] else []) := by
  rw [reread, records, line_position _ _ hfits, Json.Decoder.ok_bind]
  by_cases hstart : r.sequenceNr < start
  · rw [if_pos hstart, if_neg (by omega)]
    rfl
  · rw [if_neg hstart, if_pos (by omega), line, h]
    rfl

/-! ### Crashes -/

/-- The disk after a crash that left bytes behind what was in the file of a stream. -/
def tear (s : Durable) (id : StreamId) (bytes : List UInt8) : Durable :=
  { s with disk := s.disk.put (eventsPath id) (.file (s.contents id ++ bytes)) }

variable {s : Durable} {streams : StreamId → List Record} {id : StreamId} {bytes : List UInt8}

theorem Holds.tear (h : Holds s streams fun _ => []) (hid : Usable id) (hhoused : Housed s.disk id)
    (hbytes : newline ∉ bytes) :
    Holds (s.tear id bytes) streams fun id' => if id' = id then bytes else [] := by
  have hdirectory := h.orderly.find?_put_directory (Layout.leaf_eventsPath id) (s.contents id ++ bytes)
  obtain ⟨horderly, hgrown, hread⟩ := put_eventsPath h.orderly id (s.contents id ++ bytes)
  exact {
    orderly := horderly
    tidy := h.tidy
    file := fun {id'} hid' => by
      by_cases hne : id' = id
      · rw [hne, if_pos rfl]
        have hcontents := h.contents_eq hid
        rw [List.append_nil] at hcontents
        exact ⟨.inl (hread.trans (by rw [hcontents])), (h.file hid).fits, hbytes⟩
      · rw [if_neg hne]
        exact (h.file hid').of_find? h.orderly horderly (Layout.leaf_eventsPath id')
          (find?_aside hgrown hne)
    begun := fun hhoused' q hq => (hdirectory q).2 (h.begun ((hdirectory _).1 hhoused') q hq)
    housed := fun {id'} hfind => by
      by_cases hne : id' = id
      · exact (hdirectory _).2 (hne ▸ hhoused)
      · rw [Durable.tear, find?_aside hgrown hne] at hfind
        exact (hdirectory _).2 (h.housed hfind)
    tail := h.tail }

/-- **Nothing is to be seen of what is behind the last newline.** -/
theorem Holds.alike_tear (h : Holds s streams fun _ => []) (hid : Usable id) (hhoused : Housed s.disk id)
    (hbytes : newline ∉ bytes) :
    Alike (s.tear id bytes) s streams (fun id' => if id' = id then bytes else []) fun _ => [] where
  left := h.tear hid hhoused hbytes
  right := h
  directories p _ := h.orderly.find?_put_directory (Layout.leaf_eventsPath id) _ p
  ghosts _ _ _ := .rfl

/-- Nothing that is done later tells one from the other. -/
def Indistinct (s s' : Durable) : Prop :=
  ∀ later : List Operation, (∀ op ∈ later, op.Fits) → Operation.responses s later = Operation.responses s' later

/-- After `s`, a record was added to its stream, and nothing is behind it: every journal knows
its number, and a read gives what it gave, and then what the line of the record says. -/
structure Extended (s t : Durable) (r : Record) : Prop where
  contents : t.contents r.stream = s.contents r.stream ++ lineOf r
  highest : ∀ journal, (t.highest journal r.stream).1 = .ok r.sequenceNr
  readFrom : ∀ start, t.readFrom r.stream start = (do
    let old ← s.readFrom r.stream start
    let new ← reread start r
    return old ++ new)
  readPlain : Plainly r → ∀ start, t.readFrom r.stream start =
    (s.readFrom r.stream start).map (· ++ if start ≤ r.sequenceNr then [r] else [])

theorem Holds.extended {t : Durable} {r : Record} {torn : StreamId → List UInt8} (h : Holds s streams fun _ => [])
    (ht : Holds t (extend streams r) torn) (htorn : torn r.stream = []) (hid : Usable r.stream)
    (hfits : r.sequenceNr < UInt64.size) (hnext : r.sequenceNr = (streams r.stream).length + 1) :
    Extended s t r := by
  have hread : ∀ start, t.readFrom r.stream start = (do
      let old ← s.readFrom r.stream start
      let new ← reread start r
      return old ++ new) := by
    intro start
    rw [ht.readFrom_eq hid, h.readFrom_eq hid, extend_self, List.map_append, List.map_singleton,
      Text.Lines.counted_concat, records_append, List.length_map, Nat.add_comm 1, ← hnext]
    rfl
  refine ⟨?_, fun journal => ?_, hread, fun hplain start => ?_⟩
  · rw [ht.contents_eq hid, h.contents_eq hid, htorn, extend_self, content_concat, List.append_nil, List.append_nil]
  · rw [ht.highest_eq hid, extend_self, List.length_append, hnext]
    rfl
  · rw [hread, reread_plainly hfits hplain]
    cases s.readFrom r.stream start <;> rfl

/-- What it takes for a crash that left bytes behind a stream to have done no harm. -/
structure Harmless (s : Durable) (id : StreamId) (bytes : List UInt8) : Prop where
  /-- Every journal reads the stream as if they were not there, -/
  readFrom : ∀ start, (s.tear id bytes).readFrom id start = s.readFrom id start
  /-- and knows the number of its last record. -/
  highest : ∀ journal, ((s.tear id bytes).highest journal id).1 = (s.highest journal id).1
  indistinct : Indistinct (s.tear id bytes) s
  /-- The record that is next is taken. -/
  takesNext : ∀ {journal r n}, r.stream = id → r.sequenceNr < UInt64.size → (s.highest journal id).1 = .ok n →
    r.sequenceNr = n + 1 → ((s.tear id bytes).append journal r).1 = .ok r.sequenceNr
  /-- A record that is refused leaves them where they are, -/
  refused : ∀ {journal r e t}, r.stream = id → r.sequenceNr < UInt64.size →
    (s.tear id bytes).append journal r = (.error e, t) →
    (s.append journal r).1 = .error e ∧ t.contents id = s.contents id ++ bytes
  /-- and one that is taken comes in their place. -/
  taken : ∀ {journal r n t}, r.stream = id → r.sequenceNr < UInt64.size →
    (s.tear id bytes).append journal r = (.ok n, t) →
    n = r.sequenceNr ∧ (s.append journal r).1 = .ok n ∧ Extended s t r ∧ Indistinct t (s.append journal r).2

end Durable

open Durable (Housed Placed Indistinct Harmless Plainly holds_after plainly_of_storable text plain_text)

/-- **Torn writes are harmless.** Let a crash leave any bytes without a newline behind what
any number of journals wrote to a stream, at whatever point of whatever they do; the stream
has its directory, as any has that was written to. Every journal then reads the stream as
if they were not there, and nothing else tells the difference either. A record that is
refused leaves the file with these bytes. A record that is taken leaves the file as if they
had never been there, and from then on all is as it would be without the crash. -/
theorem torn_write_harmless {ops : List Operation} (hops : ∀ op ∈ ops, op.Fits) {id : StreamId} (hid : Usable id)
    (hhoused : Housed (Operation.after (.onDisk .empty) ops).disk id) {bytes : List UInt8}
    (hbytes : newline ∉ bytes) : Harmless (Operation.after (.onDisk .empty) ops) id bytes := by
  obtain ⟨streams, h⟩ := holds_after hops
  generalize Operation.after (.onDisk .empty) ops = s at h hhoused
  have halike := h.alike_tear hid hhoused hbytes
  have hplaced : ∀ journal, Placed (s.tear id bytes) journal id := fun journal =>
    .inl ((halike.housed_iff id).2 hhoused)
  refine ⟨halike.readFrom_eq id, fun journal => ?_, fun later hlater => (halike.run hlater).1, ?_, ?_, ?_⟩
  · rw [halike.left.highest_eq hid, halike.right.highest_eq hid]
  · rintro journal r n rfl hfits hhighest hnext
    rw [h.highest_eq hid] at hhighest
    obtain rfl := Except.ok.inj hhighest
    obtain ⟨t, htaken, -⟩ := halike.left.append_taken hid hfits (hplaced journal) hnext
    rw [htaken]
  · rintro journal r e t rfl hfits happend
    have hanswer := (halike.append hfits journal).1
    rw [happend] at hanswer
    have ht := halike.left.of_append_error hid hfits (hplaced journal) happend
    refine ⟨hanswer.symm, ?_⟩
    rw [ht.contents_eq hid, h.contents_eq hid, if_pos rfl, List.append_nil]
  · rintro journal r n t rfl hfits happend
    obtain ⟨hanswer, _, _, _, hlike, -, -⟩ := halike.append hfits journal
    rw [happend] at hanswer hlike
    obtain ⟨hnumber, hnext, ht⟩ := halike.left.of_append_ok hid hfits (hplaced journal) happend
    exact ⟨hnumber, hanswer.symm, h.extended ht (if_pos rfl) hid hfits hnext, fun later hlater => (hlike.run hlater).1⟩

/-- A whole record but for its newline, behind the first record of a stream. -/
theorem missing_newline_harmless :
    let stream : StreamId := .ofCart "a"
    let record (n : Nat) : Record := Record.ofEvent
      ⟨.generated n, stream, n, .ofList ["t"], .anonymous, Time.Timestamp.epoch⟩ (.checkedOut "a" Time.Timestamp.epoch)
    let ops := [Operation.append 0 (record 1)]
    (∀ op ∈ ops, op.Fits) ∧ Usable stream ∧ Housed (Operation.after (.onDisk .empty) ops).disk stream ∧
      newline ∉ text (record 2) ∧ Plainly (record 2) ∧
      Harmless (Operation.after (.onDisk .empty) ops) stream (text (record 2)) := by
  intro stream record ops
  have hops : ∀ op ∈ ops, op.Fits :=
    List.forall_mem_singleton.2 (by decide : 1 < UInt64.size)
  have hid : Usable stream := by decide
  have hhoused : Housed (Operation.after (.onDisk .empty) ops).disk stream := by decide +kernel
  have hbytes := (plain_text (record 2)).2
  have hplain : Plainly (record 2) := plainly_of_storable (Record.storable_ofEvent (by decide) _)
  exact ⟨hops, hid, hhoused, hbytes, hplain, torn_write_harmless hops hid hhoused hbytes⟩

end CartLedger.Journal
