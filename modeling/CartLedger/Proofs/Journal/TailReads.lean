import CartLedger.Proofs.Journal.StreamFile

/-! Reading the end of a stream.

A read that starts late decides line by line whether to go into a line at all, and a
decoder that knows a single member decides it. Whatever a line holds, the two decoders
that are run on it do not disagree on its number (`Record.sequenceNr_of_position`). So a
late read gives the end of what an early one gives, and finds no fault that the early one
would have got past (`readFrom_tail`): the file may hold anything, and need not be a
journal's work. -/
namespace CartLedger
open CartLedger.Json (Draft Document)
open CartLedger.Json.Decoder (ok_bind pure_ok bind_inv bind_error_inv recordWith_inv length_of_record root_of_decode)

/-! ### The number on a line -/

namespace Record

/-- **A record has the number that a look at its number alone finds**: of an object both
take the same member, and no list has the length of both. -/
theorem sequenceNr_of_position {d : Draft} {r : Record} {n : Nat} (hr : decoder d = .ok r)
    (hn : position d = .ok n) : r.sequenceNr = n := by
  cases d with
  | object ms =>
    obtain ⟨_, hms, -, hnumber⟩ := recordWith_inv hn
    obtain rfl := Except.ok.inj hms
    obtain ⟨_, hms, -, hr⟩ := recordWith_inv hr
    obtain rfl := Except.ok.inj hms
    obtain ⟨id, -, hr⟩ := bind_inv hr
    obtain ⟨stream, -, hr⟩ := bind_inv hr
    obtain ⟨sequenceNr, hfull, hr⟩ := bind_inv hr
    obtain ⟨eventType, -, hr⟩ := bind_inv hr
    obtain ⟨payload, -, hr⟩ := bind_inv hr
    obtain ⟨tags, -, hr⟩ := bind_inv hr
    obtain ⟨metadata, -, hr⟩ := bind_inv hr
    obtain ⟨recordedAt, -, hr⟩ := bind_inv hr
    obtain rfl := Except.ok.inj hr
    exact Except.ok.inj (hfull.symm.trans hnumber)
  | list ds =>
    have hone := length_of_record hn
    have height := length_of_record hr
    exact absurd (hone.symm.trans height) (by decide)
  | null => cases hn
  | bool => cases hn
  | number => cases hn
  | text => cases hn
  | cut => cases hn

end Record

namespace Journal.Durable
open CartLedger.Storage
open CartLedger.Text
open CartLedger.Text.Lines (joined counted)

/-! ### Lines -/

theorem line_ok_iff {file : Path} {number : Nat} {decoder : Json.Decoder α} {bytes : List UInt8}
    {a : α} : line file number decoder bytes = .ok a ↔ (Document.ofBytes bytes).decode decoder = .ok a := by
  rw [line]
  cases (Document.ofBytes bytes).decode decoder <;> simp

theorem line_error {file : Path} {number : Nat} {decoder : Json.Decoder α} {bytes : List UInt8}
    {e : StorageError} (h : line file number decoder bytes = .error e) : e = .illegibleLine file number := by
  rw [line] at h
  split at h
  · cases h
  · exact (Except.error.inj h).symm

theorem sequenceNr_of_line {file : Path} {number : Nat} {bytes : List UInt8} {r : Record} {n : Nat}
    (hr : line file number Record.decoder bytes = .ok r)
    (hn : line file number Record.position bytes = .ok n) : r.sequenceNr = n :=
  Record.sequenceNr_of_position (root_of_decode (line_ok_iff.1 hr)) (root_of_decode (line_ok_iff.1 hn))

/-! ### Lines of a read -/

/-- What a read from `start` takes from a line. -/
def taken (file : Path) (start : Nat) (l : Nat × List UInt8) : Except StorageError (Option Record) := do
  let position ← line file l.1 Record.position l.2
  if position < start then return none
  else return some (← line file l.1 Record.decoder l.2)

theorem records_cons (file : Path) (start : Nat) (l : Nat × List UInt8) (rest : List (Nat × List UInt8)) :
    records file start (l :: rest) = (do
      let r ← taken file start l
      let rs ← records file start rest
      return r.toList ++ rs) := by
  rw [records, taken]
  cases line file l.1 Record.position l.2 with
  | error e => rfl
  | ok position =>
    rw [ok_bind, ok_bind]
    split
    · rw [pure_ok, ok_bind]
      cases records file start rest <;> rfl
    · cases line file l.1 Record.decoder l.2 <;> rfl

theorem taken_error {file : Path} {start : Nat} {l : Nat × List UInt8} {e : StorageError}
    (h : taken file start l = .error e) : e = .illegibleLine file l.1 := by
  obtain hn | ⟨n, -, h⟩ := bind_error_inv h
  · exact line_error hn
  · split at h
    · cases h
    · obtain hr | ⟨r, -, h⟩ := bind_error_inv h
      · exact line_error hr
      · cases h

/-- What goes wrong is a line. -/
theorem records_error {file : Path} {start : Nat} {ls : List (Nat × List UInt8)} {e : StorageError}
    (h : records file start ls = .error e) : ∃ l ∈ ls, e = .illegibleLine file l.1 := by
  induction ls with
  | nil => cases h
  | cons l rest ih =>
    rw [records_cons] at h
    obtain hl | ⟨r, -, h⟩ := bind_error_inv h
    · exact ⟨l, List.mem_cons_self .., taken_error hl⟩
    · obtain hrest | ⟨rs, -, h⟩ := bind_error_inv h
      · obtain ⟨l', hl', he⟩ := ih hrest
        exact ⟨l', List.mem_cons_of_mem _ hl', he⟩
      · cases h

/-! ### Early and late reads -/

/-- How a read from `start` bears on one that starts earlier: it gives those of its records
that are numbered `start` or later, and fails over a line only where the other has failed
by then. -/
structure Narrows (start : Nat) (early late : Except StorageError (List Record)) : Prop where
  kept : ∀ rs, early = .ok rs → late = .ok (rs.filter (fun r => start ≤ r.sequenceNr))
  fault : ∀ file number, late = .error (.illegibleLine file number) →
    ∃ earlier ≤ number, early = .error (.illegibleLine file earlier)

section
variable {file : Path} {early late : Nat}

/-- A late read takes a line that an early one takes if its number is late, -/
theorem taken_late (h : early ≤ late) {l : Nat × List UInt8} {r : Option Record}
    (htaken : taken file early l = .ok r) :
    taken file late l = .ok (r.filter (fun r => late ≤ r.sequenceNr)) := by
  obtain ⟨n, hn, htaken⟩ := bind_inv htaken
  rw [taken, hn, ok_bind]
  split at htaken
  · next hlt =>
    obtain rfl := Except.ok.inj htaken
    rw [if_pos (by omega)]
    rfl
  · obtain ⟨r, hr, htaken⟩ := bind_inv htaken
    obtain rfl := Except.ok.inj htaken
    obtain rfl := sequenceNr_of_line hr hn
    by_cases hlt : r.sequenceNr < late
    · rw [if_pos hlt, Option.filter_some, if_neg (by simpa using hlt)]
      rfl
    · rw [if_neg hlt, hr, Option.filter_some, if_pos (by simpa using hlt)]
      rfl

/-- and an early one fails over a line that a late one fails over. -/
theorem taken_early (h : early ≤ late) {l : Nat × List UInt8} {e : StorageError}
    (htaken : taken file late l = .error e) : taken file early l = .error e := by
  obtain hn | ⟨n, hn, htaken⟩ := bind_error_inv htaken
  · rw [taken, hn]
    rfl
  · split at htaken
    · cases htaken
    · rwa [taken, hn, ok_bind, if_neg (by omega)]

/-- **The records of a late read are those of an early one with late numbers**, and the line
that a late read fails over is reached by the early one, if no other has stopped it. -/
theorem narrows_records (h : early ≤ late) {ls : List (Nat × List UInt8)}
    (hls : ls.Pairwise (fun l l' => l.1 < l'.1)) :
    Narrows late (records file early ls) (records file late ls) := by
  induction ls with
  | nil => exact ⟨fun rs hrs => Except.ok.inj hrs ▸ rfl, fun _ _ he => nomatch he⟩
  | cons l rest ih =>
    obtain ⟨hfirst, hrest⟩ := List.pairwise_cons.1 hls
    have ih := ih hrest
    rw [records_cons, records_cons]
    constructor
    case kept =>
      intro rs hrs
      obtain ⟨r, hr, hrs⟩ := bind_inv hrs
      obtain ⟨rs', hrs', hrs⟩ := bind_inv hrs
      obtain rfl := Except.ok.inj hrs
      rw [taken_late h hr, ih.kept rs' hrs', List.filter_append, ← Option.toList_filter]
      rfl
    case fault =>
      intro file' number hlate
      obtain hl | ⟨r, -, hlate⟩ := bind_error_inv hlate
      · rw [taken_early h hl]
        exact ⟨number, Nat.le_refl _, rfl⟩
      · obtain hlate | ⟨rs, -, hlate⟩ := bind_error_inv hlate
        · obtain ⟨earlier, hle, hearly⟩ := ih.fault file' number hlate
          cases hl : taken file early l with
          | error e =>
            -- The early read does not get to the line that stops the late one.
            obtain ⟨l', hl', hname⟩ := records_error hlate
            obtain ⟨rfl, rfl⟩ := StorageError.illegibleLine.inj hname
            exact ⟨l.1, Nat.le_of_lt (hfirst l' hl'), taken_error hl ▸ rfl⟩
          | ok r =>
            rw [ok_bind, hearly]
            exact ⟨earlier, hle, rfl⟩
        · cases hlate

theorem narrows_error {start : Nat} {e : StorageError} : Narrows start (.error e) (.error e) :=
  ⟨fun _ h => (nomatch h), fun _ number he => ⟨number, Nat.le_refl _, he⟩⟩

/-- **A late read agrees with an early one**, whatever is in the files and whatever the stream
is called. -/
theorem readFrom_tail (s : Durable) (id : StreamId) (h : early ≤ late) :
    Narrows late (s.readFrom id early) (s.readFrom id late) := by
  rw [readFrom, readFrom]
  cases Layout.eventsFile id with
  | error e => exact narrows_error
  | ok file =>
    rw [ok_bind, ok_bind, readFile, readFile]
    cases intact s.disk file with
    | error e => exact narrows_error
    | ok bytes => exact narrows_records h (Lines.pairwise_numbered bytes)

end

/-! ### Files made by hand -/

theorem readFile_joined {d : Disk} {file : Path} {ls : List (List UInt8)} (hread : d.read file = .ok (joined ls))
    (hls : ∀ l ∈ ls, Lines.Plain l) (start : Nat) :
    readFile d file start = records file start (counted 1 ls) := by
  rw [readFile, intact, hread, ok_bind, Lines.intact_joined, Lines.numbered_joined hls]

/-- Of a line that a read starts behind, nothing but the number has to be there. -/
theorem readFrom_past_bare_number :
    let stream : StreamId := .ofCart "a"
    let record (n : Nat) : Record := Record.ofEvent
      ⟨.generated n, stream, n, .ofList ["t"], .anonymous, Time.Timestamp.epoch⟩ (.checkedOut "a" Time.Timestamp.epoch)
    let bare : Json := .object [("sequence_nr", .natural 0)]
    let s := onDisk (Disk.empty.put (Layout.eventsPath stream)
      (.file (joined (Utf8.encode bare.compact :: [record 1, record 2].map text))))
    1 ≤ 2 ∧ s.readFrom stream 1 = .ok [record 1, record 2] ∧
      Narrows 2 (s.readFrom stream 1) (s.readFrom stream 2) := by
  intro stream record bare s
  have hread : s.readFrom stream 1 = .ok [record 1, record 2] := by
    have hplain := List.forall_mem_cons.2 ⟨Json.plain_compact bare, plain_texts [record 1, record 2]⟩
    have hstorable : ∀ r ∈ [record 1, record 2], Record.Storable r :=
      List.forall_mem_cons.2 ⟨Record.storable_ofEvent (by decide) _,
        List.forall_mem_singleton.2 (Record.storable_ofEvent (by decide) _)⟩
    have hbare : line (Layout.eventsPath stream) 1 Record.position (Utf8.encode bare.compact) = .ok 0 := by
      rw [line_ok_iff, Document.ofBytes_compact, Document.decode_complete]
      rfl
    rw [readFrom, Layout.eventsFile_ok (by decide : Layout.Usable stream), ok_bind,
      readFile_joined rfl hplain, Lines.counted_cons, records, hbare, ok_bind, if_pos (by decide),
      records_counted _ 1 hstorable]
    rfl
  exact ⟨by decide, hread, readFrom_tail s stream (by decide)⟩

end Journal.Durable

end CartLedger
