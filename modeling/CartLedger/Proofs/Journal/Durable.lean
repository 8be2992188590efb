import CartLedger.Proofs.Journal.StreamFile
import CartLedger.Proofs.Storage.Refusal

/-! Journals on one disk.

`Keeps` ties a disk and everything that journals remember of it to the streams that were
written: every file holds its stream, and every memory was right when it was made. That is
all a journal needs. Whichever journal is asked, and whatever others wrote since, a read
gives the stream (`Keeps.readFrom_eq`), and an append takes the record that is next and
refuses any other (`Keeps.append_next`, `Keeps.append_refused`). -/
namespace CartLedger.Journal.Durable
open CartLedger.Record (Storable)
open CartLedger.Storage
open CartLedger.Storage.Layout (Usable Leaf InSnapshots eventsPath entityPath)

/-- The stream has its directory. -/
def Begun (d : Disk) (id : StreamId) : Prop :=
  ∀ q, q <+: entityPath "streams" id → d.find? q = some .directory

theorem Begun.grown {changed : Path → Prop} {d d' : Disk} {id : StreamId} (h : Begun d id)
    (hgrown : Grown changed d d') : Begun d' id :=
  fun q hq => hgrown.directory (h q hq)

/-- The file of a stream is written: the disk stays orderly, nothing else is changed, and the
file can be read. -/
theorem put_eventsPath {d : Disk} (h : Orderly d) (id : StreamId) (bytes : List UInt8) :
    Orderly (d.put (eventsPath id) (.file bytes)) ∧
      Grown (· = eventsPath id) d (d.put (eventsPath id) (.file bytes)) ∧
      (d.put (eventsPath id) (.file bytes)).read (eventsPath id) = .ok bytes := by
  have hleaf := Layout.leaf_eventsPath id
  refine ⟨h.put_leaf hleaf fun he => absurd he (Layout.eventsPath_ne_registryFile id), .put h hleaf ?_ bytes, ?_⟩
  · rfl
  · exact Disk.read_file ((Disk.find?_put hleaf.ne_root _ _).trans (if_pos rfl))

/-- The files of other streams are not touched. -/
theorem find?_aside {d d' : Disk} {id id' : StreamId} (h : Grown (· = eventsPath id) d d') (hne : id' ≠ id) :
    d'.find? (eventsPath id') = d.find? (eventsPath id') :=
  h.file (Layout.leaf_eventsPath id') fun he => hne (Layout.eventsPath_inj he)

structure Keeps (s : Durable) (streams : StreamId → List Record) : Prop where
  orderly : Orderly s.disk
  tidy : Tidy streams
  file : ∀ {id}, Usable id → Written s.disk (eventsPath id) (streams id) []
  unusable : ∀ {id}, ¬ Usable id → streams id = []
  begun : ∀ {id}, streams id ≠ [] → Begun s.disk id
  tail : ∀ {journal id tail}, s.remembered journal id = some tail →
    Usable id ∧ Begun s.disk id ∧ Remembers (streams id) tail

namespace Keeps
variable {s : Durable} {streams : StreamId → List Record}

theorem fresh : Keeps (onDisk .empty) fun _ => [] where
  orderly := orderly_empty
  tidy := tidy_empty
  file {id} _ := by
    have hleaf := Layout.leaf_eventsPath id
    exact Written.missing (orderly_empty.read_missing hleaf (Disk.find?_empty hleaf.ne_root))
  unusable _ := rfl
  begun h := absurd rfl h
  tail h := by cases h

/-- Opening journals and changing the system's clock are nothing to the streams. -/
theorem congr {s' : Durable} (h : Keeps s streams) (hdisk : s'.disk = s.disk) (htails : s'.tails = s.tails) :
    Keeps s' streams where
  orderly := hdisk ▸ h.orderly
  tidy := h.tidy
  file hid := hdisk ▸ h.file hid
  unusable := h.unusable
  begun hne := hdisk ▸ h.begun hne
  tail {journal id tail} ht := by
    rw [remembered, htails] at ht
    exact hdisk ▸ h.tail ht

theorem openNew (h : Keeps s streams) : Keeps s.openNew.2 streams := h.congr rfl rfl

/-- What is written elsewhere on the disk does not matter. -/
theorem withDisk (h : Keeps s streams) {d : Disk} (hd : Orderly d) {changed : Path → Prop}
    (hchanged : ∀ id, ¬ changed (eventsPath id)) (hgrown : Grown changed s.disk d) :
    Keeps { s with disk := d } streams where
  orderly := hd
  tidy := h.tidy
  file {id} hid :=
    (h.file hid).of_find? h.orderly hd (Layout.leaf_eventsPath id)
      (hgrown.file (Layout.leaf_eventsPath id) (hchanged id))
  unusable := h.unusable
  begun hne := (h.begun hne).grown hgrown
  tail ht := ⟨(h.tail ht).1, (h.tail ht).2.1.grown hgrown, (h.tail ht).2.2⟩

theorem forget (h : Keeps s streams) (journal : Nat) (id : StreamId) : Keeps (s.forget journal id) streams :=
  { h with
    tail := fun {j i t} ht => by
      rw [remembered, Durable.forget, Entries.find?_erase] at ht
      split at ht
      · cases ht
      · exact h.tail ht }

theorem remember (h : Keeps s streams) (journal : Nat) {id : StreamId} {tail : Tail} (hid : Usable id)
    (hbegun : Begun s.disk id) (htail : Remembers (streams id) tail) :
    Keeps (s.remember journal id tail) streams :=
  { h with
    tail := fun {j i t} ht => by
      rw [remembered, Durable.remember, Entries.find?_set] at ht
      split at ht
      · next heq =>
        obtain ⟨-, rfl⟩ := Prod.mk.inj heq
        obtain rfl := Option.some.inj ht
        exact ⟨hid, hbegun, htail⟩
      · exact h.tail ht }

/-! ### Reading -/

theorem readFrom_eq (h : Keeps s streams) {id : StreamId} (hid : Usable id) (start : Nat) :
    s.readFrom id start = .ok ((streams id).filter (fun r => start ≤ r.sequenceNr)) := by
  rw [readFrom, Layout.eventsFile_ok hid]
  exact (h.file hid).readFile_eq start

theorem currentTail_eq (h : Keeps s streams) {id : StreamId} (hid : Usable id) (journal : Nat) :
    currentTail s.disk (eventsPath id) (s.remembered journal id) =
      .ok ⟨(content (streams id)).length, (streams id).length⟩ :=
  (h.file hid).filled.currentTail_eq (h.tidy.numbered id) fun _ ht => (h.tail ht).2.2

/-- The highest number of a stream that was begun, and whatever the journal notes of it. -/
theorem highest_eq (h : Keeps s streams) {id : StreamId} (hid : Usable id) (hbegun : Begun s.disk id)
    (journal : Nat) :
    (s.highest journal id).1 = .ok (streams id).length ∧ Keeps (s.highest journal id).2 streams := by
  rw [highest, Layout.eventsFile_ok hid]
  dsimp only
  rw [h.currentTail_eq hid]
  exact ⟨rfl, h.remember journal hid hbegun (remembers_all _)⟩

/-! ### Writing -/

/-- A stream that the journal does not remember is begun before it is looked at. -/
theorem begin_ok (h : Keeps s streams) {id : StreamId} (hid : Usable id) (journal : Nat) :
    ∃ directory d, (if (s.remembered journal id).isSome then (Except.ok [], s.disk)
        else Registry.ensure id s.seconds s.disk) = (.ok directory, d) ∧
      Keeps { s with disk := d } streams ∧ Grown (· = Layout.registryFile) s.disk d ∧ Begun d id := by
  cases hknown : s.remembered journal id with
  | some tail => exact ⟨[], s.disk, rfl, h, .refl _, (h.tail hknown).2.1⟩
  | none =>
    obtain ⟨d, hensure, hd, hgrown, -, hbegun⟩ := Registry.ensure_ok h.orderly hid s.seconds
    exact ⟨_, d, hensure, h.withDisk hd Layout.eventsPath_ne_registryFile hgrown, hgrown, hbegun⟩

/-- One more record in the file of its stream. -/
theorem put_events (h : Keeps s streams) {r : Record} (hid : Usable r.stream) (hbegun : Begun s.disk r.stream)
    (hr : Storable r) (hnext : r.sequenceNr = (streams r.stream).length + 1) :
    Keeps { s with disk := s.disk.put (eventsPath r.stream) (.file (content (streams r.stream ++ [r]))) }
      (extend streams r) := by
  obtain ⟨horderly, hgrown, hread⟩ := put_eventsPath h.orderly r.stream (content (streams r.stream ++ [r]))
  exact {
    orderly := horderly
    tidy := h.tidy.extend hnext
    file := fun {id} hid' => by
      by_cases hne : id = r.stream
      · rw [hne, extend_self]
        refine ⟨.inl ?_, fun r' hr' => ?_, List.not_mem_nil⟩
        · rwa [List.append_nil]
        · obtain hr' | hr' := List.mem_append.1 hr'
          · exact (h.file hid).storable r' hr'
          · rw [List.mem_singleton.1 hr']
            exact hr
      · rw [extend_of_ne hne]
        exact (h.file hid').of_find? h.orderly horderly (Layout.leaf_eventsPath id)
          (find?_aside hgrown hne)
    unusable := fun {id} hid' => by
      have hne : id ≠ r.stream := fun he => hid' (by rw [he]; exact hid)
      rw [extend_of_ne hne]
      exact h.unusable hid'
    begun := fun {id} hne => by
      by_cases he : id = r.stream
      · exact he ▸ hbegun.grown hgrown
      · rw [extend_of_ne he] at hne
        exact (h.begun hne).grown hgrown
    tail := fun {journal id tail} ht => by
      obtain ⟨hid', hbegun', hremembers⟩ := h.tail ht
      refine ⟨hid', hbegun'.grown hgrown, ?_⟩
      by_cases he : id = r.stream
      · rw [he, extend_self]
        exact (he ▸ hremembers).append [r]
      · rw [extend_of_ne he]
        exact hremembers }

/-- Files that an append may change. -/
def OutsideSnapshots (p : Path) : Prop := ¬ InSnapshots p

theorem outsideSnapshots_registry {d d' : Disk} (h : Grown (· = Layout.registryFile) d d') :
    Grown OutsideSnapshots d d' :=
  h.mono fun p hp => by
    rw [hp]
    exact Layout.not_inSnapshots_registryFile

/-- **A record in its turn is taken**, by whichever journal. -/
theorem append_next (h : Keeps s streams) {r : Record} (hid : Usable r.stream) (hr : Storable r)
    (hnext : r.sequenceNr = (streams r.stream).length + 1) (journal : Nat) :
    ∃ s', s.append journal r = (.ok r.sequenceNr, s') ∧ Keeps s' (extend streams r) ∧
      Grown OutsideSnapshots s.disk s'.disk := by
  obtain ⟨directory, d, hbegin, hkeeps, hgrown, hbegun⟩ := h.begin_ok hid journal
  have hleaf := Layout.leaf_eventsPath r.stream
  have hplace := (hkeeps.file hid).filled.place_eq hkeeps.orderly hleaf (hbegun _ (List.prefix_refl _))
    (streams r.stream).length r
  have hput := hkeeps.put_events hid hbegun hr hnext
  have hgrown' : Grown OutsideSnapshots d
      (d.put (eventsPath r.stream) (.file (content (streams r.stream ++ [r])))) :=
    .put hkeeps.orderly hleaf (Layout.not_inSnapshots_eventsPath r.stream) _
  have htail : Remembers (extend streams r r.stream)
      ⟨(content (streams r.stream)).length + (lineOf r).length, r.sequenceNr⟩ := by
    have hall := remembers_all (streams r.stream ++ [r])
    rw [content_concat, List.length_append, List.length_append, List.length_singleton, ← hnext] at hall
    rwa [extend_self]
  refine ⟨_, ?_, hput.remember journal hid (hbegun.grown hgrown') htail,
    (outsideSnapshots_registry hgrown).trans hgrown'⟩
  have hend : currentTail d (eventsPath r.stream) (s.remembered journal r.stream) = _ :=
    hkeeps.currentTail_eq hid journal
  dsimp only at hplace
  simp only [append, hbegin, Layout.eventsFile_ok hid, hend, checkNext_ok hnext, hplace]

/-- **Any other record is refused**, and nothing is written. -/
theorem append_refused (h : Keeps s streams) {r : Record} (hid : Usable r.stream) {e : StorageError}
    (hnext : checkNext r (streams r.stream).length = .error e) (journal : Nat) :
    ∃ s', s.append journal r = (.error e, s') ∧ Keeps s' streams ∧
      Grown OutsideSnapshots s.disk s'.disk := by
  obtain ⟨directory, d, hbegin, hkeeps, hgrown, hbegun⟩ := h.begin_ok hid journal
  refine ⟨_, ?_, hkeeps.remember journal hid hbegun (remembers_all _), outsideSnapshots_registry hgrown⟩
  have hend : currentTail d (eventsPath r.stream) (s.remembered journal r.stream) = _ :=
    hkeeps.currentTail_eq hid journal
  simp only [append, hbegin, Layout.eventsFile_ok hid, hend, hnext]

end Keeps

end CartLedger.Journal.Durable
