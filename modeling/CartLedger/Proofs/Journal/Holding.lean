import CartLedger.Proofs.Journal.Durable

/-! What a disk holds, cut writes and all.

`Holds` ties a disk and what journals remember of it to the streams that were written and
to what cut writes left behind them. Unlike `Keeps` it asks nothing of what the records
say, and it allows for a journal that was asked about a stream before there was one: such
a journal remembers an end of a stream that has no directory (`Placed` is that this is not
so). An append through any other journal takes the record that is next and cuts off what is
behind the stream (`Holds.append_taken`), and refuses any other record and leaves the file
alone (`Holds.append_refused`). Through such a journal none is taken: the next record is
lost for want of a directory (`Holds.append_lost`). -/
namespace CartLedger.Journal.Durable
open CartLedger.Storage
open CartLedger.Storage.Layout (Usable Leaf eventsPath entityPath)
open CartLedger.Text.Lines (newline)

variable {s : Durable} {streams : StreamId → List Record} {torn : StreamId → List UInt8} {r : Record}

/-- The stream's own directory is there. -/
def Housed (d : Disk) (id : StreamId) : Prop := d.find? (entityPath "streams" id) = some .directory

instance (d : Disk) (id : StreamId) : Decidable (Housed d id) := inferInstanceAs (Decidable (_ = _))

/-- What is behind the streams once that of one stream was cut off. -/
def mend (torn : StreamId → List UInt8) (id : StreamId) : StreamId → List UInt8 :=
  fun id' => if id' = id then [] else torn id'

/-! ### Memories -/

theorem remembered_remember (s : Durable) (journal : Nat) (id : StreamId) (tail : Tail) (j : Nat) (i : StreamId) :
    (s.remember journal id tail).remembered j i =
      if (journal, id) = (j, i) then some tail else s.remembered j i := Entries.find?_set ..

theorem remembered_forget (s : Durable) (journal : Nat) (id : StreamId) (j : Nat) (i : StreamId) :
    (s.forget journal id).remembered j i = if (journal, id) = (j, i) then none else s.remembered j i :=
  Entries.find?_erase ..

/-- What an append does beside what it writes: the stream has its directory, no other is
made, and nothing else is remembered of other streams. -/
structure Moved (s s' : Durable) (id : StreamId) : Prop where
  houses : Registry.Houses s.disk s'.disk id
  begun : Begun s'.disk id
  aside : ∀ journal {id'}, id' ≠ id → s'.remembered journal id' = s.remembered journal id'

/-! ### Holding -/

structure Holds (s : Durable) (streams : StreamId → List Record) (torn : StreamId → List UInt8) : Prop where
  orderly : Orderly s.disk
  tidy : Tidy streams
  file : ∀ {id}, Usable id → Filled s.disk (eventsPath id) (streams id) (torn id)
  begun : ∀ {id}, Housed s.disk id → Begun s.disk id
  housed : ∀ {id}, s.disk.find? (eventsPath id) ≠ none → Housed s.disk id
  tail : ∀ {journal id tail}, s.remembered journal id = some tail → Usable id ∧ Remembers (streams id) tail

/-- The stream has a directory, or will have one before the journal writes to it. -/
def Placed (s : Durable) (journal : Nat) (id : StreamId) : Prop :=
  Housed s.disk id ∨ s.remembered journal id = none

/-- To remember a stream without a directory is to write nowhere. -/
theorem not_placed_remember {id : StreamId} (hhoused : ¬ Housed s.disk id) (journal : Nat) (tail : Tail) :
    ¬ Placed (s.remember journal id tail) journal id := by
  rintro (hh | hn)
  · exact hhoused hh
  · rw [remembered_remember, if_pos rfl] at hn
    cases hn

namespace Holds

theorem fresh : Holds (onDisk .empty) (fun _ => []) fun _ => [] where
  orderly := orderly_empty
  tidy := tidy_empty
  file {id} _ := by
    have hleaf := Layout.leaf_eventsPath id
    exact Filled.missing (orderly_empty.read_missing hleaf (Disk.find?_empty hleaf.ne_root))
  begun h := by cases h
  housed {id} h := absurd (Disk.find?_empty (Layout.leaf_eventsPath id).ne_root) h
  tail h := by cases h

theorem congr {s' : Durable} (h : Holds s streams torn) (hdisk : s'.disk = s.disk) (htails : s'.tails = s.tails) :
    Holds s' streams torn where
  orderly := hdisk ▸ h.orderly
  tidy := h.tidy
  file hid := hdisk ▸ h.file hid
  begun hhoused := by
    rw [hdisk] at hhoused ⊢
    exact h.begun hhoused
  housed hfind := by
    rw [hdisk] at hfind ⊢
    exact h.housed hfind
  tail {journal id tail} ht := by
    rw [remembered, htails] at ht
    exact h.tail ht

theorem forget (h : Holds s streams torn) (journal : Nat) (id : StreamId) :
    Holds (s.forget journal id) streams torn :=
  { h with
    tail := fun {j i t} ht => by
      rw [remembered_forget] at ht
      split at ht
      · cases ht
      · exact h.tail ht }

theorem remember (h : Holds s streams torn) (journal : Nat) {id : StreamId} {tail : Tail} (hid : Usable id)
    (htail : Remembers (streams id) tail) : Holds (s.remember journal id tail) streams torn :=
  { h with
    tail := fun {j i t} ht => by
      rw [remembered_remember] at ht
      split at ht
      · next heq =>
        obtain ⟨-, rfl⟩ := Prod.mk.inj heq
        obtain rfl := Option.some.inj ht
        exact ⟨hid, htail⟩
      · exact h.tail ht }

/-- A stream without a directory was not written to. -/
theorem unwritten (h : Holds s streams torn) {id : StreamId} (hid : Usable id) (hhoused : ¬ Housed s.disk id) :
    s.disk.find? (eventsPath id) = none ∧ s.disk.read (eventsPath id) = .error .missing ∧ streams id = [] := by
  have hleaf := Layout.leaf_eventsPath id
  have hnone : s.disk.find? (eventsPath id) = none := Classical.byContradiction fun hne => hhoused (h.housed hne)
  have hread := h.orderly.read_missing hleaf hnone
  obtain hfile | ⟨-, hempty, -⟩ := (h.file hid).read
  · rw [hread] at hfile
    cases hfile
  · exact ⟨hnone, hread, hempty⟩

/-! ### Reading -/

/-- **What is behind the last newline is not read.** -/
theorem readFrom_eq (h : Holds s streams torn) {id : StreamId} (hid : Usable id) (start : Nat) :
    s.readFrom id start = records (eventsPath id) start (Text.Lines.counted 1 ((streams id).map text)) := by
  rw [readFrom, Layout.eventsFile_ok hid]
  exact (h.file hid).readFile_eq start

theorem currentTail_eq (h : Holds s streams torn) {id : StreamId} (hid : Usable id) (journal : Nat) :
    currentTail s.disk (eventsPath id) (s.remembered journal id) =
      .ok ⟨(content (streams id)).length, (streams id).length⟩ :=
  (h.file hid).currentTail_eq (h.tidy.numbered id) fun _ ht => (h.tail ht).2

/-- A journal that is asked for the last number remembers where the stream ends. -/
theorem highest_eq (h : Holds s streams torn) {id : StreamId} (hid : Usable id) (journal : Nat) :
    s.highest journal id = (.ok (streams id).length,
      s.remember journal id ⟨(content (streams id)).length, (streams id).length⟩) := by
  rw [highest, Layout.eventsFile_ok hid]
  dsimp only
  rw [h.currentTail_eq hid]

/-! ### Beginning a stream -/

theorem withDisk (h : Holds s streams torn) {d : Disk} (hd : Orderly d) {changed : Path → Prop}
    (hchanged : ∀ id, ¬ changed (eventsPath id)) (hgrown : Grown changed s.disk d) {id : StreamId}
    (hhouses : Registry.Houses s.disk d id) (hbegun : Begun d id) : Holds { s with disk := d } streams torn where
  orderly := hd
  tidy := h.tidy
  file {id'} hid' :=
    (h.file hid').of_find? h.orderly hd (Layout.leaf_eventsPath id')
      (hgrown.file (Layout.leaf_eventsPath id') (hchanged id'))
  begun {id'} hhoused := by
    obtain hhoused | hpath := (hhouses _ rfl).1 hhoused
    · exact (h.begun hhoused).grown hgrown
    · have heq : id' = id := Layout.entityPath_inj (hpath.eq_of_length rfl)
      exact heq ▸ hbegun
  housed {id'} hfind := by
    refine hgrown.directory (h.housed ?_)
    rwa [← hgrown.file (Layout.leaf_eventsPath id') (hchanged id')]
  tail ht := h.tail ht

/-- A stream that the journal does not remember is begun before it is looked at. -/
theorem begin_ok (h : Holds s streams torn) {id : StreamId} (hid : Usable id) {journal : Nat}
    (hplaced : Placed s journal id) :
    ∃ directory d, (if (s.remembered journal id).isSome then (Except.ok [], s.disk)
        else Registry.ensure id s.seconds s.disk) = (.ok directory, d) ∧
      Holds { s with disk := d } streams torn ∧ Registry.Houses s.disk d id ∧ Begun d id := by
  cases hknown : s.remembered journal id with
  | some tail =>
    have hbegun : Begun s.disk id := h.begun (hplaced.resolve_right (by rw [hknown]; exact Option.some_ne_none _))
    refine ⟨[], s.disk, rfl, h, fun p _ => ?_, hbegun⟩
    exact ⟨.inl, fun hp => hp.elim (fun hp => hp) (hbegun p)⟩
  | none =>
    obtain ⟨d, hensure, hd, hgrown, hhouses, hbegun⟩ := Registry.ensure_ok h.orderly hid s.seconds
    exact ⟨_, d, hensure, h.withDisk hd Layout.eventsPath_ne_registryFile hgrown hhouses hbegun, hhouses, hbegun⟩

/-! ### Writing -/

/-- One more record at the end of its stream, over whatever was behind it. -/
theorem put_events (h : Holds s streams torn) (hid : Usable r.stream) (hbegun : Begun s.disk r.stream)
    (hfits : r.sequenceNr < UInt64.size) (hnext : r.sequenceNr = (streams r.stream).length + 1) :
    Holds { s with disk := s.disk.put (eventsPath r.stream) (.file (content (streams r.stream ++ [r]))) }
      (extend streams r) (mend torn r.stream) := by
  have hleaf := Layout.leaf_eventsPath r.stream
  obtain ⟨horderly, hgrown, hread⟩ := put_eventsPath h.orderly r.stream (content (streams r.stream ++ [r]))
  exact {
    orderly := horderly
    tidy := h.tidy.extend hnext
    file := fun {id} hid' => by
      by_cases hne : id = r.stream
      · rw [hne, extend_self, mend, if_pos rfl]
        refine ⟨.inl ?_, fun r' hr' => ?_, List.not_mem_nil⟩
        · rwa [List.append_nil]
        · obtain hr' | hr' := List.mem_append.1 hr'
          · exact (h.file hid).fits r' hr'
          · rw [List.mem_singleton.1 hr']
            exact hfits
      · rw [extend_of_ne hne, mend, if_neg hne]
        exact (h.file hid').of_find? h.orderly horderly (Layout.leaf_eventsPath id)
          (find?_aside hgrown hne)
    begun := fun {id} hhoused =>
      (h.begun ((h.orderly.find?_put_directory hleaf _ _).1 hhoused)).grown hgrown
    housed := fun {id} hfind => by
      by_cases he : id = r.stream
      · exact he ▸ hbegun.grown hgrown _ (List.prefix_refl _)
      · rw [find?_aside hgrown he] at hfind
        exact hgrown.directory (h.housed hfind)
    tail := fun {journal id tail} ht => by
      obtain ⟨hid', hremembers⟩ := h.tail ht
      refine ⟨hid', ?_⟩
      by_cases he : id = r.stream
      · rw [he, extend_self]
        exact (he ▸ hremembers).append [r]
      · rw [extend_of_ne he]
        exact hremembers }

/-- **A record in its turn is taken**, and what was behind the stream is gone. -/
theorem append_taken (h : Holds s streams torn) (hid : Usable r.stream) (hfits : r.sequenceNr < UInt64.size)
    {journal : Nat} (hplaced : Placed s journal r.stream)
    (hnext : r.sequenceNr = (streams r.stream).length + 1) :
    ∃ s', s.append journal r = (.ok r.sequenceNr, s') ∧ Holds s' (extend streams r) (mend torn r.stream) ∧
      Moved s s' r.stream := by
  obtain ⟨directory, d, hbegin, hholds, hhouses, hbegun⟩ := h.begin_ok hid hplaced
  have hleaf := Layout.leaf_eventsPath r.stream
  have hplace := (hholds.file hid).place_eq hholds.orderly hleaf (hbegun _ (List.prefix_refl _))
    (streams r.stream).length r
  have hput := hholds.put_events hid hbegun hfits hnext
  have hdirectory := hholds.orderly.find?_put_directory hleaf (content (streams r.stream ++ [r]))
  have htail : Remembers (extend streams r r.stream)
      ⟨(content (streams r.stream)).length + (lineOf r).length, r.sequenceNr⟩ := by
    have hall := remembers_all (streams r.stream ++ [r])
    rw [content_concat, List.length_append, List.length_append, List.length_singleton, ← hnext] at hall
    rwa [extend_self]
  have hend : currentTail d (eventsPath r.stream) (s.remembered journal r.stream) = _ :=
    hholds.currentTail_eq hid journal
  dsimp only at hplace
  refine ⟨_, by simp only [append, hbegin, Layout.eventsFile_ok hid, hend, checkNext_ok hnext, hplace],
    hput.remember journal hid htail, fun p hp => ?_, fun q hq => ?_, fun j id' hne => ?_⟩
  · exact (hdirectory p).trans (hhouses p hp)
  · exact (hdirectory q).2 (hbegun q hq)
  · rw [remembered_remember, if_neg fun he => hne (Prod.mk.inj he).2.symm]
    rfl

/-- **Any other record is refused**, and the file is left as it is. -/
theorem append_refused (h : Holds s streams torn) (hid : Usable r.stream) {journal : Nat}
    (hplaced : Placed s journal r.stream) {e : StorageError}
    (hnext : checkNext r (streams r.stream).length = .error e) :
    ∃ s', s.append journal r = (.error e, s') ∧ Holds s' streams torn ∧ Moved s s' r.stream := by
  obtain ⟨directory, d, hbegin, hholds, hhouses, hbegun⟩ := h.begin_ok hid hplaced
  have hend : currentTail d (eventsPath r.stream) (s.remembered journal r.stream) = _ :=
    hholds.currentTail_eq hid journal
  refine ⟨_, by simp only [append, hbegin, Layout.eventsFile_ok hid, hend, hnext],
    hholds.remember journal hid (remembers_all _), hhouses, hbegun, fun j id' hne => ?_⟩
  rw [remembered_remember, if_neg fun he => hne (Prod.mk.inj he).2.symm]
  rfl

/-- A record that was taken was in its turn. -/
theorem of_append_ok (h : Holds s streams torn) (hid : Usable r.stream) (hfits : r.sequenceNr < UInt64.size)
    {journal : Nat} (hplaced : Placed s journal r.stream) {t : Durable}
    {n : Nat} (happend : s.append journal r = (.ok n, t)) :
    n = r.sequenceNr ∧ r.sequenceNr = (streams r.stream).length + 1 ∧
      Holds t (extend streams r) (mend torn r.stream) := by
  by_cases hnext : r.sequenceNr = (streams r.stream).length + 1
  · obtain ⟨s', htaken, hholds, -⟩ := h.append_taken hid hfits hplaced hnext
    obtain ⟨hnumber, rfl⟩ := Prod.mk.inj (htaken.symm.trans happend)
    exact ⟨(Except.ok.inj hnumber).symm, hnext, hholds⟩
  · obtain ⟨e, he⟩ := checkNext_error hnext
    obtain ⟨s', hrefused, -⟩ := h.append_refused hid hplaced he
    cases hrefused.symm.trans happend

/-- A record that was refused left the streams and what is behind them. -/
theorem of_append_error (h : Holds s streams torn) (hid : Usable r.stream) (hfits : r.sequenceNr < UInt64.size)
    {journal : Nat} (hplaced : Placed s journal r.stream) {e : StorageError} {t : Durable}
    (happend : s.append journal r = (.error e, t)) : Holds t streams torn := by
  by_cases hnext : r.sequenceNr = (streams r.stream).length + 1
  · obtain ⟨s', htaken, -⟩ := h.append_taken hid hfits hplaced hnext
    cases htaken.symm.trans happend
  · obtain ⟨e', he'⟩ := checkNext_error hnext
    obtain ⟨s', hrefused, hholds, -⟩ := h.append_refused hid hplaced he'
    obtain ⟨-, rfl⟩ := Prod.mk.inj (hrefused.symm.trans happend)
    exact hholds

/-- **A journal that remembers a stream without a directory takes nothing.** A record that
is not the first is refused as ever, and the first one is lost; only then does the journal
forget the stream. -/
theorem append_lost (h : Holds s streams torn) (hid : Usable r.stream) {journal : Nat}
    (hplaced : ¬ Placed s journal r.stream) :
    s.append journal r =
      match checkNext r 0 with
      | .error e => (.error e, s.remember journal r.stream ⟨0, 0⟩)
      | .ok () => (.error (.system .missing), s.forget journal r.stream) := by
  obtain ⟨hhoused, hknown⟩ := not_or.1 hplaced
  obtain ⟨hnone, hread, hempty⟩ := h.unwritten hid hhoused
  have hleaf := Layout.leaf_eventsPath r.stream
  have hsome : (s.remembered journal r.stream).isSome := Option.isSome_iff_ne_none.2 hknown
  have hend : currentTail s.disk (eventsPath r.stream) (s.remembered journal r.stream) = .ok ⟨0, 0⟩ := by
    rw [h.currentTail_eq hid, hempty]
    rfl
  have habove : s.disk.find? (eventsPath r.stream).dropLast ≠ some .directory := by
    rw [Layout.eventsPath, List.dropLast_concat]
    exact hhoused
  have hplace : place (eventsPath r.stream) ⟨0, 0⟩ r s.disk = .error (.system .missing) := by
    rw [place, hread]
    dsimp only
    rw [Disk.write_astray hnone (h.orderly.clear_leaf hleaf hnone) habove]
    rfl
  cases hnext : checkNext r 0 with
  | error e => simp only [append, hsome, if_true, Layout.eventsFile_ok hid, hend, hnext]
  | ok _ => simp only [append, hsome, if_true, Layout.eventsFile_ok hid, hend, hnext, hplace]

end Holds

end CartLedger.Journal.Durable
