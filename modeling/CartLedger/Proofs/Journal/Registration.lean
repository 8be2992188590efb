import CartLedger.Proofs.Journal.Holding
import CartLedger.Proofs.Journal.Listing
import CartLedger.Proofs.Storage.Entering
import Mathlib.Data.List.Induction

/-! The registry knows exactly the streams that were used.

A stream is used when it is ensured and when a record is appended to it, be it taken or not. A
journal that remembers a stream does not look whether it is registered; that does no harm, since
it remembers none that was not used before (`Registered.known`). So with every use the registry
is what it would be had the stream just been ensured (`Registered.apply`), and after any of them
the lines of the registry, the directories of streams and the streams that were used are the same
(`registry_exact`). -/
namespace CartLedger.Journal.Durable
open CartLedger.Storage
open CartLedger.Storage.Layout (Usable entityPath eventsPath registryFile metaDirectory streamsDirectory)
open CartLedger.Storage.Registry (Lists enlist)

/-! ### Uses -/

/-- A stream is ensured, or a record is appended through some journal, at a time of the clock. -/
inductive Use where
  | ensure (id : StreamId) (seconds : Nat)
  | append (journal : Nat) (r : Record) (seconds : Nat)

namespace Use

def stream : Use → StreamId
  | ensure id _ => id
  | append _ r _ => r.stream

/-- The stream can be used, and numbers have 64 bits. -/
def Fits : Use → Prop
  | ensure id seconds => Usable id ∧ seconds < UInt64.size
  | append _ r seconds => Usable r.stream ∧ seconds < UInt64.size ∧ r.sequenceNr < UInt64.size

instance : DecidablePred Fits
  | ensure id seconds => inferInstanceAs (Decidable (Usable id ∧ seconds < UInt64.size))
  | append _ r seconds =>
    inferInstanceAs (Decidable (Usable r.stream ∧ seconds < UInt64.size ∧ r.sequenceNr < UInt64.size))

def apply (s : Durable) : Use → Durable
  | ensure id seconds => { s with disk := (Registry.ensure id seconds s.disk).2 }
  | append journal r seconds => ({ s with seconds := seconds }.append journal r).2

/-- What is left of an empty disk, and what journals remember of it. -/
def run (uses : List Use) : Durable := uses.foldl apply (onDisk .empty)

/-- The streams that were used, in the order of first use. -/
def streams (uses : List Use) : List StreamId := (uses.map stream).eraseDups

theorem run_concat (uses : List Use) (use : Use) : run (uses ++ [use]) = use.apply (run uses) :=
  List.foldl_concat ..

theorem streams_concat (uses : List Use) (use : Use) :
    streams (uses ++ [use]) = enlist (streams uses) use.stream := by
  rw [streams, List.map_append, List.eraseDups_append, enlist, streams]
  simp only [List.mem_eraseDups, List.map_singleton, List.removeAll, List.filter_singleton]
  by_cases hmem : use.stream ∈ uses.map stream
  · simp [hmem]
  · simp [hmem, List.eraseDups_cons]

end Use

variable {s : Durable} {ids : List StreamId} {id : StreamId}

theorem mem_enlist {id' : StreamId} : id' ∈ enlist ids id ↔ id' ∈ ids ∨ id' = id := by
  rw [enlist]
  split
  · next hmem => exact ⟨.inl, fun h => h.elim (fun h => h) fun h => h ▸ hmem⟩
  · rw [List.mem_append, List.mem_singleton]

theorem nodup_enlist (h : ids.Nodup) (id : StreamId) : (enlist ids id).Nodup := by
  rw [enlist]
  split
  · exact h
  · next hnew =>
    refine List.nodup_append.2 ⟨h, List.pairwise_singleton _ id, fun a ha b hb he => hnew ?_⟩
    rwa [← List.mem_singleton.1 hb, ← he]

/-- Only streams that can be used have a directory. -/
theorem usable_of_housed {d : Disk} (h : Orderly d) (hhoused : Housed d id) : Usable id := by
  have hnames := (h.folder hhoused).2
  exact ⟨hnames id.entityType (by simp [entityPath]), hnames id.entityId (by simp [entityPath])⟩

/-! ### What an append leaves alone -/

theorem write_of_place {file : Path} {tail : Tail} {r : Record} {d d' : Disk} (h : place file tail r d = .ok d') :
    ∃ bytes, d.write file bytes = .ok d' := by
  have hwrite : ∀ {bytes}, Registry.system (d.write file bytes) = .ok d' → d.write file bytes = .ok d' := by
    intro bytes hsystem
    cases hwrite : d.write file bytes with
    | error t => rw [hwrite] at hsystem; cases hsystem
    | ok d₁ => rw [hwrite] at hsystem; exact congrArg Except.ok (Except.ok.inj hsystem)
  rw [place] at h
  split at h
  · exact ⟨_, hwrite h⟩
  · exact ⟨_, hwrite h⟩
  · cases h

/-- Once the stream was begun an append writes to no other file than the stream's. -/
theorem find?_append {journal : Nat} {r : Record} (hid : Usable r.stream) {begun : Except StorageError Path} {d : Disk}
    (hbegin : (if (s.remembered journal r.stream).isSome then (Except.ok [], s.disk)
      else Registry.ensure r.stream s.seconds s.disk) = (begun, d)) {q : Path} (hq : q ≠ eventsPath r.stream) :
    (s.append journal r).2.disk.find? q = d.find? q := by
  simp only [append, hbegin, Layout.eventsFile_ok hid]
  split
  · rfl
  · next heq => cases heq
  · next hfile =>
    obtain rfl := Except.ok.inj hfile
    split
    · rfl
    · split
      · rfl
      · split
        · rfl
        · next hplace =>
          obtain ⟨bytes, hwrite⟩ := write_of_place hplace
          obtain rfl := Disk.write_ok hwrite
          exact (Disk.find?_put (Layout.leaf_eventsPath _).ne_root _ _).trans (if_neg (Ne.symm hq))

/-! ### One use after another -/

/-- The disk has a line and a directory for just these streams, and no journal remembers another. -/
structure Registered (s : Durable) (ids : List StreamId) : Prop where
  holds : ∃ streams torn, Holds s streams torn
  lists : Lists s.disk ids
  home : ids ≠ [] → s.disk.find? metaDirectory = some .directory
  houses : ∀ {p : Path}, p.head? = some "streams" →
    (s.disk.find? p = some .directory ↔ ∃ id ∈ ids, p <+: entityPath "streams" id)
  known : ∀ {journal id}, s.remembered journal id ≠ none → id ∈ ids
  distinct : ids.Nodup

namespace Registered

theorem fresh : Registered (onDisk .empty) [] where
  holds := ⟨_, _, Holds.fresh⟩
  lists := ⟨[], rfl, List.forall_mem_nil _, .nil⟩
  home h := absurd rfl h
  houses {p} hp := by
    have hroot : p ≠ [] := fun he => by rw [he] at hp; cases hp
    show Disk.find? .empty p = _ ↔ _
    rw [Disk.find?_empty hroot]
    simp
  known h := absurd rfl h
  distinct := List.nodup_nil

theorem housed_iff (h : Registered s ids) : Housed s.disk id ↔ id ∈ ids := by
  rw [Housed, h.houses rfl]
  constructor
  · rintro ⟨id', hmem, hpath⟩
    exact Layout.entityPath_inj (hpath.eq_of_length rfl) ▸ hmem
  · exact fun hmem => ⟨id, hmem, List.prefix_refl _⟩

/-- No journal remembers a stream without a directory. -/
theorem placed (h : Registered s ids) (journal : Nat) (id : StreamId) : Placed s journal id := by
  by_cases hknown : s.remembered journal id = none
  · exact .inr hknown
  · exact .inl (h.housed_iff.2 (h.known hknown))

theorem houses_enlist (h : Registered s ids) {d' : Disk} (hhouses : Registry.Houses s.disk d' id) {p : Path}
    (hp : p.head? = some "streams") :
    d'.find? p = some .directory ↔ ∃ id' ∈ enlist ids id, p <+: entityPath "streams" id' := by
  rw [hhouses p hp, h.houses hp]
  simp only [mem_enlist, or_and_right, exists_or, exists_eq_left]

/-- To ensure a stream lists it. -/
theorem ensure (h : Registered s ids) (hid : Usable id) {seconds : Nat} (hseconds : seconds < UInt64.size) :
    Registered { s with disk := (Registry.ensure id seconds s.disk).2 } (enlist ids id) := by
  obtain ⟨streams, torn, hholds⟩ := h.holds
  obtain ⟨d, hensure, hd, hgrown, hhouses, hbegun⟩ := Registry.ensure_ok hholds.orderly hid seconds
  rw [hensure]
  exact {
    holds := ⟨streams, torn, hholds.withDisk hd Layout.eventsPath_ne_registryFile hgrown hhouses hbegun⟩
    lists := h.lists.ensure hseconds hensure
    home := fun _ => Registry.find?_meta_of_ensure hensure
    houses := h.houses_enlist hhouses
    known := fun hknown => mem_enlist.2 (.inl (h.known hknown))
    distinct := nodup_enlist h.distinct id }

/-- To append a record to a stream lists it too, whether or not the record is taken. -/
theorem append (h : Registered s ids) {journal : Nat} {r : Record} (hid : Usable r.stream)
    (hseconds : s.seconds < UInt64.size) (hfits : r.sequenceNr < UInt64.size) :
    Registered (s.append journal r).2 (enlist ids r.stream) := by
  obtain ⟨streams, torn, hholds⟩ := h.holds
  have hplaced := h.placed journal r.stream
  obtain ⟨t, happend, hholds', hmoved⟩ : ∃ t, (s.append journal r).2 = t ∧
      (∃ streams torn, Holds t streams torn) ∧ Moved s t r.stream := by
    by_cases hnext : r.sequenceNr = (streams r.stream).length + 1
    · obtain ⟨t, happend, ht, hmoved⟩ := hholds.append_taken hid hfits hplaced hnext
      exact ⟨t, congrArg Prod.snd happend, ⟨_, _, ht⟩, hmoved⟩
    · obtain ⟨e, he⟩ := checkNext_error hnext
      obtain ⟨t, happend, ht, hmoved⟩ := hholds.append_refused hid hplaced he
      exact ⟨t, congrArg Prod.snd happend, ⟨_, _, ht⟩, hmoved⟩
  -- What is begun before the record is looked at is what is listed.
  obtain ⟨hlists, hhome⟩ : Lists (s.append journal r).2.disk (enlist ids r.stream) ∧
      (s.append journal r).2.disk.find? metaDirectory = some .directory := by
    have hregistry := (Layout.eventsPath_ne_registryFile r.stream).symm
    have hmeta : metaDirectory ≠ eventsPath r.stream := fun he =>
      absurd (congrArg List.length he) (by simp [eventsPath, entityPath, metaDirectory])
    by_cases hknown : (s.remembered journal r.stream).isSome
    · have hmem := h.known (Option.isSome_iff_ne_none.1 hknown)
      have hsame := fun q => find?_append (q := q) hid (if_pos hknown)
      rw [enlist, if_pos hmem, hsame _ hmeta]
      exact ⟨h.lists.congr (hsame _ hregistry), h.home (List.ne_nil_of_mem hmem)⟩
    · obtain ⟨d, hensure, -⟩ := Registry.ensure_ok hholds.orderly hid s.seconds
      have hsame := fun q => find?_append (q := q) hid ((if_neg hknown).trans hensure)
      rw [hsame _ hmeta]
      exact ⟨(h.lists.ensure hseconds hensure).congr (hsame _ hregistry), Registry.find?_meta_of_ensure hensure⟩
  rw [happend] at hlists hhome ⊢
  exact {
    holds := hholds'
    lists := hlists
    home := fun _ => hhome
    houses := h.houses_enlist hmoved.houses
    known := fun {j i} hknown => by
      by_cases he : i = r.stream
      · exact mem_enlist.2 (.inr he)
      · rw [hmoved.aside j he] at hknown
        exact mem_enlist.2 (.inl (h.known hknown))
    distinct := nodup_enlist h.distinct r.stream }

theorem apply (h : Registered s ids) {use : Use} (hfits : use.Fits) :
    Registered (use.apply s) (enlist ids use.stream) := by
  cases use with
  | ensure id seconds => exact h.ensure hfits.1 hfits.2
  | append journal r seconds =>
    obtain ⟨streams, torn, hholds⟩ := h.holds
    have hlater : Registered { s with seconds := seconds } ids :=
      { h with holds := ⟨streams, torn, hholds.congr rfl rfl⟩ }
    exact hlater.append hfits.1 hfits.2.1 hfits.2.2

theorem run {uses : List Use} (hfits : ∀ use ∈ uses, use.Fits) : Registered (Use.run uses) (Use.streams uses) := by
  induction uses using List.reverseRecOn with
  | nil => exact fresh
  | append_singleton uses use ih =>
    obtain ⟨huses, huse⟩ := List.forall_mem_append.1 hfits
    rw [Use.run_concat, Use.streams_concat]
    exact (ih huses).apply (huse use (List.mem_singleton_self use))

/-- To ensure a stream again changes nothing. -/
theorem ensure_again (h : Registered s ids) (hmem : id ∈ ids) (seconds : Nat) :
    Registry.ensure id seconds s.disk = (.ok (entityPath "streams" id), s.disk) := by
  obtain ⟨streams, torn, hholds⟩ := h.holds
  have hhoused := h.housed_iff.2 hmem
  have hown : s.disk.makeDirectories (entityPath "streams" id) = .ok s.disk :=
    Disk.makeDirectories_self (hholds.begun hhoused)
  have hmeta : s.disk.makeDirectories metaDirectory = .ok s.disk := by
    refine Disk.makeDirectories_self fun q hq => ?_
    obtain rfl | rfl := Registry.above_meta hq
    · exact Disk.find?_root _
    · exact h.home (List.ne_nil_of_mem hmem)
  obtain ⟨b, hlooked⟩ := Registry.holds_ok hholds.orderly id
  obtain rfl : b = true := by
    obtain ⟨ls, hcontent, hplain, hlists⟩ := h.lists
    have hsearch := Registry.search_of_holds hlooked
    rw [Registry.lines, hcontent, Text.Lines.all_joined hplain] at hsearch
    exact (Registry.of_search hsearch).2 ((Registry.exists_enters_iff hlists).2 hmem)
  have hid := Layout.entityDirectory_ok (usable_of_housed hholds.orderly hhoused) "streams"
  rw [Registry.ensure, Layout.streamDirectory, hid]
  simp only [hown, hmeta, hlooked]

end Registered

/-! ### Any number of uses -/

/-- The registry, the directories and the streams are in agreement. -/
structure Exact (d : Disk) (ids : List StreamId) : Prop where
  distinct : ids.Nodup
  lists : Lists d ids
  types : ∃ names, Layout.entityTypes d = .ok names ∧ names.Pairwise (· < ·) ∧
    ∀ t, t ∈ names ↔ ∃ id ∈ ids, id.entityType = t
  entities : ∀ t, Layout.isUsable t → ∃ names, Layout.entityIds d t = .ok names ∧ names.Pairwise (· < ·) ∧
    ∀ i, i ∈ names ↔ ⟨t, i⟩ ∈ ids
  /-- Of other types there are no streams, and nobody gets to ask. -/
  refused : ∀ t, ¬ Layout.isUsable t → Layout.entityIds d t = .error (.unusableName t)
  again : ∀ id ∈ ids, ∀ seconds, Registry.ensure id seconds d = (.ok (entityPath "streams" id), d)

theorem Registered.exact (h : Registered s ids) : Exact s.disk ids := by
  obtain ⟨streams, torn, hholds⟩ := h.holds
  have horderly := hholds.orderly
  refine ⟨h.distinct, h.lists, ⟨_, entityTypes_eq horderly, ascending_directoriesIn horderly _, fun t => ?_⟩,
    fun t ht => ⟨_, entityIds_eq horderly ht, ascending_directoriesIn horderly _, fun i => ?_⟩, fun t ht => ?_,
    fun id hmem => h.ensure_again hmem⟩
  · rw [mem_directoriesIn, h.houses rfl, h.houses rfl]
    constructor
    · rintro ⟨-, id, hmem, hpath⟩
      exact ⟨id, hmem, by simpa [entityPath, streamsDirectory, eq_comm] using hpath⟩
    · rintro ⟨id, hmem, rfl⟩
      exact ⟨⟨id, hmem, by simp [entityPath, streamsDirectory]⟩, id, hmem, by simp [entityPath, streamsDirectory]⟩
  · rw [mem_directoriesIn, h.houses rfl, ← h.housed_iff, Housed]
    refine ⟨And.right, fun hhoused => ⟨⟨⟨t, i⟩, h.housed_iff.1 hhoused, ?_⟩, hhoused⟩⟩
    simp [entityPath, streamsDirectory]
  · rw [Layout.entityIds, Layout.component, if_neg ht]
    rfl

/-- **The registry is exact**, whatever streams are used, in whatever order and through whatever
journals. -/
theorem registry_exact {uses : List Use} (hfits : ∀ use ∈ uses, use.Fits) :
    Exact (Use.run uses).disk (Use.streams uses) := (Registered.run hfits).exact

/-- A stream with a quote in its id, and one that two journals get to with the same record. -/
theorem registry_of_two_streams :
    let record : Record := Record.ofEvent ⟨.generated 1, .ofCart "a", 1, .ofList ["t"], .anonymous, Time.Timestamp.epoch⟩
      (.checkedOut "a" Time.Timestamp.epoch)
    let uses := [.ensure (.ofCart "\"") 1, .append 0 record 2, .append 1 record 3, .ensure (.ofCart "\"") 4]
    (∀ use ∈ uses, Use.Fits use) ∧ Exact (Use.run uses).disk [.ofCart "\"", .ofCart "a"] := by
  intro record uses
  have hfits : ∀ use ∈ uses, Use.Fits use := by decide
  have hstreams : Use.streams uses = [.ofCart "\"", .ofCart "a"] := by decide
  exact ⟨hfits, hstreams ▸ registry_exact hfits⟩

end CartLedger.Journal.Durable
