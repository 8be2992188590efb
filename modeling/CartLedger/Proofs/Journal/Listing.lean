import CartLedger.Proofs.Journal.Durable
import CartLedger.Proofs.StableSort

/-! Streams as the disk lists them.

A query by tag goes through the directories of entity types and of entities, each listing
in the order of its names. On a disk that keeps streams these are all streams that hold a
record, each once, by type and then by id (`Keeps.byTag_eq`). -/
namespace CartLedger.Journal.Durable
open CartLedger.Storage
open CartLedger.Storage.Layout (Usable Folder entityPath eventsPath)

/-! ### Order -/

/-- Whether a stream is not listed after another: by type and then by id, each in the order
of its bytes. -/
def listedBefore (a b : StreamId) : Bool :=
  Text.Utf8.ofString a.entityType < Text.Utf8.ofString b.entityType ∨
    (a.entityType = b.entityType ∧ Text.Utf8.ofString a.entityId ≤ Text.Utf8.ofString b.entityId)

theorem listedBefore_iff {a b : StreamId} :
    listedBefore a b ↔ a.entityType < b.entityType ∨ (a.entityType = b.entityType ∧ a.entityId ≤ b.entityId) := by
  rw [listedBefore, decide_eq_true_eq, Text.Utf8.ofString_lt_iff, Text.Utf8.ofString_le_iff]

theorem order_listedBefore : StableSort.Order listedBefore where
  trans {a b c} hab hbc := by
    rw [listedBefore_iff] at hab hbc ⊢
    obtain hab | ⟨hab, hab'⟩ := hab
    · obtain hbc | ⟨hbc, -⟩ := hbc
      · exact .inl (String.lt_trans hab hbc)
      · exact .inl (hbc ▸ hab)
    · obtain hbc | ⟨hbc, hbc'⟩ := hbc
      · exact .inl (hab ▸ hbc)
      · exact .inr ⟨hab.trans hbc, String.le_trans hab' hbc'⟩
  total a b := by
    rw [listedBefore_iff, listedBefore_iff]
    by_cases heq : a.entityType = b.entityType
    · exact (String.le_total a.entityId b.entityId).imp (fun h => .inr ⟨heq, h⟩) fun h => .inr ⟨heq.symm, h⟩
    · by_cases hlt : a.entityType < b.entityType
      · exact .inl (.inl hlt)
      · exact .inr (.inl (OrderedKey.total hlt heq))
  antisymm {a b} hab hba := by
    rw [listedBefore_iff] at hab hba
    cases a
    cases b
    obtain hab | ⟨rfl, hab⟩ := hab
    · obtain hba | ⟨hba, -⟩ := hba
      · exact absurd hba (String.lt_asymm hab)
      · exact absurd (hba ▸ hab) (String.lt_irrefl _)
    · obtain hba | ⟨-, hba⟩ := hba
      · exact absurd hba (String.lt_irrefl _)
      · exact congrArg (StreamId.mk _) (String.le_antisymm hab hba)

/-! ### Directories -/

/-- The names of the directories in a directory, in order. -/
def directoriesIn (d : Disk) (p : Path) : List String :=
  if d.find? p = some .directory then
    ((d.entries.filterMap (Disk.nameIn p)).filter fun name => d.isDirectory (p ++ [name])).mergeSort
      (fun a b => a ≤ b)
  else []

theorem subdirectories_eq {d : Disk} (h : Orderly d) {p : Path} (hp : ∀ q, q <+: p → Folder q) :
    Layout.subdirectories d p = .ok (directoriesIn d p) := by
  rw [Layout.subdirectories, directoriesIn, Disk.directoryNames]
  cases hfind : d.find? p with
  | none =>
    rw [Disk.names, Disk.look_missing hfind (h.clear hp)]
    rfl
  | some e =>
    cases e with
    | directory =>
      rw [Disk.names_ok hfind, if_pos rfl]
      rfl
    | file bytes => exact absurd (h.leaf hfind) (hp p (List.prefix_refl p)).1

theorem mem_directoriesIn {d : Disk} {p : Path} {name : String} :
    name ∈ directoriesIn d p ↔
      d.find? p = some .directory ∧ d.find? (p ++ [name]) = some .directory := by
  rw [directoriesIn]
  split
  · next hfind =>
    rw [List.mem_mergeSort, List.mem_filter, Disk.mem_filterMap_nameIn, Disk.isDirectory, decide_eq_true_eq]
    refine ⟨fun h => ⟨hfind, h.2⟩, fun h => ⟨by rw [h.2]; rfl, h.2⟩⟩
  · next hfind => exact ⟨fun h => absurd h List.not_mem_nil, fun h => absurd h.1 hfind⟩

theorem nameLe_trans (a b c : String) (hab : decide (a ≤ b)) (hbc : decide (b ≤ c)) : decide (a ≤ c) :=
  decide_eq_true (String.le_trans (of_decide_eq_true hab) (of_decide_eq_true hbc))

theorem nameLe_total (a b : String) : (decide (a ≤ b) || decide (b ≤ a)) = true := by
  simpa using String.le_total a b

theorem ascending_mergeSort {names : List String} (h : names.Nodup) :
    (names.mergeSort fun a b => a ≤ b).Pairwise (· < ·) := by
  have hsorted := List.pairwise_mergeSort nameLe_trans nameLe_total names
  have hdistinct := (List.mergeSort_perm names fun a b => a ≤ b).nodup_iff.2 h
  refine (hsorted.and hdistinct).imp fun {a b} hab => ?_
  have hne : b ≠ a := fun he => hab.2 he.symm
  exact OrderedKey.total (fun hlt => of_decide_eq_true hab.1 hlt) hne

theorem ascending_directoriesIn {d : Disk} (h : Orderly d) (p : Path) :
    (directoriesIn d p).Pairwise (· < ·) := by
  rw [directoriesIn]
  split
  · exact ascending_mergeSort ((Disk.nodup_filterMap_nameIn h.distinct).filter _)
  · exact List.Pairwise.nil

/-- Disks with the same directories list the same. -/
theorem directoriesIn_congr {d d' : Disk} (h : Orderly d) (h' : Orderly d') {p : Path}
    (hself : d.find? p = some .directory ↔ d'.find? p = some .directory)
    (hbelow : ∀ name, d.find? (p ++ [name]) = some .directory ↔ d'.find? (p ++ [name]) = some .directory) :
    directoriesIn d p = directoriesIn d' p := by
  have hascending := ascending_directoriesIn h p
  have hascending' := ascending_directoriesIn h' p
  have hnodup : ∀ {l : List String}, l.Pairwise (· < ·) → l.Nodup := by
    intro l hl
    refine hl.imp fun {a b} hlt => ?_
    rintro rfl
    exact String.lt_irrefl _ hlt
  have hperm : (directoriesIn d p).Perm (directoriesIn d' p) := by
    refine (List.perm_ext_iff_of_nodup (hnodup hascending) (hnodup hascending')).2 fun name => ?_
    rw [mem_directoriesIn, mem_directoriesIn, hself, hbelow]
  exact hperm.eq_of_pairwise (fun a b _ _ hab hba => absurd hba (String.lt_asymm hab)) hascending hascending'

/-! ### Streams -/

/-- The streams that have a directory, as they are listed. -/
def listed (d : Disk) : List StreamId :=
  (directoriesIn d Layout.streamsDirectory).flatMap fun entityType =>
    (directoriesIn d (Layout.streamsDirectory ++ [entityType])).map (StreamId.mk entityType)

theorem mem_listed_of_begun {d : Disk} {id : StreamId} (h : Begun d id) : id ∈ listed d := by
  have hall : ∀ n, d.find? ((entityPath "streams" id).take n) = some .directory := fun n =>
    h _ (List.take_prefix n _)
  refine List.mem_flatMap.2 ⟨id.entityType, mem_directoriesIn.2 ⟨hall 1, hall 2⟩, List.mem_map.2 ?_⟩
  exact ⟨id.entityId, mem_directoriesIn.2 ⟨hall 2, hall 3⟩, rfl⟩

theorem usable_of_mem {d : Disk} (h : Orderly d) {top name : String} {above : List String}
    (hname : name ∈ directoriesIn d (top :: above)) : Layout.isUsable name :=
  (h.folder (mem_directoriesIn.1 hname).2).2 name (by simp)

theorem ascending_listed {d : Disk} (h : Orderly d) :
    (listed d).Pairwise fun a b => listedBefore a b ∧ a ≠ b := by
  refine List.pairwise_flatMap.2 ⟨fun t _ => ?_, (ascending_directoriesIn h _).imp fun {t t'} hlt => ?_⟩
  · refine List.pairwise_map.2 ((ascending_directoriesIn h _).imp fun {i i'} hlt => ⟨?_, ?_⟩)
    · exact listedBefore_iff.2 (.inr ⟨rfl, String.lt_asymm hlt⟩)
    · intro he
      rw [(StreamId.mk.inj he).2] at hlt
      exact String.lt_irrefl _ hlt
  · intro a ha b hb
    obtain ⟨i, -, rfl⟩ := List.mem_map.1 ha
    obtain ⟨i', -, rfl⟩ := List.mem_map.1 hb
    refine ⟨listedBefore_iff.2 (.inl hlt), fun he => ?_⟩
    rw [(StreamId.mk.inj he).1] at hlt
    exact String.lt_irrefl _ hlt

theorem mapM_congr {f g : α → Except ε β} {l : List α} (h : ∀ a ∈ l, f a = g a) : l.mapM f = l.mapM g := by
  induction l with
  | nil => rfl
  | cons a l ih =>
    rw [List.mapM_cons, List.mapM_cons, h a (List.mem_cons_self ..),
      ih fun b hb => h b (List.mem_cons_of_mem _ hb)]

theorem mapM_ok {f : α → Except ε β} {g : α → β} {l : List α} (h : ∀ a ∈ l, f a = .ok (g a)) :
    l.mapM f = .ok (l.map g) := by
  induction l with
  | nil => rfl
  | cons a l ih =>
    rw [List.mapM_cons, h a (List.mem_cons_self ..), ih fun b hb => h b (List.mem_cons_of_mem _ hb)]
    rfl

theorem entityTypes_eq {d : Disk} (h : Orderly d) : Layout.entityTypes d = .ok (directoriesIn d Layout.streamsDirectory) :=
  subdirectories_eq h fun _ hq => Layout.folder_below (by decide) (by simp) (List.forall_mem_nil _) hq

theorem entityIds_eq {d : Disk} (h : Orderly d) {t : String} (ht : Layout.isUsable t) :
    Layout.entityIds d t = .ok (directoriesIn d (Layout.streamsDirectory ++ [t])) := by
  rw [Layout.entityIds, Layout.component_ok ht, Json.Decoder.ok_bind]
  exact subdirectories_eq h fun _ hq =>
    Layout.folder_below (by decide) (by simp) (List.forall_mem_singleton.2 ht) hq

/-- A query by tag goes from directory to directory. -/
theorem byTag_orderly {s : Durable} (h : Orderly s.disk) (tag : String) :
    s.byTag tag = (do
      let found ← (directoriesIn s.disk Layout.streamsDirectory).mapM fun entityType => do
        let found ← (directoriesIn s.disk (Layout.streamsDirectory ++ [entityType])).mapM fun entityId =>
          taggedIn s.disk tag ⟨entityType, entityId⟩
        return found.flatten
      return found.flatten) := by
  rw [byTag, entityTypes_eq h, Json.Decoder.ok_bind,
    mapM_congr fun t ht => by rw [entityIds_eq h (usable_of_mem h ht), Json.Decoder.ok_bind]]

namespace Keeps
variable {s : Durable} {streams : StreamId → List Record}

theorem taggedIn_eq (h : Keeps s streams) {id : StreamId} (hid : Usable id) (tag : String) :
    taggedIn s.disk tag id = .ok ((streams id).filter fun r => r.tags.contains tag) := by
  rw [taggedIn, Layout.eventsFile_ok hid, Json.Decoder.ok_bind, (h.file hid).readFile_eq, filter_zero]
  rfl

/-- **A query by tag finds the tagged records of every stream**, stream by stream. -/
theorem byTag_eq (h : Keeps s streams) (tag : String) :
    s.byTag tag = .ok ((listed s.disk).flatMap fun id =>
      (streams id).filter fun r => r.tags.contains tag) := by
  have hfound : ∀ t ∈ directoriesIn s.disk Layout.streamsDirectory,
      ((directoriesIn s.disk (Layout.streamsDirectory ++ [t])).mapM fun i => taggedIn s.disk tag ⟨t, i⟩) =
        .ok ((directoriesIn s.disk (Layout.streamsDirectory ++ [t])).map fun i =>
          (streams ⟨t, i⟩).filter fun r => r.tags.contains tag) := by
    intro t ht
    exact mapM_ok fun i hi => h.taggedIn_eq ⟨usable_of_mem h.orderly ht, usable_of_mem h.orderly hi⟩ tag
  rw [byTag_orderly h.orderly, mapM_ok fun t ht => by
    rw [hfound t ht, Json.Decoder.ok_bind, Json.Decoder.pure_ok]]
  simp only [Json.Decoder.ok_bind, Json.Decoder.pure_ok, listed, ← List.flatMap_def, List.flatMap_assoc,
    List.flatMap_map]

end Keeps

end CartLedger.Journal.Durable
