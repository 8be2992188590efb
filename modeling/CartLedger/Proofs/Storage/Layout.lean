import CartLedger.Proofs.Json.Printing
import CartLedger.Proofs.Storage.Disk
import CartLedger.Storage.Registry

/-! The order that carts keep on disk.

A disk that only journals and snapshots write to is `Orderly`: files lie in the directories
of entities, apart from the registry, and nothing lies below a file; directories carry
names that can be used; the registry is made of lines of text. On such a disk nothing is
ever in the way, so a file can be read, written and removed if it is there, and made if
its directory is. -/
namespace CartLedger.Storage
open CartLedger.Text (Lines.joined Lines.Plain Utf8.decode?)

namespace Layout

/-! ### Paths -/

/-- Ids under which an entity has directories. -/
def Usable (id : StreamId) : Prop := isUsable id.entityType ∧ isUsable id.entityId

instance (id : StreamId) : Decidable (Usable id) := inferInstanceAs (Decidable (_ ∧ _))

def entityPath (top : String) (id : StreamId) : Path := [top, id.entityType, id.entityId]

def eventsPath (id : StreamId) : Path := entityPath "streams" id ++ ["events.jsonl"]

theorem component_ok {name : String} (h : isUsable name) : component name = .ok name := if_pos h

theorem entityDirectory_ok {id : StreamId} (h : Usable id) (top : String) :
    entityDirectory top id = .ok (entityPath top id) := by
  rw [entityDirectory, component_ok h.1, component_ok h.2]
  rfl

/-- Why an id without directories is refused: of its two names the first that cannot be used. -/
def refusal (id : StreamId) : StorageError :=
  .unusableName (if isUsable id.entityType then id.entityId else id.entityType)

theorem entityDirectory_refused {id : StreamId} (h : ¬ Usable id) (top : String) :
    entityDirectory top id = .error (refusal id) := by
  by_cases htype : isUsable id.entityType
  · have hid : ¬ isUsable id.entityId := fun hid => h ⟨htype, hid⟩
    rw [entityDirectory, component_ok htype, component, if_neg hid, refusal, if_pos htype]
    rfl
  · rw [entityDirectory, component, if_neg htype, refusal, if_neg htype]
    rfl

theorem eventsFile_ok {id : StreamId} (h : Usable id) : eventsFile id = .ok (eventsPath id) := by
  rw [eventsFile, streamDirectory, entityDirectory_ok h]
  rfl

theorem eventsFile_refused {id : StreamId} (h : ¬ Usable id) : eventsFile id = .error (refusal id) := by
  rw [eventsFile, streamDirectory, entityDirectory_refused h]
  rfl

theorem entityPath_inj {top : String} {a b : StreamId} (h : entityPath top a = entityPath top b) : a = b := by
  cases a
  cases b
  simpa [entityPath] using h

theorem eventsPath_inj {a b : StreamId} (h : eventsPath a = eventsPath b) : a = b :=
  entityPath_inj (List.append_cancel_right h)

/-- Where files are: the registry, and whatever is in the directory of an entity. -/
def Leaf (p : Path) : Prop := p = registryFile ∨ (p.length = 4 ∧ p.head? ≠ some "meta")

theorem Leaf.ne_root {p : Path} (h : Leaf p) : p ≠ [] := by
  rintro rfl
  obtain h | ⟨h, -⟩ := h
  · cases h
  · cases h

theorem leaf_registryFile : Leaf registryFile := .inl rfl

theorem leaf_inEntity {top : String} (htop : top ≠ "meta") (id : StreamId) (name : String) :
    Leaf (entityPath top id ++ [name]) := .inr ⟨rfl, by simpa [entityPath] using htop⟩

theorem leaf_eventsPath (id : StreamId) : Leaf (eventsPath id) := leaf_inEntity (by decide) id _

theorem eventsPath_ne_registryFile (id : StreamId) : eventsPath id ≠ registryFile := by
  simp [eventsPath, entityPath, registryFile, metaDirectory]

/-- Whether a path leads to snapshots. -/
def InSnapshots (p : Path) : Prop := p.head? = some "snapshots"

theorem not_inSnapshots_registryFile : ¬ InSnapshots registryFile := by
  simp [InSnapshots, registryFile, metaDirectory]

theorem not_inSnapshots_eventsPath (id : StreamId) : ¬ InSnapshots (eventsPath id) := by
  simp [InSnapshots, eventsPath, entityPath]

/-- No file lies above a file. -/
theorem Leaf.above {p q : Path} (h : Leaf p) (hq : q <+: p) (hne : q ≠ p) : ¬ Leaf q := by
  have hlength : q.length < p.length :=
    Nat.lt_of_le_of_ne hq.length_le fun he => hne (hq.eq_of_length he)
  obtain rfl | ⟨hfour, hhead⟩ := h
  · rintro (rfl | ⟨hfour, -⟩)
    · exact hne rfl
    · have : registryFile.length = 2 := rfl
      omega
  · rintro (rfl | ⟨hfour', -⟩)
    · obtain ⟨rest, rfl⟩ := hq
      exact hhead rfl
    · omega

/-- Where directories may be. -/
def Folder (p : Path) : Prop := ¬ Leaf p ∧ ∀ name ∈ p.tail, isUsable name

theorem folder_root : Folder [] := ⟨fun h => h.ne_root rfl, fun _ h => by cases h⟩

theorem mem_tail_of_above {p q : Path} (h : q <+: p) {name : String} (hname : name ∈ q.tail) :
    name ∈ p.tail := by
  obtain ⟨rest, rfl⟩ := h
  cases q with
  | nil => cases hname
  | cons top q => exact List.mem_append_left _ hname

/-- The directories above an entity's, and its own. -/
theorem folder_below {top : String} (htop : top ≠ "meta") {names : List String} (hlength : names.length ≤ 2)
    (husable : ∀ name ∈ names, isUsable name) {q : Path} (hq : q <+: top :: names) : Folder q := by
  constructor
  · rintro (rfl | ⟨hfour, -⟩)
    · obtain ⟨rest, hrest⟩ := hq
      exact htop (List.cons.inj hrest).1.symm
    · have hle := hq.length_le
      rw [List.length_cons] at hle
      omega
  · intro name hname
    exact husable name (mem_tail_of_above hq hname)

theorem folder_entityPath {top : String} (htop : top ≠ "meta") {id : StreamId} (h : Usable id) {q : Path}
    (hq : q <+: entityPath top id) : Folder q := by
  have husable : ∀ name ∈ [id.entityType, id.entityId], isUsable name := by
    simpa [Usable] using h
  have hlength : [id.entityType, id.entityId].length ≤ 2 := Nat.le_refl 2
  exact folder_below htop hlength husable hq

theorem folder_metaDirectory {q : Path} (hq : q <+: metaDirectory) : Folder q := by
  constructor
  · rintro (rfl | ⟨hfour, -⟩)
    · exact absurd hq.length_le (by decide)
    · have hlength := hq.length_le
      have : metaDirectory.length = 1 := rfl
      omega
  · intro name hname
    exact absurd (mem_tail_of_above hq hname) List.not_mem_nil

end Layout

/-! ### Order -/

open Layout

structure Orderly (d : Disk) : Prop where
  distinct : d.Distinct
  leaf : ∀ {p bytes}, d.find? p = some (.file bytes) → Leaf p
  folder : ∀ {p}, d.find? p = some .directory → Folder p
  registry : ∀ {bytes}, d.find? registryFile = some (.file bytes) →
    ∃ ls, (∀ l ∈ ls, Lines.Plain l ∧ (Utf8.decode? l).isSome) ∧ bytes = Lines.joined ls

theorem orderly_empty : Orderly .empty where
  distinct := Disk.distinct_empty
  leaf {p bytes} h := by
    by_cases hp : p = []
    · rw [hp, Disk.find?_root] at h
      cases h
    · rw [Disk.find?_empty hp] at h
      cases h
  folder {p} h := by
    by_cases hp : p = []
    · rw [hp]
      exact folder_root
    · rw [Disk.find?_empty hp] at h
      cases h
  registry h := by cases h

namespace Orderly
variable {d : Disk} {p : Path}

/-- A file is put where files are; what it holds matters only if it is the registry. -/
theorem put_leaf (h : Orderly d) (hp : Leaf p) {bytes : List UInt8}
    (hregistry : p = registryFile →
      ∃ ls, (∀ l ∈ ls, Lines.Plain l ∧ (Utf8.decode? l).isSome) ∧ bytes = Lines.joined ls) :
    Orderly (d.put p (.file bytes)) where
  distinct := h.distinct.put p _
  leaf {q bytes'} hq := by
    rw [Disk.find?_put hp.ne_root] at hq
    split at hq
    · next hpq => exact hpq ▸ hp
    · exact h.leaf hq
  folder {q} hq := by
    rw [Disk.find?_put hp.ne_root] at hq
    split at hq
    · cases hq
    · exact h.folder hq
  registry {bytes'} hq := by
    rw [Disk.find?_put hp.ne_root] at hq
    split at hq
    · next hpq =>
      obtain ⟨ls, hls, hbytes⟩ := hregistry hpq
      injection hq with hq
      injection hq with hq
      exact ⟨ls, hls, hq ▸ hbytes⟩
    · exact h.registry hq

/-- Putting a file somewhere makes and removes no directory. -/
theorem find?_put_directory (h : Orderly d) (hp : Leaf p) (bytes : List UInt8) (q : Path) :
    (d.put p (.file bytes)).find? q = some .directory ↔ d.find? q = some .directory := by
  rw [Disk.find?_put hp.ne_root]
  split
  · next heq =>
    subst heq
    exact ⟨fun hq => (by cases hq), fun hq => absurd hp (h.folder hq).1⟩
  · rfl

theorem erase (h : Orderly d) (hp : p ≠ []) : Orderly (d.erase p) where
  distinct := h.distinct.erase p
  leaf hq := by
    rw [Disk.find?_erase hp] at hq
    split at hq
    · cases hq
    · exact h.leaf hq
  folder hq := by
    rw [Disk.find?_erase hp] at hq
    split at hq
    · cases hq
    · exact h.folder hq
  registry hq := by
    rw [Disk.find?_erase hp] at hq
    split at hq
    · cases hq
    · exact h.registry hq

theorem withDirectories (h : Orderly d) {ps : List Path} (hps : ∀ p ∈ ps, Folder p) :
    Orderly (d.withDirectories ps) where
  distinct := h.distinct.withDirectories ps
  leaf {q bytes} hq := by
    rw [Disk.find?_withDirectories] at hq
    cases hfind : d.find? q with
    | some e => rw [hfind] at hq; exact h.leaf (hfind.trans hq)
    | none =>
      rw [hfind, Option.none_or] at hq
      split at hq <;> cases hq
  folder {q} hq := by
    rw [Disk.find?_withDirectories] at hq
    cases hfind : d.find? q with
    | some e => rw [hfind] at hq; exact h.folder (hfind.trans hq)
    | none =>
      rw [hfind, Option.none_or] at hq
      split at hq
      · next hmem => exact hps q hmem
      · cases hq
  registry {bytes} hq := by
    rw [Disk.find?_withDirectories] at hq
    cases hfind : d.find? registryFile with
    | some e => rw [hfind] at hq; exact h.registry (hfind.trans hq)
    | none =>
      rw [hfind, Option.none_or] at hq
      split at hq <;> cases hq

/-! ### Nothing is in the way -/

theorem clear (h : Orderly d) (hp : ∀ q, q <+: p → Folder q) : d.throughFile p = false :=
  Disk.throughFile_eq_false fun q hq _ hfile => (hp q hq).1 (h.leaf hfile)

theorem clear_leaf (h : Orderly d) (hp : Leaf p) (hnone : d.find? p = none) : d.throughFile p = false := by
  refine Disk.throughFile_eq_false fun q hq bytes hfile => ?_
  by_cases hne : q = p
  · rw [hne, hnone] at hfile
    cases hfile
  · exact hp.above hq hne (h.leaf hfile)

/-- What is at a leaf is a file. -/
theorem file_or_none (h : Orderly d) (hp : Leaf p) :
    (∃ bytes, d.find? p = some (.file bytes)) ∨ d.find? p = none := by
  cases hfind : d.find? p with
  | none => exact .inr rfl
  | some e =>
    cases e with
    | file bytes => exact .inl ⟨bytes, rfl⟩
    | directory => exact absurd hp (h.folder hfind).1

theorem read_missing (h : Orderly d) (hp : Leaf p) (hnone : d.find? p = none) :
    d.read p = .error .missing := Disk.read_missing hnone (h.clear_leaf hp hnone)

/-- A file can be read or is missing. -/
theorem read_leaf (h : Orderly d) (hp : Leaf p) :
    (∃ bytes, d.find? p = some (.file bytes) ∧ d.read p = .ok bytes) ∨
      (d.find? p = none ∧ d.read p = .error .missing) := by
  obtain ⟨bytes, hfile⟩ | hnone := h.file_or_none hp
  · exact .inl ⟨bytes, hfile, Disk.read_file hfile⟩
  · exact .inr ⟨hnone, h.read_missing hp hnone⟩

/-- A file can be written wherever its directory is. -/
theorem write_leaf (h : Orderly d) (hp : Leaf p) (habove : d.find? p.dropLast = some .directory)
    (bytes : List UInt8) : d.write p bytes = .ok (d.put p (.file bytes)) := by
  obtain ⟨old, hfile⟩ | hnone := h.file_or_none hp
  · exact Disk.write_file hfile bytes
  · exact Disk.write_missing hnone (h.clear_leaf hp hnone) habove bytes

theorem rename_leaf (h : Orderly d) {bytes : List UInt8} {q : Path} (hp : d.find? p = some (.file bytes))
    (hq : Leaf q) (habove : d.find? q.dropLast = some .directory) :
    d.rename p q = .ok ((d.put q (.file bytes)).erase p) := by
  rw [Disk.rename, Disk.read_file hp]
  dsimp only
  rw [h.write_leaf hq habove]
  rfl

end Orderly

end CartLedger.Storage
