import CartLedger.Proofs.Storage.Layout

/-! Streams are begun without harm.

On an orderly disk `ensure` succeeds for every id that can be used: afterwards the stream
has its directory and the disk is orderly still, and of the files that were there before
only the registry may have changed (`Grown`). -/
namespace CartLedger.Storage
open CartLedger.Text (Lines.joined Lines.Plain Utf8.decode?)
open Layout

/-- Files are what they were unless they are among the `changed`, and directories stay. -/
structure Grown (changed : Path → Prop) (d d' : Disk) : Prop where
  file : ∀ {p}, Leaf p → ¬ changed p → d'.find? p = d.find? p
  directory : ∀ {p}, d.find? p = some .directory → d'.find? p = some .directory

namespace Grown
variable {changed changed' : Path → Prop} {d d' d'' : Disk}

theorem refl (d : Disk) : Grown changed d d := ⟨fun _ _ => rfl, fun h => h⟩

theorem trans (h : Grown changed d d') (h' : Grown changed d' d'') : Grown changed d d'' :=
  ⟨fun hp hne => (h'.file hp hne).trans (h.file hp hne), fun hp => h'.directory (h.directory hp)⟩

theorem mono (h : Grown changed d d') (himp : ∀ p, changed p → changed' p) : Grown changed' d d' :=
  ⟨fun hp hne => h.file hp fun hc => hne (himp _ hc), h.directory⟩

theorem withDirectories {ps : List Path} (hps : ∀ p ∈ ps, Folder p) :
    Grown changed d (d.withDirectories ps) where
  file {p} hp _ := by
    rw [Disk.find?_withDirectories, if_neg fun hmem => (hps p hmem).1 hp, Option.or_none]
  directory {p} hp := by
    rw [Disk.find?_withDirectories, hp]
    rfl

theorem put {p : Path} (h : Orderly d) (hp : Leaf p) (hchanged : changed p) (bytes : List UInt8) :
    Grown changed d (d.put p (.file bytes)) where
  file {q} _ hq := by
    rw [Disk.find?_put hp.ne_root, if_neg]
    rintro rfl
    exact hq hchanged
  directory {q} hq := by
    rw [Disk.find?_put hp.ne_root, if_neg, hq]
    rintro rfl
    exact (h.folder hq).1 hp

theorem erase {p : Path} (h : Orderly d) (hp : Leaf p) (hchanged : changed p) :
    Grown changed d (d.erase p) where
  file {q} _ hq := by
    rw [Disk.find?_erase hp.ne_root, if_neg]
    rintro rfl
    exact hq hchanged
  directory {q} hq := by
    rw [Disk.find?_erase hp.ne_root, if_neg, hq]
    rintro rfl
    exact (h.folder hq).1 hp

end Grown

/-! ### Directories -/

/-- A directory is made where only directories are above it, and no others are made. -/
theorem Orderly.makeDirectories {d : Disk} (h : Orderly d) {p : Path} (hp : ∀ q, q <+: p → Folder q)
    (changed : Path → Prop) :
    ∃ d', d.makeDirectories p = .ok d' ∧ Orderly d' ∧ Grown changed d d' ∧
      ∀ q, d'.find? q = some .directory ↔ d.find? q = some .directory ∨ q <+: p := by
  have hps : ∀ q ∈ Disk.stations p, Folder q := fun q hq => hp q (Disk.mem_stations.1 hq)
  refine ⟨_, Disk.makeDirectories_ok (h.clear hp), h.withDirectories hps, .withDirectories hps,
    fun q => ?_⟩
  rw [Disk.find?_withDirectories]
  simp only [Disk.mem_stations]
  cases hfind : d.find? q with
  | none => simp
  | some e =>
    cases e with
    | directory => simp
    | file bytes =>
      have hnot : ¬ q <+: p := fun hq => (hp q hq).1 (h.leaf hfind)
      simp [hnot]

namespace Registry

/-! ### Entries -/

theorem search_ok (id : StreamId) {ls : List (List UInt8)} (h : ∀ l ∈ ls, (Utf8.decode? l).isSome) :
    ∃ b, search id ls = .ok b := by
  induction ls with
  | nil => exact ⟨false, rfl⟩
  | cons l ls ih =>
    obtain ⟨cs, hcs⟩ := Option.isSome_iff_exists.1 (h l (List.mem_cons_self ..))
    obtain ⟨b, hb⟩ := ih fun l' hl' => h l' (List.mem_cons_of_mem _ hl')
    rw [search, hcs]
    dsimp only
    split
    · exact ⟨true, rfl⟩
    · exact ⟨b, hb⟩

theorem holds_ok {d : Disk} (h : Orderly d) (id : StreamId) : ∃ b, holds d id = .ok b := by
  rw [holds]
  obtain ⟨bytes, hfile, hread⟩ | ⟨-, hread⟩ := h.read_leaf leaf_registryFile
  · obtain ⟨ls, hls, rfl⟩ := h.registry hfile
    rw [hread]
    dsimp only
    rw [Text.Lines.all_joined fun l hl => (hls l hl).1]
    exact search_ok id fun l hl => (hls l hl).2
  · rw [hread]
    exact ⟨false, rfl⟩

/-- An entry is one line of text, whatever the time. -/
theorem entry_eq (id : StreamId) (seconds : Nat) :
    ∃ l, Lines.Plain l ∧ (Utf8.decode? l).isSome ∧ entry id seconds = Lines.joined [l] := by
  refine ⟨Text.Utf8.encode (Json.compact (.object [("id", .text id.entityId), ("ts", .natural seconds),
    ("type", .text id.entityType)])), Json.plain_compact _, ?_, ?_⟩
  · rw [Text.Utf8.decode?_encode]
    rfl
  · rw [entry, Text.Utf8.encode_append, Text.Utf8.encode_newline, Text.Lines.joined_cons]
    rfl

/-- An entry goes to the end of the registry. -/
theorem enter_ok {d : Disk} (h : Orderly d) (hmeta : d.find? metaDirectory = some .directory)
    (id : StreamId) (seconds : Nat) :
    ∃ bytes, d.append registryFile (entry id seconds) = .ok (d.put registryFile (.file bytes)) ∧
      Orderly (d.put registryFile (.file bytes)) := by
  obtain ⟨l, hplain, htext, hentry⟩ := entry_eq id seconds
  obtain ⟨bytes, hfile⟩ | hnone := h.file_or_none leaf_registryFile
  · obtain ⟨ls, hls, rfl⟩ := h.registry hfile
    refine ⟨_, Disk.append_file hfile _, h.put_leaf leaf_registryFile fun _ => ⟨ls ++ [l], ?_, ?_⟩⟩
    · intro l' hl'
      obtain hl' | hl' := List.mem_append.1 hl'
      · exact hls l' hl'
      · rw [List.mem_singleton.1 hl']
        exact ⟨hplain, htext⟩
    · rw [hentry, Text.Lines.joined_append]
  · refine ⟨_, Disk.append_missing hnone (h.clear_leaf leaf_registryFile hnone) hmeta _,
      h.put_leaf leaf_registryFile fun _ => ⟨[l], ?_, hentry⟩⟩
    intro l' hl'
    rw [List.mem_singleton.1 hl']
    exact ⟨hplain, htext⟩

/-! ### Beginning a stream -/

/-- The directories among streams are those that were there and the stream's own. -/
def Houses (d d' : Disk) (id : StreamId) : Prop :=
  ∀ p, p.head? = some "streams" →
    (d'.find? p = some .directory ↔ d.find? p = some .directory ∨ p <+: entityPath "streams" id)

theorem ensure_ok {d : Disk} (h : Orderly d) {id : StreamId} (hid : Usable id) (seconds : Nat) :
    ∃ d', ensure id seconds d = (.ok (entityPath "streams" id), d') ∧ Orderly d' ∧
      Grown (· = registryFile) d d' ∧ Houses d d' id ∧
      ∀ q, q <+: entityPath "streams" id → d'.find? q = some .directory := by
  have htop : "streams" ≠ "meta" := by decide
  obtain ⟨d₁, hmake₁, h₁, hgrown₁, hdir₁⟩ :=
    h.makeDirectories (fun q hq => folder_entityPath htop hid hq) (· = registryFile)
  obtain ⟨d₂, hmake₂, h₂, hgrown₂, hdir₂⟩ :=
    h₁.makeDirectories (fun q hq => folder_metaDirectory hq) (· = registryFile)
  obtain ⟨b, hholds⟩ := holds_ok h₂ id
  have hdirectory : Layout.streamDirectory id = .ok (entityPath "streams" id) :=
    entityDirectory_ok hid "streams"
  have hown : ∀ q, q <+: entityPath "streams" id → d₂.find? q = some .directory := fun q hq =>
    hgrown₂.directory ((hdir₁ q).2 (.inr hq))
  have hhouses : Houses d d₂ id := by
    intro p hp
    rw [hdir₂, hdir₁, or_iff_left]
    rintro ⟨rest, hrest⟩
    cases p with
    | nil => cases hp
    | cons top p =>
      rw [List.head?_cons, Option.some.injEq] at hp
      rw [hp] at hrest
      exact htop (List.cons.inj hrest).1
  cases b with
  | true =>
    refine ⟨d₂, ?_, h₂, hgrown₁.trans hgrown₂, hhouses, hown⟩
    simp only [ensure, hdirectory, hmake₁, hmake₂, hholds]
  | false =>
    have hmeta : d₂.find? metaDirectory = some .directory := (hdir₂ _).2 (.inr (List.prefix_refl _))
    obtain ⟨bytes, henter, h₃⟩ := enter_ok h₂ hmeta id seconds
    have hgrown₃ : Grown (· = registryFile) d₂ (d₂.put registryFile (.file bytes)) := by
      refine Grown.put h₂ leaf_registryFile ?_ bytes
      rfl
    refine ⟨_, ?_, h₃, (hgrown₁.trans hgrown₂).trans hgrown₃, fun p hp => ?_,
      fun q hq => hgrown₃.directory (hown q hq)⟩
    · simp only [ensure, hdirectory, hmake₁, hmake₂, hholds, henter]
    · rw [h₂.find?_put_directory leaf_registryFile, hhouses p hp]

end Registry

end CartLedger.Storage
