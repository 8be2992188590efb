import CartLedger.Proofs.Snapshot.Codec
import CartLedger.Proofs.Snapshot.Names
import CartLedger.Proofs.Storage.Refusal
import CartLedger.Proofs.Storage.Registry

/-! Snapshots of carts on disk.

What may be loaded for a stream is what a file of its own name holds (`Kept`); files with
temporary names are never read. A save that goes through writes one such file, and then
removes some (`save_ok`), so it keeps the snapshot that is saved and no other that was
not kept before (`kept_save`). -/
namespace CartLedger.Snapshot.Durable
open CartLedger.Json (Document)
open CartLedger.Storage
open CartLedger.Storage.Layout (Usable Leaf InSnapshots entityPath leaf_inEntity)

variable {d : Disk} {id : StreamId} {n : Nat}

/-! ### Paths -/

def path (id : StreamId) (n : Nat) : Path := entityPath "snapshots" id ++ [fileName n]

def temporaryPath (id : StreamId) (n : Nat) : Path := entityPath "snapshots" id ++ [temporaryName n]

theorem leaf_path (id : StreamId) (n : Nat) : Leaf (path id n) := leaf_inEntity (by decide) id _

theorem leaf_temporaryPath (id : StreamId) (n : Nat) : Leaf (temporaryPath id n) :=
  leaf_inEntity (by decide) id _

theorem path_ne_registryFile (id : StreamId) (n : Nat) : path id n ≠ Layout.registryFile := by
  simp [path, entityPath, Layout.registryFile, Layout.metaDirectory]

theorem temporaryPath_ne_registryFile (id : StreamId) (n : Nat) : temporaryPath id n ≠ Layout.registryFile := by
  simp [temporaryPath, entityPath, Layout.registryFile, Layout.metaDirectory]

theorem path_ne_temporaryPath (id : StreamId) (m n : Nat) : path id m ≠ temporaryPath id n := fun he =>
  fileName_ne_temporary m (fileName n) (List.cons.inj (List.append_inj' he rfl).2).1

theorem id_of_path_eq {id' : StreamId} {n' : Nat} (h : path id n = path id' n') : id = id' :=
  Layout.entityPath_inj (List.append_inj' h rfl).1

/-! ### Reading -/

/-- A file under the stream's directory has the snapshot. -/
def Kept (d : Disk) (id : StreamId) (snapshot : Snapshot Cart) : Prop :=
  ∃ n bytes, d.find? (path id n) = some (.file bytes) ∧
    (Document.ofBytes bytes).decode (Snapshot.decoder Cart.decoder) = .ok snapshot

theorem kept_of_firstLegible {numbers : List Nat} {snapshot : Snapshot Cart}
    (h : firstLegible d (entityPath "snapshots" id) Cart.decoder numbers = .ok (some snapshot)) :
    Kept d id snapshot := by
  induction numbers with
  | nil => cases h
  | cons n rest ih =>
    rw [firstLegible] at h
    split at h
    · exact ih h
    · cases h
    · next bytes hread =>
      split at h
      · next hdecode =>
        exact ⟨n, bytes, Disk.find?_of_read hread,
          hdecode.trans (congrArg Except.ok (Option.some.inj (Except.ok.inj h)))⟩
      · exact ih h

theorem kept_of_load {snapshot : Snapshot Cart} (h : load d id Cart.decoder = .ok (some snapshot)) :
    Kept d id snapshot := by
  by_cases hid : Usable id
  · rw [load, Layout.snapshotDirectory, Layout.entityDirectory_ok hid, Json.Decoder.ok_bind] at h
    cases hlist : list d (entityPath "snapshots" id) with
    | error e => rw [hlist] at h; cases h
    | ok numbers => rw [hlist] at h; exact kept_of_firstLegible h
  · rw [load_unusable hid] at h
    cases h

/-! ### Writing -/

/-- On an orderly disk a snapshot's file is put in place, and nothing else stays changed but
for directories and a file under the temporary name. -/
theorem place_ok (h : Orderly d) (hid : Usable id) (n : Nat) (bytes : List UInt8) :
    ∃ d', place (entityPath "snapshots" id) n bytes d = (.ok (), d') ∧ Orderly d' ∧
      Grown InSnapshots d d' ∧ d'.find? (entityPath "snapshots" id) = some .directory ∧
      ∀ q, Leaf q → d'.find? q =
        if q = temporaryPath id n then none
        else if q = path id n then some (.file bytes) else d.find? q := by
  have htop : "snapshots" ≠ "meta" := by decide
  obtain ⟨d₁, hmake, h₁, hgrown₁, hdir⟩ :=
    h.makeDirectories (fun q hq => Layout.folder_entityPath htop hid hq) (fun _ => False)
  have hdir₁ : d₁.find? (entityPath "snapshots" id) = some .directory := (hdir _).2 (.inr (List.prefix_refl _))
  have htemporary := leaf_temporaryPath id n
  have hleaf := leaf_path id n
  have h₂ : Orderly (d₁.put (temporaryPath id n) (.file bytes)) :=
    h₁.put_leaf htemporary fun he => absurd he (temporaryPath_ne_registryFile id n)
  have hgrown₂ : Grown InSnapshots d₁ (d₁.put (temporaryPath id n) (.file bytes)) := by
    refine .put h₁ htemporary ?_ _
    rfl
  have hdir₂ := hgrown₂.directory hdir₁
  have hfile₂ : (d₁.put (temporaryPath id n) (.file bytes)).find? (temporaryPath id n) = some (.file bytes) :=
    (Disk.find?_put htemporary.ne_root _ _).trans (if_pos rfl)
  have h₃ : Orderly ((d₁.put (temporaryPath id n) (.file bytes)).put (path id n) (.file bytes)) :=
    h₂.put_leaf hleaf fun he => absurd he (path_ne_registryFile id n)
  have hgrown₃ : Grown InSnapshots (d₁.put (temporaryPath id n) (.file bytes)) _ :=
    .put h₂ hleaf (show InSnapshots (path id n) from rfl) bytes
  have hgrown₄ := Grown.erase h₃ htemporary (show InSnapshots (temporaryPath id n) from rfl)
  refine ⟨_, ?_, h₃.erase htemporary.ne_root,
    (((hgrown₁.mono fun _ => False.elim).trans hgrown₂).trans hgrown₃).trans hgrown₄,
    hgrown₄.directory (hgrown₃.directory hdir₂), ?_⟩
  · have hwrite := h₁.write_leaf htemporary (by rwa [temporaryPath, List.dropLast_concat]) bytes
    have hrename := h₂.rename_leaf hfile₂ hleaf (by rwa [path, List.dropLast_concat])
    simp only [path, temporaryPath] at hwrite hrename ⊢
    simp only [place, hmake, hwrite, hrename]
  · intro q hq
    rw [Disk.find?_erase htemporary.ne_root, Disk.find?_put hleaf.ne_root,
      Disk.find?_put htemporary.ne_root, hgrown₁.file hq not_false]
    by_cases htemp : q = temporaryPath id n
    · rw [if_pos htemp, if_pos htemp.symm]
    · by_cases hpath : q = path id n
      · rw [if_neg htemp, if_pos hpath, if_neg (Ne.symm htemp), if_pos hpath.symm]
      · rw [if_neg htemp, if_neg hpath, if_neg (Ne.symm htemp), if_neg (Ne.symm hpath),
          if_neg (Ne.symm htemp)]

/-- Pruning removes files of snapshots, if it gets to them. -/
theorem prune_shrinks (h : Orderly d) (id : StreamId) (upto : Nat) (numbers : List Nat) :
    Orderly (prune (entityPath "snapshots" id) upto numbers d).2 ∧
      Grown InSnapshots d (prune (entityPath "snapshots" id) upto numbers d).2 ∧
      ∀ {q e}, (prune (entityPath "snapshots" id) upto numbers d).2.find? q = some e → d.find? q = some e := by
  induction numbers generalizing d with
  | nil => exact ⟨h, .refl d, fun he => he⟩
  | cons n rest ih =>
    rw [prune]
    split
    · split
      · exact ⟨h, .refl d, fun he => he⟩
      · next d' hremove =>
        have hleaf := leaf_path id n
        obtain rfl : d' = d.erase (path id n) := Disk.remove_ok hremove
        have hgrown := Grown.erase h hleaf (show InSnapshots (path id n) from rfl)
        obtain ⟨horderly, hgrown', hfind⟩ := ih (h.erase hleaf.ne_root)
        refine ⟨horderly, hgrown.trans hgrown', fun he => ?_⟩
        have he' := hfind he
        rw [Disk.find?_erase hleaf.ne_root] at he'
        split at he'
        · cases he'
        · exact he'
    · exact ih h

/-- What a save leaves: an orderly disk, whose files are those of before, apart from the one
that was written and from what was removed. -/
theorem save_ok (h : Orderly d) (id : StreamId) (snapshot : Snapshot Json) (retention : Retention) :
    Orderly (save d id snapshot retention).2 ∧ Grown InSnapshots d (save d id snapshot retention).2 ∧
      ∀ {q bytes}, (save d id snapshot retention).2.find? q = some (.file bytes) →
        (q = path id snapshot.sequenceNr ∧ bytes = bytesOf snapshot) ∨ d.find? q = some (.file bytes) := by
  by_cases hid : Usable id
  · obtain ⟨d₁, hplace, h₁, hgrown₁, -, hfind₁⟩ := place_ok h hid snapshot.sequenceNr (bytesOf snapshot)
    -- Pruning or not, nothing comes back.
    suffices hprune : ∀ d₂, Orderly d₂ → Grown InSnapshots d₁ d₂ →
        (∀ {q e}, d₂.find? q = some e → d₁.find? q = some e) →
        Orderly d₂ ∧ Grown InSnapshots d d₂ ∧ ∀ {q bytes}, d₂.find? q = some (.file bytes) →
          (q = path id snapshot.sequenceNr ∧ bytes = bytesOf snapshot) ∨ d.find? q = some (.file bytes) by
      rw [save, Layout.snapshotDirectory, Layout.entityDirectory_ok hid]
      dsimp only
      rw [hplace]
      dsimp only
      split
      · exact hprune d₁ h₁ (.refl d₁) fun he => he
      · next numbers _ =>
        obtain ⟨h₂, hgrown₂, hfind₂⟩ :=
          prune_shrinks h₁ id (retention.deleteUpto snapshot.sequenceNr) numbers
        exact hprune _ h₂ hgrown₂ hfind₂
    intro d₂ h₂ hgrown₂ hfind₂
    refine ⟨h₂, hgrown₁.trans hgrown₂, fun {q bytes} hfile => ?_⟩
    have hfile₁ := hfind₂ hfile
    rw [hfind₁ q (h₁.leaf hfile₁)] at hfile₁
    split at hfile₁
    · cases hfile₁
    · split at hfile₁
      · next hpath =>
        injection hfile₁ with hfile₁
        injection hfile₁ with hfile₁
        exact .inl ⟨hpath, hfile₁.symm⟩
      · exact .inr hfile₁
  · rw [save_unusable hid]
    exact ⟨h, .refl d, .inr⟩

/-- **A save keeps no more than it saves.** -/
theorem kept_save (h : Orderly d) {id' : StreamId} {c : Cart} (hn : n < UInt64.size) {retention : Retention}
    {snapshot : Snapshot Cart} (hkept : Kept (save d id (ofCart c n) retention).2 id' snapshot) :
    Kept d id' snapshot ∨ (id' = id ∧ snapshot = ⟨c, n⟩) := by
  obtain ⟨m, bytes, hfile, hdecode⟩ := hkept
  obtain ⟨-, -, hfind⟩ := save_ok h id (ofCart c n) retention
  obtain ⟨hpath, rfl⟩ | hold := hfind hfile
  · rw [bytesOf, decode_pretty c hn] at hdecode
    exact .inr ⟨id_of_path_eq hpath, (Except.ok.inj hdecode).symm⟩
  · exact .inl ⟨m, bytes, hold, hdecode⟩

end CartLedger.Snapshot.Durable
