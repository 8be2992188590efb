import CartLedger.Proofs.Snapshot.Durable
import CartLedger.Proofs.Snapshot.Volatile

/-! What may happen to snapshots without anybody saving one.

Snapshots get lost, or come to hold what is no snapshot of a cart, and a save that was cut
short leaves a file under a temporary name. Whatever happens, no snapshot of a cart comes
of it (`Volatile.kept_strike`, `Durable.kept_strike`). -/
namespace CartLedger.Snapshot
open CartLedger.Json (Document)

/-! ### In memory -/

namespace Volatile

inductive Damage where
  | delete (id : StreamId) (n : Nat)
  | replace (id : StreamId) (n : Nat) (content : Json)

/-- What replaces a snapshot is no cart. -/
def Damage.Illegible : Damage → Prop
  | .delete .. => True
  | .replace _ _ content => ∃ e, Json.decode Cart.decoder content = .error e

def strike (s : Volatile) : Damage → Volatile
  | .delete id n => ⟨Entries.set id ((s.of id).erase n) s.kept⟩
  | .replace id n content => ⟨Entries.set id ((s.of id).insert n content) s.kept⟩

variable {s : Volatile} {id : StreamId}

theorem of_set (s : Volatile) (id id' : StreamId) (states : OrderedMap Nat Json) :
    (⟨Entries.set id states s.kept⟩ : Volatile).of id' = if id = id' then states else s.of id' := by
  rw [of, Entries.find?_set]
  split <;> rfl

theorem kept_strike {damage : Damage} (h : damage.Illegible) {snapshot : Snapshot Cart}
    (hkept : (s.strike damage).Kept id snapshot) : s.Kept id snapshot := by
  obtain ⟨v, hfind, hdecode⟩ := hkept
  cases damage with
  | delete id' n =>
    rw [strike, of_set] at hfind
    split at hfind
    · next hid =>
      rw [OrderedMap.get?_erase] at hfind
      split at hfind
      · cases hfind
      · exact ⟨v, hid ▸ hfind, hdecode⟩
    · exact ⟨v, hfind, hdecode⟩
  | replace id' n content =>
    rw [strike, of_set] at hfind
    split at hfind
    · next hid =>
      rw [OrderedMap.get?_insert] at hfind
      split at hfind
      · obtain rfl := Option.some.inj hfind
        obtain ⟨e, he⟩ := h
        rw [he] at hdecode
        cases hdecode
      · exact ⟨v, hid ▸ hfind, hdecode⟩
    · exact ⟨v, hfind, hdecode⟩

theorem kept_foldl_strike {damages : List Damage} (h : ∀ damage ∈ damages, damage.Illegible)
    {snapshot : Snapshot Cart} (hkept : (damages.foldl strike s).Kept id snapshot) : s.Kept id snapshot := by
  induction damages generalizing s with
  | nil => exact hkept
  | cons damage rest ih =>
    obtain ⟨hdamage, hrest⟩ := List.forall_mem_cons.1 h
    exact kept_strike hdamage (ih hrest hkept)

end Volatile

/-! ### On disk -/

namespace Durable
open CartLedger.Storage
open CartLedger.Storage.Layout (Usable Leaf InSnapshots entityPath leaf_inEntity)

inductive Damage where
  | delete (id : StreamId) (n : Nat)
  | replace (id : StreamId) (n : Nat) (content : List UInt8)
  /-- A file is left behind that was to become the snapshot of some number. -/
  | leave (id : StreamId) (number : String) (content : List UInt8)

/-- What replaces a file is no snapshot of a cart. What is left behind may be anything. -/
def Damage.Illegible : Damage → Prop
  | .replace _ _ content =>
    ∃ e, (Document.ofBytes content).decode (Snapshot.decoder Cart.decoder) = .error e
  | _ => True

def leftoverName (number : String) : String := "snapshot-" ++ number ++ ".json" ++ ".tmp"

/-- Changes a directory of snapshots if there can be one, as far as the disk lets it. -/
def inDirectory (id : StreamId) (change : Path → Disk → Except Trouble Disk) (d : Disk) : Disk :=
  match Layout.snapshotDirectory id with
  | .error _ => d
  | .ok directory =>
    match change directory d with
    | .error _ => d
    | .ok d => d

def strike (d : Disk) : Damage → Disk
  | .delete id n => inDirectory id (fun directory d => d.remove (directory ++ [fileName n])) d
  | .replace id n content => inDirectory id (fun directory d => d.write (directory ++ [fileName n]) content) d
  | .leave id number content => inDirectory id (fun directory d => do
      let d ← d.makeDirectories directory
      d.write (directory ++ [leftoverName number]) content) d

/-! What may happen is harmless: the disk stays in order, and no stream has another
snapshot. -/

structure Harmless (d d' : Disk) : Prop where
  orderly : Orderly d'
  grown : Grown InSnapshots d d'
  kept : ∀ {id snapshot}, Kept d' id snapshot → Kept d id snapshot

variable {d d' d'' : Disk} {id : StreamId}

theorem Harmless.refl (h : Orderly d) : Harmless d d := ⟨h, .refl d, fun hk => hk⟩

theorem Harmless.trans (h : Harmless d d') (h' : Harmless d' d'') : Harmless d d'' :=
  ⟨h'.orderly, h.grown.trans h'.grown, fun hk => h.kept (h'.kept hk)⟩

/-- A file that changes, and that holds no snapshot under a snapshot's name. -/
theorem harmless_put (h : Orderly d) {p : Path} (hp : Leaf p) (hin : InSnapshots p) {content : List UInt8}
    (hillegible : ∀ id n, p = path id n →
      ∃ e, (Document.ofBytes content).decode (Snapshot.decoder Cart.decoder) = .error e) :
    Harmless d (d.put p (.file content)) where
  orderly := h.put_leaf hp fun he => absurd (he ▸ hin) Layout.not_inSnapshots_registryFile
  grown := .put h hp hin content
  kept {id snapshot} hk := by
    obtain ⟨n, bytes, hfile, hdecode⟩ := hk
    rw [Disk.find?_put hp.ne_root] at hfile
    split at hfile
    · next hpath =>
      obtain ⟨e, he⟩ := hillegible id n hpath
      injection hfile with hfile
      injection hfile with hfile
      rw [← hfile, he] at hdecode
      cases hdecode
    · exact ⟨n, bytes, hfile, hdecode⟩

theorem harmless_erase (h : Orderly d) {p : Path} (hp : Leaf p) (hin : InSnapshots p) :
    Harmless d (d.erase p) where
  orderly := h.erase hp.ne_root
  grown := .erase h hp hin
  kept {id snapshot} hk := by
    obtain ⟨n, bytes, hfile, hdecode⟩ := hk
    rw [Disk.find?_erase hp.ne_root] at hfile
    split at hfile
    · cases hfile
    · exact ⟨n, bytes, hfile, hdecode⟩

theorem harmless_inDirectory (h : Orderly d) {change : Path → Disk → Except Trouble Disk}
    (hchange : Usable id → ∀ d', change (entityPath "snapshots" id) d = .ok d' → Harmless d d') :
    Harmless d (inDirectory id change d) := by
  rw [inDirectory]
  by_cases hid : Usable id
  · rw [Layout.snapshotDirectory, Layout.entityDirectory_ok hid]
    dsimp only
    split
    · exact .refl h
    · next d' hd' => exact hchange hid d' hd'
  · rw [Layout.snapshotDirectory, Layout.entityDirectory_refused hid]
    exact .refl h

theorem harmless_strike (h : Orderly d) {damage : Damage} (hdamage : damage.Illegible) :
    Harmless d (strike d damage) := by
  cases damage with
  | delete id n =>
    unfold strike
    refine harmless_inDirectory h fun _ d' hd' => ?_
    obtain rfl := Disk.remove_ok hd'
    exact harmless_erase h (leaf_path id n) rfl
  | replace id n content =>
    unfold strike
    refine harmless_inDirectory h fun _ d' hd' => ?_
    obtain rfl := Disk.write_ok hd'
    exact harmless_put h (leaf_path id n) rfl fun _ _ _ => hdamage
  | leave id number content =>
    unfold strike
    refine harmless_inDirectory h fun hid d' hd' => ?_
    have htop : "snapshots" ≠ "meta" := by decide
    obtain ⟨d₁, hmake, h₁, hgrown, -⟩ :=
      h.makeDirectories (fun q hq => Layout.folder_entityPath htop hid hq) (fun _ => False)
    rw [hmake] at hd'
    obtain rfl := Disk.write_ok hd'
    have hmade : Harmless d d₁ := by
      refine ⟨h₁, hgrown.mono fun _ => False.elim, fun {id' snapshot} hk => ?_⟩
      obtain ⟨n, bytes, hfile, hdecode⟩ := hk
      rw [hgrown.file (leaf_path id' n) not_false] at hfile
      exact ⟨n, bytes, hfile, hdecode⟩
    have hleaf : Leaf (entityPath "snapshots" id ++ [leftoverName number]) := leaf_inEntity htop id _
    refine hmade.trans (harmless_put h₁ hleaf rfl fun id' n he => ?_)
    exact absurd (List.cons.inj (List.append_inj' he rfl).2).1.symm (fileName_ne_temporary n _)

/-- **Whatever happens to snapshots is harmless.** -/
theorem harmless_foldl_strike (h : Orderly d) {damages : List Damage}
    (hdamages : ∀ damage ∈ damages, damage.Illegible) : Harmless d (damages.foldl strike d) := by
  induction damages generalizing d with
  | nil => exact .refl h
  | cons damage rest ih =>
    obtain ⟨hdamage, hrest⟩ := List.forall_mem_cons.1 hdamages
    have hfirst := harmless_strike h hdamage
    exact hfirst.trans (ih hfirst.orderly hrest)

end Durable

end CartLedger.Snapshot
