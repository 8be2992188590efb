import CartLedger.Proofs.Entity.World

/-! Worlds in which nothing happened yet, over both storages. -/
namespace CartLedger.Entity
open CartLedger.Storage (Backend View Memory Files memory files memoryView filesView)

/-- Nothing was started yet. There may be stores, each with settings and a journal. -/
structure World.Fresh {σ : Type} (w : World σ) : Prop where
  instances : w.instances = []
  stores : ∀ st ∈ w.stores, st.started = []
  kept : w.kept = []

/-- And nothing was recorded. -/
structure Untouched {σ : Type} (B : Backend σ) (V : View σ) (w : World σ) : Prop where
  fresh : w.Fresh
  consistent : Consistent B V w
  records : ∀ id, w.records B id = []

theorem World.Fresh.untouched {σ : Type} {B : Backend σ} {V : View σ} {w : World σ} (h : w.Fresh)
    (hinv : V.Inv w.storage) (hempty : ∀ id, B.recorded w.storage id = [])
    (hkept : ∀ id snapshot, ¬ V.Kept w.storage id snapshot) : Untouched B V w where
  fresh := h
  consistent := {
    healthy := ⟨hinv, fun id => by rw [hempty]; exact List.forall_mem_nil _, fun hk => absurd hk (hkept _ _),
      fun hk => absurd hk (hkept _ _)⟩
    follows := fun inst hinst => by
      rw [h.instances] at hinst
      cases hinst
    counted := fun id => by
      rw [World.records, hempty]
      exact Nat.zero_le _
    started := fun st hst {id i} hi => by
      rw [Store.instance?, h.stores st hst] at hi
      cases hi }
  records := hempty

/-- A world with an empty memory. -/
theorem untouched_memory {w : World Memory} (h : w.Fresh) (hstorage : w.storage = .empty) :
    Untouched memory memoryView w := by
  refine h.untouched ?_ (fun id => ?_) fun id snapshot hk => ?_
  · rw [hstorage]
    exact Storage.inv_memory_empty
  · rw [hstorage, Storage.recorded_memory]
    rfl
  · rw [hstorage] at hk
    obtain ⟨v, hv, -⟩ := hk
    cases hv

/-- A world over an empty directory. -/
theorem untouched_files {w : World Files} (h : w.Fresh) (hdisk : w.storage.disk = .empty)
    (htails : w.storage.tails = []) : Untouched files filesView w := by
  have hkeeps : w.storage.Keeps fun _ => [] := Journal.Durable.Keeps.fresh.congr hdisk htails
  refine h.untouched (Storage.inv_files hkeeps) (fun id => ?_) fun id snapshot hk => ?_
  · rw [Storage.recorded_files hkeeps]
  · obtain ⟨n, bytes, hfile, -⟩ := hk
    rw [hdisk, Storage.Disk.find?_empty (Snapshot.Durable.leaf_path id n).ne_root] at hfile
    cases hfile

end CartLedger.Entity
