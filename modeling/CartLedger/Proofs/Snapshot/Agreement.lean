import CartLedger.Proofs.Snapshot.Shelf

/-! Snapshots on disk are snapshots in memory.

One store keeps ordered maps and prunes them in a pass, the other writes files, lists them
by their names and removes them one by one. Asked the same, over a directory that was empty,
they answer the same and keep the same numbers (`stores_agree`): at every moment both have
the same shelf for every id (`Agree`), whatever the order of the numbers that were saved
and however much each save was told to keep. -/
namespace CartLedger.Snapshot
open CartLedger.Storage
open CartLedger.Storage.Layout (Usable entityPath)

/-! ### Requests -/

inductive Request where
  | save (id : StreamId) (c : Cart) (sequenceNr : Nat) (retention : Retention)
  | load (id : StreamId)

/-- What a request is answered with when nothing goes wrong. -/
inductive Answer where
  | saved
  | loaded (latest : Option (Snapshot Cart))

namespace Request

def onDisk (d : Disk) : Request → Except StorageError Answer × Disk
  | .save id c n retention =>
    let (answer, d) := Durable.save d id (ofCart c n) retention
    (answer.map fun _ => .saved, d)
  | .load id => ((Durable.load d id Cart.decoder).map .loaded, d)

def inMemory (s : Volatile) : Request → Except StorageError Answer × Volatile
  | .save id c n retention => (.ok .saved, s.save id (ofCart c n) retention)
  | .load id => ((s.load id Cart.decoder).map .loaded, s)

/-- Ids are such as can be used, and numbers have 64 bits. -/
def Allowed : Request → Prop
  | .save id _ n _ => Usable id ∧ n < UInt64.size
  | .load id => Usable id

/-- The answers to requests, one after another, and what is kept afterwards. -/
def run {σ : Type} (respond : σ → Request → Except StorageError Answer × σ) (s : σ) :
    List Request → List (Except StorageError Answer) × σ
  | [] => ([], s)
  | q :: rest =>
    let (answer, s) := respond s q
    let (answers, s) := run respond s rest
    (answer :: answers, s)

end Request

/-! ### Agreement -/

/-- Both have the same shelf for every id. -/
structure Agree (d : Disk) (s : Volatile) : Prop where
  orderly : Orderly d
  shelves : ∀ id, Usable id → ∃ shelf, Durable.Shelves d id shelf ∧ s.Shelves id shelf

namespace Agree
variable {d : Disk} {s : Volatile} {id : StreamId}

theorem empty : Agree .empty .empty where
  orderly := orderly_empty
  shelves id _ := ⟨[], Durable.shelves_empty id, rfl⟩

theorem save (h : Agree d s) (hid : Usable id) (c : Cart) {n : Nat} (hfits : n < UInt64.size)
    (retention : Retention) :
    ∃ d', Durable.save d id (ofCart c n) retention = (.ok (), d') ∧
      Agree d' (s.save id (ofCart c n) retention) := by
  obtain ⟨shelf, hdisk, hmemory⟩ := h.shelves id hid
  obtain ⟨d', hsave, hdisk'⟩ := hdisk.enter h.orderly hid hfits c retention
  obtain ⟨horderly, -, -⟩ := Durable.save_ok h.orderly id (ofCart c n) retention
  rw [hsave] at horderly
  refine ⟨d', hsave, horderly, fun other hother => ?_⟩
  by_cases he : other = id
  · rw [he]
    exact ⟨_, hdisk', hmemory.enter c n retention⟩
  · obtain ⟨shelf, hdisk, hmemory⟩ := h.shelves other hother
    have haside := hdisk.save_aside h.orderly he (ofCart c n) retention
    rw [hsave] at haside
    exact ⟨shelf, haside, hmemory.save_aside he _ retention⟩

theorem load (h : Agree d s) (hid : Usable id) :
    ∃ latest, Durable.load d id Cart.decoder = .ok latest ∧ s.load id Cart.decoder = .ok latest := by
  obtain ⟨shelf, hdisk, hmemory⟩ := h.shelves id hid
  exact ⟨shelf.getLast?, hdisk.load h.orderly hid, hmemory.load⟩

/-- A listing of the directory shows the numbers in memory, the latest first. -/
theorem listed (h : Agree d s) (hid : Usable id) :
    Durable.list d (entityPath "snapshots" id) = .ok (s.sequenceNrs id).reverse := by
  obtain ⟨shelf, hdisk, hmemory⟩ := h.shelves id hid
  rw [hdisk.list h.orderly hid, hmemory.sequenceNrs]

/-- **One request**: both answer the same, nothing goes wrong, and they still agree. -/
theorem step (h : Agree d s) {q : Request} (hq : q.Allowed) :
    ∃ answer, (q.onDisk d).1 = .ok answer ∧ (q.inMemory s).1 = .ok answer ∧ Agree (q.onDisk d).2 (q.inMemory s).2 := by
  cases q with
  | save id c n retention =>
    obtain ⟨d', hsave, hagree⟩ := h.save hq.1 c hq.2 retention
    refine ⟨.saved, ?_, rfl, ?_⟩
    · simp only [Request.onDisk, hsave]
      rfl
    · simp only [Request.onDisk, hsave]
      exact hagree
  | load id =>
    obtain ⟨latest, hdisk, hmemory⟩ := h.load hq
    refine ⟨.loaded latest, ?_, ?_, h⟩
    · simp only [Request.onDisk, hdisk]
      rfl
    · simp only [Request.inMemory, hmemory]
      rfl

/-- **A whole run** of requests. -/
theorem run (h : Agree d s) {qs : List Request} (hqs : ∀ q ∈ qs, q.Allowed) :
    ∃ answers : List Answer, (Request.run Request.onDisk d qs).1 = answers.map .ok ∧
      (Request.run Request.inMemory s qs).1 = answers.map .ok ∧
      Agree (Request.run Request.onDisk d qs).2 (Request.run Request.inMemory s qs).2 := by
  induction qs generalizing d s with
  | nil => exact ⟨[], rfl, rfl, h⟩
  | cons q rest ih =>
    obtain ⟨hq, hrest⟩ := List.forall_mem_cons.1 hqs
    obtain ⟨answer, hdisk, hmemory, hagree⟩ := h.step hq
    obtain ⟨answers, hdisks, hmemories, hagree'⟩ := ih hagree hrest
    refine ⟨answer :: answers, ?_, ?_, hagree'⟩
    · rw [Request.run, List.map_cons, ← hdisk, ← hdisks]
    · rw [Request.run, List.map_cons, ← hmemory, ← hmemories]

end Agree

/-- What is the same of two stores that began empty and are asked `qs`. -/
structure Agreeing (qs : List Request) : Prop where
  /-- The answers, none of which is an error. -/
  answers : ∃ answers : List Answer, (Request.run Request.onDisk .empty qs).1 = answers.map .ok ∧
    (Request.run Request.inMemory .empty qs).1 = answers.map .ok
  /-- The numbers that are kept for an id after each of the requests. -/
  kept : ∀ before, before <+: qs → ∀ id, Usable id → ∃ directory, Layout.snapshotDirectory id = .ok directory ∧
    Durable.list (Request.run Request.onDisk .empty before).2 directory =
      .ok ((Request.run Request.inMemory .empty before).2.sequenceNrs id).reverse

/-- **The two stores of snapshots agree** on all saves and loads of carts. -/
theorem stores_agree (qs : List Request) (hqs : ∀ q ∈ qs, q.Allowed) : Agreeing qs where
  answers := by
    obtain ⟨answers, hdisk, hmemory, -⟩ := Agree.empty.run hqs
    exact ⟨answers, hdisk, hmemory⟩
  kept before hbefore id hid := by
    obtain ⟨-, -, -, hagree⟩ := Agree.empty.run fun q hq => hqs q (hbefore.subset hq)
    exact ⟨entityPath "snapshots" id, Layout.entityDirectory_ok hid "snapshots", hagree.listed hid⟩

/-- Numbers that go up, down and up to the one before, one of them twice, with zero among them
and different policies. -/
theorem unordered_saves_agree :
    let id : StreamId := .ofCart "a"
    let other : StreamId := .ofCart "b"
    let sold : Cart := ⟨.empty, some Time.Timestamp.epoch⟩
    let qs := [Request.save id .empty 5 ⟨2, 2⟩, .save id sold 3 ⟨1, 1⟩, .load id, .save id sold 5 ⟨4, 1⟩, .load other,
      .save other .empty 0 ⟨2, 1⟩, .save id .empty 7 ⟨0, 0⟩, .load id]
    (∀ q ∈ qs, q.Allowed) ∧ Agreeing qs := by
  intro id other sold qs
  have hqs : ∀ q ∈ qs, q.Allowed := by
    have hid : Usable id ∧ Usable other := by decide
    simp [qs, Request.Allowed, hid, UInt64.size]
  exact ⟨hqs, stores_agree qs hqs⟩

end CartLedger.Snapshot
