import CartLedger.Proofs.Entity.Moves
import CartLedger.Proofs.Shards
import CartLedger.Proofs.Storage.Searching
import Mathlib.Tactic.Choose

/-! Streams of tags are the journal, divided.

Instances that keep to one sharding put the label of its shard, and nothing else, on every
record of a cart (`Labelled`), before and after a recovery alike, since the label depends
on nothing but the id. Readers that share the labels among themselves therefore get every
record, none of them twice, and each cart's records in their order (`tag_streams`). -/
namespace CartLedger.Entity
open CartLedger.Journal (extend extend_self extend_of_ne)
open CartLedger.Storage (Backend View Correct Searching Memory Files memory files memoryView filesView)
open CartLedger.Time (Timestamp)
open Instance (Surroundings)

/-! ### Labels on records -/

/-- Every record has the label of its cart's shard, and no other tag. -/
def Labelled (S : Shards) (streams : StreamId → List Record) : Prop :=
  ∀ id, ∀ r ∈ streams id, r.tags = S.tagsFor id.entityId

section
variable {S : Shards} {streams : StreamId → List Record}

theorem Labelled.extend (h : Labelled S streams) {r : Record} (hr : r.tags = S.tagsFor r.stream.entityId) :
    Labelled S (extend streams r) := by
  intro id r' hr'
  by_cases hid : id = r.stream
  · rw [hid, extend_self] at hr'
    rcases List.mem_append.1 hr' with hr' | hr'
    · rw [h _ r' hr', hid]
    · rw [List.mem_singleton.1 hr', hr, hid]
  · rw [extend_of_ne hid] at hr'
    exact h id r' hr'

/-- Who asks for a tag gets all of a stream or nothing of it. -/
theorem Labelled.filter (h : Labelled S streams) (id : StreamId) (tag : String) :
    (streams id).filter (fun r => r.tags.contains tag) =
      if tag = S.label (S.shardFor id.entityId) then streams id else [] := by
  have htags : ∀ r ∈ streams id, r.tags.contains tag = decide (tag = S.label (S.shardFor id.entityId)) := by
    intro r hr
    rw [h id r hr, S.contains_tagsFor]
  rw [List.filter_congr htags]
  split <;> simp [*]

end

/-! ### Instances -/

variable {σ : Type} {B : Backend σ} {V : View σ} {S : Shards} {s : σ} {i : Instance} {w : World σ}

/-- Whatever an instance is asked, what it records has its label. -/
theorem Labelled.ask (C : Correct B V) (h : Labelled S (B.recorded s)) (hs : Healthy B V s) (hi : Follows B V s i)
    (hS : i.settings.shards = S) (hfits : V.Fits ((B.recorded s i.stream).length + 1)) (env : Surroundings)
    (command : Cart.Command) (context : Context) :
    Labelled S (B.recorded (Instance.ask B env i command context s).2.2) := by
  obtain ⟨outcome, hask, hasked⟩ := ask_cases C hs hi hfits env command context
  rw [hask]
  cases hasked with
  | replied => exact h
  | @recorded event s' _ _ _ _ _ hrecorded _ =>
    show Labelled S (B.recorded s')
    rw [hrecorded]
    refine h.extend ?_
    subst hS
    rfl
  | @refused event s' _ _ hunchanged =>
    show Labelled S (B.recorded s')
    rw [hunchanged.recorded]
    exact h

theorem Labelled.run (C : Correct B V) (h : Labelled S (B.recorded w.storage)) (hw : Consistent B V w)
    (hS : Configured (fun settings => settings.shards = S) w) (steps : List Step)
    (hfits : ∀ n ≤ (w.run B steps).2.issued, V.Fits n) : Labelled S (B.recorded (w.run B steps).2.storage) := by
  refine hw.storage_run (P := fun s => Labelled S (B.recorded s)) C (fun {s} hs h => ?_)
    (fun {s} hs h failing => ?_) (fun {i s} hS hs hi hlimit h env command context => ?_) hfits hS h steps (Nat.le_refl _)
  · rw [(C.openJournal hs.inv).recorded]
    exact h
  · rw [(C.setFailing hs.inv failing).2.1]
    exact h
  · exact h.ask C hs hi hS (hfits _ hlimit) env command context

/-! ### The division -/

/-- What readers by tag get of a storage that takes the streams `takes`. -/
structure Divided (B : Backend σ) (takes : StreamId → Prop) (S : Shards) (s : σ) : Prop where
  distinct : S.allTags.Nodup
  /-- The answers for all labels, one after another, hold every stream as it is: all of its
  records, each as often as it is there, in its order. -/
  complete : ∃ found, S.allTags.mapM (fun tag => B.byTag tag s) = .ok found ∧
    ∀ id, found.flatten.filter (fun r => r.stream = id) = B.recorded s id
  /-- Of a cart, one label finds everything, from the first record to the last, and what else
  may be asked for finds nothing. -/
  single : ∀ id, takes (.ofCart id) → ∃ rs, B.readFrom (.ofCart id) 0 s = .ok rs ∧
    rs.map (·.sequenceNr) = List.range' 1 rs.length ∧ S.label (S.shardFor id) ∈ S.allTags ∧
    ∀ tag, ∃ found, B.byTag tag s = .ok found ∧ found.filter (fun r => r.stream = .ofCart id) =
      if tag = S.label (S.shardFor id) then rs else []

theorem Labelled.divided (C : Correct B V) (T : Searching B V) (h : Labelled S (B.recorded s)) (hinv : V.Inv s) :
    Divided B V.Takes S s := by
  choose found hfound hparts using fun tag => T hinv tag
  have hpart : ∀ tag id, (found tag).filter (fun r => r.stream = id) =
      if tag = S.label (S.shardFor id.entityId) then B.recorded s id else [] :=
    fun tag id => (hparts tag id).trans (h.filter id tag)
  refine ⟨S.nodup_allTags, ⟨S.allTags.map found, ?_, fun id => ?_⟩, fun id hid => ?_⟩
  · exact Journal.Durable.mapM_ok fun tag _ => hfound tag
  · calc (S.allTags.map found).flatten.filter (fun r => r.stream = id)
      _ = S.allTags.flatMap fun tag => (found tag).filter (fun r => r.stream = id) := by
        rw [← List.flatMap_def, List.filter_flatMap]
      _ = S.allTags.flatMap fun tag =>
          if tag = S.label (S.shardFor id.entityId) then B.recorded s id else [] :=
        congrArg (List.flatMap · S.allTags) (funext fun tag => hpart tag id)
      _ = B.recorded s id := by
        rw [StableSort.flatMap_ite S.nodup_allTags, if_pos (S.label_mem_allTags id.entityId)]
  · exact ⟨B.recorded s (.ofCart id), C.readAll hinv hid, (C.tidy hinv).numbered _, S.label_mem_allTags id,
      fun tag => ⟨found tag, hfound tag, hpart tag _⟩⟩

/-- Every run leaves the records of its carts with their labels. -/
theorem Untouched.labelled (C : Correct B V) (h : Untouched B V w) (hS : ∀ st ∈ w.stores, st.settings.shards = S)
    (steps : List Step) (hfits : ∀ n ≤ (w.run B steps).2.issued, V.Fits n) :
    Labelled S (B.recorded (w.run B steps).2.storage) := by
  refine Labelled.run C (fun id r hr => ?_) h.consistent (h.fresh.configured hS) steps hfits
  have hempty : B.recorded w.storage id = [] := h.records id
  rw [hempty] at hr
  cases hr

theorem Untouched.divided (C : Correct B V) (T : Searching B V) (h : Untouched B V w)
    (hS : ∀ st ∈ w.stores, st.settings.shards = S) (steps : List Step)
    (hfits : ∀ n ≤ (w.run B steps).2.issued, V.Fits n) : Divided B V.Takes S (w.run B steps).2.storage := by
  have hinv := (h.consistent.run C steps hfits).healthy.inv
  exact (h.labelled C hS steps hfits).divided C T hinv

/-- **Streams of tags divide the journal.** Whatever stores with one sharding do over a storage,
in memory or in an empty directory, the labels of the shards find every record of every cart
once, all of a cart's records under one label and in their order. Numbers of records in
files have 64 bits, so fewer messages than that are sent there. -/
theorem tag_streams (S : Shards) :
    (∀ w : World Memory, w.Fresh → w.storage = .empty → (∀ st ∈ w.stores, st.settings.shards = S) →
      ∀ steps, Divided memory (fun _ => True) S (w.run memory steps).2.storage) ∧
    ∀ w : World Files, w.Fresh → w.storage.disk = .empty → w.storage.tails = [] →
      (∀ st ∈ w.stores, st.settings.shards = S) → ∀ steps, (w.run files steps).2.issued < UInt64.size →
        Divided files Storage.Layout.Usable S (w.run files steps).2.storage := by
  constructor
  · intro w hfresh hstorage hS steps
    exact (untouched_memory hfresh hstorage).divided Storage.correct_memory Storage.searching_memory hS steps
      fun _ _ => trivial
  · intro w hfresh hdisk htails hS steps hissued
    exact (untouched_files hfresh hdisk htails).divided Storage.correct_files Storage.searching_files hS steps
      fun n hn => Nat.lt_of_le_of_lt hn hissued

/-- Two carts of one shard and one of another, asked through a store that is restarted in
between. -/
theorem three_carts_divided :
    let settings : Settings := ⟨300000, ⟨2, 1⟩, Settings.cartShards 10, 32⟩
    let add (id : String) : Step := .ask 0 id (.addItem ⟨"x", by decide⟩ 1) .anonymous
    let steps : List Step := [add "cart-2", add "cart-1", .restart 0, add "A", .ask 0 "cart-2" .checkout .anonymous]
    let remembered : World Memory := .begin memory .empty Timestamp.epoch settings 0 1
    let filed : World Files := .begin files (.onDisk .empty) Timestamp.epoch settings 0 1
    (filed.run files steps).2.issued < UInt64.size ∧
      Divided memory (fun _ => True) (Settings.cartShards 10) (remembered.run memory steps).2.storage ∧
      Divided files Storage.Layout.Usable (Settings.cartShards 10) (filed.run files steps).2.storage := by
  intro settings add steps remembered filed
  have hissued : (filed.run files steps).2.issued < UInt64.size :=
    Nat.lt_of_le_of_lt (filed.issues_run steps).2 (by decide)
  have hdivided := tag_streams (Settings.cartShards 10)
  exact ⟨hissued, hdivided.1 remembered ⟨rfl, by decide, rfl⟩ rfl (by decide) steps,
    hdivided.2 filed ⟨rfl, by decide, rfl⟩ rfl rfl (by decide) steps hissued⟩

end CartLedger.Entity
