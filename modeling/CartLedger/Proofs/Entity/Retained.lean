import CartLedger.Proofs.Entity.Moves
import CartLedger.Proofs.Retention
import CartLedger.Proofs.Storage.Shelving

/-! Exactly the snapshots that retention leaves.

When all instances over a storage keep to one retention, what is kept for a cart is a
function of its stream: after `m` events the shelf holds the state at each of the numbers
that retention leaves (`shelfOf`). Instances save where they record, so no step gets in
between (`Stocked.run`), and a recovery finds the latest multiple and as many records after
it as `m` leaves over (`retention_window`). -/
namespace CartLedger.Entity
open CartLedger.Cart (Command Event)
open CartLedger.Snapshot (Shelf)
open CartLedger.Storage (Backend View Correct Shelving Memory Files memory files memoryView filesView)
open Instance (Message Answer Surroundings)

/-! ### The shelf of a stream -/

/-- The snapshots that are left when a stream holds these records. -/
def shelfOf (r : Retention) (rs : List Record) : Shelf :=
  (r.keptNumbers rs.length).map fun n => ⟨cartAt rs n, n⟩

section
variable {r : Retention} {rs : List Record}

theorem numbers_shelfOf (r : Retention) (rs : List Record) : (shelfOf r rs).numbers = r.keptNumbers rs.length := by
  unfold shelfOf Shelf.numbers
  rw [List.map_map]
  exact List.map_id _

theorem le_of_mem_shelfOf {x : Snapshot Cart} (h : x ∈ shelfOf r rs) : x.sequenceNr ≤ rs.length := by
  obtain ⟨n, hn, rfl⟩ := List.mem_map.1 h
  exact Retention.le_of_mem_keptNumbers hn

theorem getLast?_shelfOf (r : Retention) (rs : List Record) :
    (shelfOf r rs).getLast? =
      if rs.length / r.every = 0 then none else some ⟨cartAt rs (r.latest rs.length), r.latest rs.length⟩ := by
  rw [shelfOf, List.getLast?_map, Retention.getLast?_keptNumbers]
  split <;> rfl

/-- The states of a shelf do not change when the stream goes on. -/
theorem shelfOf_append (r : Retention) (rs more : List Record) :
    shelfOf r rs = (r.keptNumbers rs.length).map fun n => ⟨cartAt (rs ++ more) n, n⟩ := by
  refine List.map_congr_left fun n hn => ?_
  rw [cartAt_append (Retention.le_of_mem_keptNumbers hn)]

theorem shelfOf_not_due (hevery : 1 ≤ r.every) (h : r.shouldSnapshot (rs.length + 1) = false) (record : Record) :
    shelfOf r (rs ++ [record]) = shelfOf r rs := by
  rw [shelfOf, List.length_append, List.length_singleton, Retention.keptNumbers_not_due hevery h,
    ← shelfOf_append]

/-- A save where one is due makes the shelf what it is to be. -/
theorem shelfOf_due (hfits : rs.length + 1 < UInt64.size) (h : r.shouldSnapshot (rs.length + 1) = true)
    (record : Record) :
    shelfOf r (rs ++ [record]) =
      (shelfOf r rs).save (cartAt (rs ++ [record]) (rs.length + 1)) (rs.length + 1) r := by
  rw [shelfOf, List.length_append, List.length_singleton, Retention.keptNumbers_due hfits h, Shelf.save,
    shelfOf_append r rs [record], ← List.map_singleton (f := fun n => Snapshot.mk (cartAt (rs ++ [record]) n) n),
    ← List.map_append, List.filter_map]
  rfl

end

/-! ### Storages -/

variable {σ : Type} {B : Backend σ} {V : View σ} {Shelves : σ → StreamId → Shelf → Prop} {r : Retention}
  {s : σ} {i : Instance} {w : World σ}

/-- Of every stream exactly what retention leaves is kept. -/
def Stocked (B : Backend σ) (V : View σ) (Shelves : σ → StreamId → Shelf → Prop) (r : Retention) (s : σ) : Prop :=
  ∀ id, V.Takes id → Shelves s id (shelfOf r (B.recorded s id))

theorem saveIfDue_aside (K : Shelving B V Shelves) (hinv : V.Inv s) {id : StreamId} {shelf : Shelf}
    (h : Shelves s id shelf) (hne : id ≠ i.stream) : Shelves (Instance.saveIfDue B i s) id shelf := by
  unfold Instance.saveIfDue
  split
  · exact K.saveAside hinv h hne _ _
  · exact h

/-- An instance that has recorded one more event brings the shelf up to date. -/
theorem saveIfDue_shelf (K : Shelving B V Shelves) (hevery : 1 ≤ r.every) (hinv : V.Inv s)
    (htakes : V.Takes i.stream) (hfits : V.Fits i.sequenceNr) (hsize : i.sequenceNr < UInt64.size)
    (hr : i.settings.retention = r) {rs : List Record} {record : Record} (hnumber : i.sequenceNr = rs.length + 1)
    (hcart : i.cart = cartAt (rs ++ [record]) (rs.length + 1)) (h : Shelves s i.stream (shelfOf r rs)) :
    Shelves (Instance.saveIfDue B i s) i.stream (shelfOf r (rs ++ [record])) := by
  unfold Instance.saveIfDue
  rw [hr]
  split
  · next hdue =>
    rw [hnumber] at hdue hsize
    rw [shelfOf_due hsize hdue, ← hcart, ← hnumber]
    refine K.saveSnapshot hinv htakes hfits h (fun x hx => ?_) i.cart r
    rw [hnumber]
    exact Nat.lt_succ_of_le (le_of_mem_shelfOf hx)
  · next hdue =>
    rw [hnumber, Bool.not_eq_true] at hdue
    rw [shelfOf_not_due hevery hdue]
    exact h

theorem recorded_saveIfDue (C : Correct B V) (hinv : V.Inv s) (hfits : V.Fits i.sequenceNr) :
    B.recorded (Instance.saveIfDue B i s) = B.recorded s := by
  unfold Instance.saveIfDue
  split
  · exact (C.saveSnapshot hinv hfits i.stream i.cart i.settings.retention).2.1
  · rfl

/-! ### Instances -/

/-- What is recorded is saved when it is due, and what is refused is not. -/
theorem Stocked.ask (C : Correct B V) (K : Shelving B V Shelves) (hevery : 1 ≤ r.every)
    (h : Stocked B V Shelves r s) (hs : Healthy B V s) (hi : Follows B V s i) (hr : i.settings.retention = r)
    (hfits : V.Fits ((B.recorded s i.stream).length + 1)) (hsize : (B.recorded s i.stream).length + 1 < UInt64.size)
    (env : Surroundings) (command : Command) (context : Context) :
    Stocked B V Shelves r (Instance.ask B env i command context s).2.2 := by
  unfold Instance.ask
  split
  · exact h
  · exact h
  · next event _ =>
    have hroom : (i.entry env context).sequenceNr = (B.recorded s i.stream).length + 1 →
        V.Fits (i.entry env context).sequenceNr := fun he => he ▸ hfits
    have happended := fun id (hid : V.Takes id) => K.append hs.inv hroom (h id hid) i.journal event
    by_cases hwhy : V.Failing s ∨ ¬ Current B s i
    · have hwhy' : V.Failing s ∨ ¬ V.Takes (Record.ofEvent (i.entry env context) event).stream ∨
          (Record.ofEvent (i.entry env context) event).sequenceNr ≠
            (B.recorded s (Record.ofEvent (i.entry env context) event).stream).length + 1 :=
        hwhy.imp_right fun hbehind => .inr fun hnext => hbehind (Nat.succ.inj hnext)
      obtain ⟨e, s', happend, hunchanged⟩ := C.append_refused hs.inv hwhy' i.journal
      simp only [happend] at happended ⊢
      intro id hid
      rw [hunchanged.recorded]
      exact happended id hid
    · obtain ⟨hworks, hcurrent⟩ := not_or.1 hwhy
      have hcurrent : i.sequenceNr = (B.recorded s i.stream).length := Decidable.not_not.1 hcurrent
      obtain ⟨s₁, happend, hinv, hrecorded, -, -⟩ :=
        C.append_next hs.inv hworks (show V.Takes (i.entry env context).stream from hi.takes)
          (show V.Fits (i.sequenceNr + 1) from hcurrent ▸ hfits) (congrArg (· + 1) hcurrent) i.journal event
      simp only [happend] at happended ⊢
      have hstream : B.recorded s₁ i.stream = B.recorded s i.stream ++ [.ofEvent (i.entry env context) event] :=
        recorded_self hrecorded
      have hcart : i.cart.apply event = cartAt (B.recorded s₁ i.stream) (i.sequenceNr + 1) := by
        rw [hstream, hcurrent, cartAt_concat, hi.cart_of_current hcurrent]
      have hfits' : V.Fits (i.sequenceNr + 1) := hcurrent ▸ hfits
      intro id hid
      rw [recorded_saveIfDue (i := i.advance event) C hinv hfits']
      by_cases he : id = i.stream
      · subst he
        rw [hstream]
        refine saveIfDue_shelf (i := i.advance event) K hevery hinv hi.takes hfits' ?_ hr
          (congrArg (· + 1) hcurrent) ?_ (happended _ hid)
        · show i.sequenceNr + 1 < UInt64.size
          rwa [hcurrent]
        · show i.cart.apply event = _
          rw [hcart, hstream, hcurrent]
      · rw [hrecorded, Journal.extend_of_ne he]
        exact saveIfDue_aside K hinv (happended id hid) he

/-! ### Worlds -/

/-- Every instance keeps to one retention, and whoever starts instances gives them that one. -/
structure Uniform (r : Retention) (w : World σ) : Prop where
  stores : ∀ st ∈ w.stores, st.settings.retention = r
  instances : ∀ inst ∈ w.instances, inst.settings.retention = r

/-- **A whole run** keeps what is kept in step with the streams. -/
theorem Stocked.run (C : Correct B V) (K : Shelving B V Shelves) (hevery : 1 ≤ r.every)
    (h : Stocked B V Shelves r w.storage) (hw : Consistent B V w) (hr : Uniform r w) (steps : List Step)
    (hfits : ∀ n ≤ (w.run B steps).2.issued, V.Fits n ∧ n < UInt64.size) :
    Stocked B V Shelves r (w.run B steps).2.storage := by
  have hconfigured : Configured (fun settings => settings.retention = r) w := ⟨hr.stores, hr.instances⟩
  refine hw.storage_run C (fun {s} hs h id hid => ?_) (fun {s} hs h failing id hid => ?_)
    (fun {i s} hr hs hi hlimit h env command context => ?_) (fun n hn => (hfits n hn).1) hconfigured h steps
    (Nat.le_refl _)
  · -- A journal that is opened is no reason to save anything,
    rw [(C.openJournal hs.inv).recorded]
    exact K.openJournal (h id hid)
  · -- nor is a failure.
    rw [(C.setFailing hs.inv failing).2.1]
    exact K.setFailing (h id hid) failing
  · obtain ⟨hroom, hsize⟩ := hfits _ hlimit
    exact h.ask C K hevery hs hi hr hroom hsize env command context

/-! ### The window -/

/-- What is kept for a stream that holds the records `rs`, and what a recovery makes of it. -/
structure Windowed (B : Backend σ) (listed : σ → StreamId → Except StorageError (List Nat)) (r : Retention) (s : σ)
    (id : StreamId) (rs : List Record) : Prop where
  read : B.readFrom id 0 s = .ok rs
  listed : listed s id = .ok (r.keptNumbers rs.length)
  /-- A recovery starts at the latest snapshot, if there is one, -/
  loaded : B.loadSnapshot Cart.decoder id s =
    .ok (if rs.length / r.every = 0 then none else some ⟨cartAt rs (r.latest rs.length), r.latest rs.length⟩)
  starts : Instance.startingPoint B id s = (cartAt rs (r.latest rs.length), r.latest rs.length)
  /-- and reads what was recorded after it. -/
  rest : B.readFrom id (r.latest rs.length + 1) s = .ok (rs.drop (r.latest rs.length))
  length_rest : (rs.drop (r.latest rs.length)).length = rs.length % r.every

theorem Stocked.windowed (C : Correct B V) (K : Shelving B V Shelves) (h : Stocked B V Shelves r s) (hinv : V.Inv s)
    {listed : σ → StreamId → Except StorageError (List Nat)}
    (hlisted : ∀ {id shelf}, V.Takes id → Shelves s id shelf → listed s id = .ok shelf.numbers) {id : StreamId}
    (hid : V.Takes id) : Windowed B listed r s id (B.recorded s id) := by
  have hload : B.loadSnapshot Cart.decoder id s = _ :=
    (K.loadSnapshot hinv hid (h id hid)).trans (congrArg Except.ok (getLast?_shelfOf r _))
  refine ⟨C.readAll hinv hid, ?_, hload, ?_, ?_, ?_⟩
  · rw [hlisted hid (h id hid), numbers_shelfOf]
  · rw [Instance.startingPoint, hload]
    by_cases hzero : (B.recorded s id).length / r.every = 0
    · rw [if_pos hzero, Retention.latest, hzero, Nat.mul_zero]
      rfl
    · rw [if_neg hzero]
  · rw [C.readFrom hinv hid, ((C.tidy hinv).numbered id).filter, Nat.add_sub_cancel]
  · rw [List.length_drop, Retention.latest, Nat.sub_eq_of_eq_add]
    rw [Nat.add_comm]
    exact (Nat.div_add_mod _ _).symm

/-- The numbers of the snapshots that memory has of a stream. -/
def listedInMemory (m : Memory) (id : StreamId) : Except StorageError (List Nat) := .ok (m.snapshots.sequenceNrs id)

/-- The numbers of the snapshots that a stream's directory has files of. -/
def listedInFiles (s : Files) (id : StreamId) : Except StorageError (List Nat) := do
  let numbers ← Snapshot.Durable.list s.disk (← Storage.Layout.snapshotDirectory id)
  return numbers.reverse

theorem listedInFiles_eq {s : Files} {id : StreamId} {shelf : Shelf} (hinv : filesView.Inv s)
    (hid : Storage.Layout.Usable id) (h : Storage.ShelvesInFiles s id shelf) :
    listedInFiles s id = .ok shelf.numbers := by
  have hlist := Snapshot.Durable.Shelves.list h (Journal.Durable.Keeps.orderly hinv) hid
  rw [listedInFiles, Storage.Layout.snapshotDirectory, Storage.Layout.entityDirectory_ok hid,
    Json.Decoder.ok_bind, hlist, Json.Decoder.ok_bind, List.reverse_reverse]
  rfl

/-- From an empty storage on, a run leaves a window of every stream. -/
theorem Untouched.windowed (C : Correct B V) (K : Shelving B V Shelves) (hevery : 1 ≤ r.every)
    (h : Untouched B V w) (hretention : ∀ st ∈ w.stores, st.settings.retention = r)
    (hempty : ∀ id, Shelves w.storage id []) {steps : List Step}
    (hfits : ∀ n ≤ (w.run B steps).2.issued, V.Fits n ∧ n < UInt64.size)
    {listed : σ → StreamId → Except StorageError (List Nat)}
    (hlisted : ∀ {s id shelf}, V.Inv s → V.Takes id → Shelves s id shelf → listed s id = .ok shelf.numbers)
    {id : StreamId} (hid : V.Takes id) :
    Windowed B listed r (w.run B steps).2.storage id ((w.run B steps).2.records B id) := by
  have huniform : Uniform r w := by
    refine ⟨hretention, fun inst hinst => ?_⟩
    rw [h.fresh.instances] at hinst
    cases hinst
  have hstocked : Stocked B V Shelves r w.storage := by
    intro id _
    have hrecords : B.recorded w.storage id = [] := h.records id
    rw [hrecords, shelfOf, List.length_nil, Retention.keptNumbers_zero]
    exact hempty id
  have hinv := (h.consistent.run C steps fun n hn => (hfits n hn).1).healthy.inv
  exact (hstocked.run C K hevery h.consistent huniform steps hfits).windowed C K hinv (hlisted hinv) hid

/-- **Exactly the window.** Whatever instances that keep to one retention do over a storage, in
memory or in an empty directory, what is kept for a cart after `m` events are the snapshots at
the last so many multiples of `every`, and a recovery starts at the very last and reads the
records after it. There are never more events than 64 bits can count. -/
theorem retention_window (r : Retention) (hevery : 1 ≤ r.every) :
    (∀ w : World Memory, w.Fresh → w.storage = .empty → (∀ st ∈ w.stores, st.settings.retention = r) →
      ∀ steps, (w.run memory steps).2.issued < UInt64.size → ∀ id,
        ∃ rs, Windowed memory listedInMemory r (w.run memory steps).2.storage (.ofCart id) rs) ∧
    ∀ w : World Files, w.Fresh → w.storage.disk = .empty → w.storage.tails = [] →
      (∀ st ∈ w.stores, st.settings.retention = r) → ∀ steps, (w.run files steps).2.issued < UInt64.size →
        ∀ id, Storage.Layout.Usable (.ofCart id) →
          ∃ rs, Windowed files listedInFiles r (w.run files steps).2.storage (.ofCart id) rs := by
  constructor
  · intro w hfresh hstorage hretention steps hissued id
    have hempty : ∀ id, Storage.ShelvesInMemory w.storage id [] := fun id => by rw [hstorage]; rfl
    exact ⟨_, (untouched_memory hfresh hstorage).windowed Storage.correct_memory Storage.shelving_memory hevery
      hretention hempty (fun n hn => ⟨trivial, Nat.lt_of_le_of_lt hn hissued⟩)
      (fun _ _ hshelf => congrArg Except.ok hshelf.sequenceNrs) trivial⟩
  · intro w hfresh hdisk htails hretention steps hissued id hid
    have hempty : ∀ id, Storage.ShelvesInFiles w.storage id [] := fun id => by
      show Snapshot.Durable.Shelves w.storage.disk id []
      rw [hdisk]
      exact Snapshot.Durable.shelves_empty id
    have hfits : ∀ n ≤ (w.run files steps).2.issued, n < UInt64.size :=
      fun n hn => Nat.lt_of_le_of_lt hn hissued
    exact ⟨_, (untouched_files hfresh hdisk htails).windowed Storage.correct_files Storage.shelving_files hevery
      hretention hempty (fun n hn => ⟨hfits n hn, hfits n hn⟩) listedInFiles_eq hid⟩

/-- A snapshot after every second event, of which one is kept; the cart is restarted after the
fifth. -/
theorem window_after_five_events :
    let r : Retention := ⟨2, 1⟩
    let settings : Settings := ⟨300000, r, Settings.cartShards 10, 32⟩
    let add (quantity : Int32) : Step := .ask 0 "a" (.adjustItemQuantity ⟨"x", by decide⟩ quantity) .anonymous
    let steps : List Step := [.ask 0 "a" (.addItem ⟨"x", by decide⟩ 1) .anonymous, add 2, add 3, add 4, add 5, .restart 0]
    let remembered : World Memory := .begin memory .empty Time.Timestamp.epoch settings 0 1
    let filed : World Files := .begin files (.onDisk .empty) Time.Timestamp.epoch settings 0 1
    (∃ rs, Windowed memory listedInMemory r (remembered.run memory steps).2.storage (.ofCart "a") rs) ∧
      ∃ rs, Windowed files listedInFiles r (filed.run files steps).2.storage (.ofCart "a") rs := by
  intro r settings add steps remembered filed
  have hissued : (remembered.run memory steps).2.issued < UInt64.size ∧ (filed.run files steps).2.issued < UInt64.size := by
    decide +kernel
  have hwindow := retention_window r (by decide)
  exact ⟨hwindow.1 remembered ⟨rfl, by decide, rfl⟩ rfl (by decide) steps hissued.1 "a",
    hwindow.2 filed ⟨rfl, by decide, rfl⟩ rfl rfl (by decide) steps hissued.2 "a" (by decide)⟩

end CartLedger.Entity
