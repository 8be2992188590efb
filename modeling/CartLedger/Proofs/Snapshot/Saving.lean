import CartLedger.Proofs.Retention
import CartLedger.Proofs.Snapshot.Shelf

/-! What a save leaves under each number.

A save that goes through puts its snapshot under its number and then discards what lies at
or below a bound, and it does so whatever was there before, in memory and on a disk in any
order. Since the bound lies below the number unless the number or the window is zero, the
snapshot that was saved stays, and if the bound is zero so do all others (`Pruned.saving`). At
zero, though, a bound of zero discards the snapshot that was just saved, and the same
happens at any number when snapshots are to be taken after every zero events. -/
namespace CartLedger.Snapshot
open CartLedger.Json (Document)
open CartLedger.Storage
open CartLedger.Storage.Layout (Usable entityPath)

/-! ### One law for both stores -/

section
variable {β : Type} {retention : Retention} {n : Nat} {saved : β} {before after : Nat → Option β}
  {numbers : List Nat}

/-- Under each number is what was saved there or what was there before, unless it is discarded. -/
def Pruned (retention : Retention) (n : Nat) (saved : β) (before after : Nat → Option β) : Prop :=
  ∀ m < UInt64.size, after m =
    if m ≤ retention.deleteUpto n then none else if m = n then some saved else before m

/-- What a save at `n` does to what is kept under the numbers of a stream; `numbers` are those
that are listed afterwards. -/
structure Saving (retention : Retention) (n : Nat) (saved : β) (before after : Nat → Option β)
    (numbers : List Nat) : Prop where
  /-- What is saved at a number stays there, when there is a window, -/
  kept : retention.every ≠ 0 → n ≠ 0 → n ∈ numbers ∧ after n = some saved
  /-- and does not when there is none, or at zero. -/
  lost : retention.every = 0 ∨ n = 0 → after n = none
  /-- As long as nothing may be deleted, what is at other numbers stays, except at zero. -/
  spared : retention.deleteUpto n = 0 → ∀ m < UInt64.size, m ≠ n → m ≠ 0 → after m = before m

theorem Pruned.saving (h : Pruned retention n saved before after) (hn : n < UInt64.size)
    (hlisted : (after n).isSome → n ∈ numbers) : Saving retention n saved before after numbers where
  kept hevery hzero := by
    have hlt := Retention.deleteUpto_lt_iff.2 ⟨hevery, hzero⟩
    have hafter : after n = some saved := by rw [h n hn, if_neg (Nat.not_le.2 hlt), if_pos rfl]
    exact ⟨hlisted (by rw [hafter]; rfl), hafter⟩
  lost hwhy := by
    have hle : n ≤ retention.deleteUpto n := by
      refine Nat.not_lt.1 fun hlt => ?_
      obtain ⟨hevery, hzero⟩ := Retention.deleteUpto_lt_iff.1 hlt
      exact hwhy.elim hevery hzero
    rw [h n hn, if_pos hle]
  spared hupto m hm hne hzero := by
    rw [h m hm, hupto, if_neg (by omega), if_neg hne]

end

/-! ### In memory -/

theorem Volatile.pruned_save (s : Volatile) (id : StreamId) (snapshot : Snapshot Json) (retention : Retention) :
    Pruned retention snapshot.sequenceNr snapshot.state.canonical (s.of id).get?
      ((s.save id snapshot retention).of id).get? := by
  intro m _
  rw [of_save_self, OrderedMap.get?_filter, OrderedMap.get?_insert]
  by_cases hm : m ≤ retention.deleteUpto snapshot.sequenceNr
  · rw [if_pos hm, if_neg (by simpa using hm)]
  · rw [if_neg hm, if_pos (by simpa using hm)]
    simp only [eq_comm]

theorem Volatile.mem_sequenceNrs {s : Volatile} {id : StreamId} {n : Nat} (h : ((s.of id).get? n).isSome) :
    n ∈ s.sequenceNrs id := by
  obtain ⟨v, hv⟩ := Option.isSome_iff_exists.1 h
  exact List.mem_map_of_mem ((OrderedMap.get?_eq_some_iff _ _ _).1 hv)

/-! ### On disk -/

namespace Durable
variable {d d' : Disk} {id : StreamId} {n : Nat}

/-- The entry in a stream's directory that a number's snapshot would have. -/
def stored (d : Disk) (id : StreamId) (n : Nat) : Option Entry := d.find? (path id n)

theorem path_ne_directory (id : StreamId) (n : Nat) : path id n ≠ entityPath "snapshots" id := by simp [path]

theorem temporaryPath_ne_directory (id : StreamId) (n : Nat) :
    temporaryPath id n ≠ entityPath "snapshots" id := by simp [temporaryPath]

/-- What is put in place when no order can be relied on. -/
theorem place_inv {bytes : List UInt8} (h : place (entityPath "snapshots" id) n bytes d = (.ok (), d')) :
    d'.find? (entityPath "snapshots" id) = some .directory ∧
      ∀ m, stored d' id m = if m = n then some (.file bytes) else stored d id m := by
  rw [place] at h
  split at h
  · cases h
  · next d₁ hmake =>
    dsimp only at h
    split at h
    · cases h
    · next d₂ hwrite =>
      split at h
      · cases h
      · next d₃ hrename =>
        obtain rfl := (Prod.mk.inj h).2
        have hfind : ∀ q, q ≠ temporaryPath id n → d₃.find? q = if q = path id n then some (.file bytes) else d₁.find? q :=
          fun _ => Disk.find?_of_write_rename (leaf_temporaryPath id n).ne_root (leaf_path id n).ne_root hwrite hrename
        constructor
        · rw [hfind _ (temporaryPath_ne_directory id n).symm, if_neg (path_ne_directory id n).symm,
            Disk.find?_of_make hmake]
        · intro m
          have hbeside : ¬ path id m <+: entityPath "snapshots" id := fun hprefix =>
            absurd hprefix.length_le (by simp [path])
          rw [stored, hfind _ (path_ne_temporaryPath id m n), Disk.find?_beside_make hmake hbeside]
          simp only [path_inj]
          rfl

theorem list_ok (hdirectory : d.find? (entityPath "snapshots" id) = some .directory) :
    ∃ numbers, list d (entityPath "snapshots" id) = .ok numbers :=
  (list_directory hdirectory).imp fun _ h => h.1

/-- A listing shows the number of whatever has the name of its snapshot. -/
theorem mem_list {numbers : List Nat} (hdirectory : d.find? (entityPath "snapshots" id) = some .directory)
    (h : list d (entityPath "snapshots" id) = .ok numbers) {m : Nat} (hm : m < UInt64.size)
    (hstored : (stored d id m).isSome) : m ∈ numbers := by
  obtain ⟨listed, hlist, -, hperm⟩ := list_directory hdirectory
  obtain rfl := Except.ok.inj (hlist.symm.trans h)
  exact hperm.mem_iff.2 (mem_numbersIn.2 ⟨fileName m, hstored, sequenceNr?_fileName hm⟩)

/-- **What a save leaves on any disk**, if it goes through. -/
theorem save_inv {snapshot : Snapshot Json} {retention : Retention}
    (h : save d id snapshot retention = (.ok (), d')) :
    d'.find? (entityPath "snapshots" id) = some .directory ∧
      Pruned retention snapshot.sequenceNr (.file (bytesOf snapshot)) (stored d id) (stored d' id) := by
  by_cases hid : Usable id
  · rw [save, Layout.snapshotDirectory, Layout.entityDirectory_ok hid] at h
    dsimp only at h
    split at h
    · cases h
    · next d₁ hplace =>
      obtain ⟨hdirectory₁, hstored₁⟩ := place_inv hplace
      split at h
      · cases h
      · next numbers hlist =>
        have hdirectory := find?_prune (fun n => (path_ne_directory id n).symm)
          (retention.deleteUpto snapshot.sequenceNr) numbers d₁
        rw [h] at hdirectory
        refine ⟨hdirectory.trans hdirectory₁, fun m hm => ?_⟩
        rw [stored, find?_of_prune h, ← hstored₁, stored]
        by_cases hgone : m ≤ retention.deleteUpto snapshot.sequenceNr
        · rw [if_pos hgone]
          by_cases hmem : m ∈ numbers
          · rw [if_pos ⟨hmem, hgone⟩]
          · -- What is not listed is not there.
            rw [if_neg fun hboth => hmem hboth.1]
            exact Option.not_isSome_iff_eq_none.1 fun hsome => hmem (mem_list hdirectory₁ hlist hm hsome)
        · rw [if_neg hgone, if_neg fun hboth => hgone hboth.2]
  · rw [save_unusable hid] at h
    cases h

end Durable

/-! ### Both stores -/

/-- How a cart fares that is saved in the one or the other store. -/
structure SavedCart (id : StreamId) (c : Cart) (n : Nat) (retention : Retention) : Prop where
  inMemory : ∀ s : Volatile, Saving retention n c.toJson.canonical (s.of id).get?
    ((s.save id (ofCart c n) retention).of id).get? ((s.save id (ofCart c n) retention).sequenceNrs id)
  onDisk : ∀ {d d'}, Durable.save d id (ofCart c n) retention = (.ok (), d') →
    ∃ numbers, Durable.list d' (entityPath "snapshots" id) = .ok numbers ∧
      Saving retention n (.file (Durable.bytesOf (ofCart c n))) (Durable.stored d id) (Durable.stored d' id) numbers
  /-- What is saved is the cart, -/
  state : Json.decode Cart.decoder c.toJson.canonical = .ok c
  /-- and its number with it. -/
  file : (Document.ofBytes (Durable.bytesOf (ofCart c n))).decode (Snapshot.decoder Cart.decoder) = .ok ⟨c, n⟩

/-- **A save keeps what it saves, unless the window is empty or the number zero**, whatever
either store held before, and as long as nothing may be deleted it discards nothing else but what
is at zero. -/
theorem saved_unless_zero (id : StreamId) (c : Cart) {n : Nat} (hn : n < UInt64.size) (retention : Retention) :
    SavedCart id c n retention where
  inMemory s := (s.pruned_save id (ofCart c n) retention).saving hn Volatile.mem_sequenceNrs
  onDisk {d d'} hsave := by
    obtain ⟨hdirectory, hpruned⟩ := Durable.save_inv hsave
    obtain ⟨numbers, hlist⟩ := Durable.list_ok hdirectory
    exact ⟨numbers, hlist, hpruned.saving hn (Durable.mem_list hdirectory hlist hn)⟩
  state := Cart.decode_canonical c
  file := decode_pretty c hn

/-- The first snapshot of a cart, on an empty disk. -/
theorem first_snapshot_saved :
    100 < UInt64.size ∧ (Durable.save .empty (.ofCart "a") (ofCart .empty 100) .standard).1 = .ok () ∧
      SavedCart (.ofCart "a") .empty 100 .standard := by
  obtain ⟨d', hsave, -⟩ := (Durable.shelves_empty (.ofCart "a")).enter orderly_empty (by decide) (by decide : 100 < UInt64.size)
    .empty .standard
  exact ⟨by decide, by rw [hsave], saved_unless_zero (.ofCart "a") .empty (by decide) .standard⟩

/-- Where nothing may be deleted, at zero, a snapshot is gone as soon as it is saved. -/
theorem snapshot_at_zero_discarded :
    (¬ ∀ (s : Volatile) (id : StreamId) (c : Cart) (n : Nat) (retention : Retention), n < UInt64.size →
      n ∈ (s.save id (ofCart c n) retention).sequenceNrs id) ∧
    (¬ ∀ (d d' : Disk) (id : StreamId) (c : Cart) (n : Nat) (retention : Retention), n < UInt64.size →
      Durable.save d id (ofCart c n) retention = (.ok (), d') → (Durable.stored d' id n).isSome) := by
  have hzero : 0 < UInt64.size := by decide
  constructor
  · intro hclaim
    exact absurd (hclaim .empty (.ofCart "a") .empty 0 .standard hzero) (by decide)
  · intro hclaim
    obtain ⟨d', hsave, -⟩ :=
      (Durable.shelves_empty (.ofCart "a")).enter orderly_empty (by decide) hzero .empty .standard
    have hgone : Durable.stored d' (.ofCart "a") 0 = none :=
      (Durable.save_inv hsave).2 0 hzero
    have hkept := hclaim .empty d' (.ofCart "a") .empty 0 .standard hzero hsave
    rw [hgone] at hkept
    cases hkept

end CartLedger.Snapshot
