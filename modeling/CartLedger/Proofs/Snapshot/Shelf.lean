import CartLedger.Proofs.Snapshot.Durable
import CartLedger.Proofs.Snapshot.Listing
import CartLedger.Proofs.Snapshot.Volatile

/-! Exactly which snapshots are kept for a stream.

A shelf is all that is kept for a stream, in the order of the numbers. In memory it is the
stream's entries; on disk it is the files in the stream's directory, each under the name of
its number. Loading takes the last snapshot of a shelf. A save puts its own snapshot in its
place, instead of one with the same number, and leaves out what retention discards
(`Shelf.enter`); behind all others that is putting it at the end (`Shelf.save`). -/
namespace CartLedger.Snapshot

/-- Snapshots of carts in ascending order, the latest last. -/
abbrev Shelf : Type := List (Snapshot Cart)

namespace Shelf

/-- The shelf once `c` is saved behind all others, and retention is done with it. -/
def save (shelf : Shelf) (c : Cart) (n : Nat) (retention : Retention) : Shelf :=
  (shelf ++ [(⟨c, n⟩ : Snapshot Cart)]).filter fun x => retention.deleteUpto n < x.sequenceNr

def numbers (shelf : Shelf) : List Nat := shelf.map (·.sequenceNr)

/-- Puts a snapshot in its place, instead of one that has its number. -/
def insert (x : Snapshot Cart) : Shelf → Shelf
  | [] => [x]
  | y :: rest =>
    if x.sequenceNr < y.sequenceNr then x :: y :: rest
    else if x.sequenceNr = y.sequenceNr then x :: rest
    else y :: insert x rest

/-- The shelf once `c` is saved, wherever that is, and retention is done with it. -/
def enter (shelf : Shelf) (c : Cart) (n : Nat) (retention : Retention) : Shelf :=
  (shelf.insert ⟨c, n⟩).filter fun x => retention.deleteUpto n < x.sequenceNr

variable {shelf : Shelf} {x : Snapshot Cart}

/-- Whatever is made of the states, it is a map that the snapshot is put into. -/
theorem map_insert {α : Type} (f : Cart → α) (x : Snapshot Cart) (shelf : Shelf) :
    (shelf.insert x).map (fun y => (y.sequenceNr, f y.state)) =
      Entries.put x.sequenceNr (f x.state) (shelf.map fun y => (y.sequenceNr, f y.state)) := by
  induction shelf with
  | nil => rfl
  | cons y rest ih =>
    simp only [insert, List.map_cons, Entries.put]
    split
    · rfl
    · split
      · rfl
      · rw [List.map_cons, ih]

theorem ascending_entries :
    Entries.Ascending (shelf.map fun y => (y.sequenceNr, y.state)) ↔ shelf.numbers.Pairwise (· < ·) := by
  rw [Entries.Ascending, numbers, List.pairwise_map, List.pairwise_map]

theorem ascending_insert (h : shelf.numbers.Pairwise (· < ·)) (x : Snapshot Cart) :
    (shelf.insert x).numbers.Pairwise (· < ·) := by
  rw [← ascending_entries, map_insert fun c => c]
  exact Entries.ascending_put _ _ (ascending_entries.2 h)

/-- Of the others those are left that have other numbers. -/
theorem mem_insert (h : shelf.numbers.Pairwise (· < ·)) {y : Snapshot Cart} :
    y ∈ shelf.insert x ↔ y = x ∨ (y ∈ shelf ∧ y.sequenceNr ≠ x.sequenceNr) := by
  have hentry : ∀ {shelf : Shelf}, y ∈ shelf ↔
      (y.sequenceNr, y.state) ∈ shelf.map fun z => (z.sequenceNr, z.state) := by
    intro shelf
    refine ⟨fun hy => List.mem_map_of_mem hy, fun hy => ?_⟩
    obtain ⟨z, hz, he⟩ := List.mem_map.1 hy
    obtain ⟨hnumber, hstate⟩ := Prod.mk.inj he
    cases y
    cases z
    cases hnumber
    cases hstate
    exact hz
  have hlookup := Entries.find?_put x.sequenceNr y.sequenceNr x.state (shelf.map fun z => (z.sequenceNr, z.state))
  rw [hentry, hentry, map_insert fun c => c, ← Entries.find?_eq_some_iff (Entries.ascending_put _ _ (ascending_entries.2 h)),
    ← Entries.find?_eq_some_iff (ascending_entries.2 h), hlookup]
  cases x
  cases y
  simp only [Snapshot.mk.injEq]
  split
  · next he => simp [he, eq_comm]
  · next hne => simp [Ne.symm hne]

theorem insert_last (h : ∀ y ∈ shelf, y.sequenceNr < x.sequenceNr) : shelf.insert x = shelf ++ [x] := by
  induction shelf with
  | nil => rfl
  | cons y rest ih =>
    have hy := h y (List.mem_cons_self ..)
    rw [insert, if_neg (Nat.lt_asymm hy), if_neg (Nat.ne_of_gt hy), ih fun z hz => h z (List.mem_cons_of_mem _ hz)]
    rfl

theorem save_eq_enter {n : Nat} (hlater : ∀ x ∈ shelf, x.sequenceNr < n) (c : Cart) (retention : Retention) :
    shelf.save c n retention = shelf.enter c n retention := by
  rw [save, enter, insert_last hlater]

end Shelf

/-! ### In memory -/

namespace Volatile
variable {s : Volatile} {id : StreamId} {shelf : Shelf}

/-- The shelf is what is kept for the stream. -/
def Shelves (s : Volatile) (id : StreamId) (shelf : Shelf) : Prop :=
  (s.of id).entries = shelf.map fun x => (x.sequenceNr, x.state.toJson.canonical)

theorem Shelves.sequenceNrs (h : s.Shelves id shelf) : s.sequenceNrs id = shelf.numbers := by
  rw [Volatile.sequenceNrs, OrderedMap.keys, h, List.map_map]
  rfl

theorem Shelves.load (h : s.Shelves id shelf) : s.load id Cart.decoder = .ok shelf.getLast? := by
  rw [Volatile.load, OrderedMap.last?, h, List.getLast?_map]
  cases shelf.getLast? with
  | none => rfl
  | some x =>
    dsimp only [Option.map_some]
    rw [Cart.decode_canonical]

/-- A save at any number, those of others before and behind it. -/
theorem Shelves.enter (h : s.Shelves id shelf) (c : Cart) (n : Nat) (retention : Retention) :
    (s.save id (ofCart c n) retention).Shelves id (shelf.enter c n retention) := by
  have hput : ((s.of id).insert n c.toJson.canonical).entries =
      (shelf.insert ⟨c, n⟩).map fun x => (x.sequenceNr, x.state.toJson.canonical) := by
    rw [Shelf.map_insert fun c => c.toJson.canonical, ← h]
    rfl
  show ((s.save id (ofCart c n) retention).of id).entries = _
  rw [of_save_self]
  show (((s.of id).insert n c.toJson.canonical).entries.filter _) = _
  rw [hput, List.filter_map]
  rfl

theorem Shelves.save (h : s.Shelves id shelf) {n : Nat} (hlater : ∀ x ∈ shelf, x.sequenceNr < n) (c : Cart)
    (retention : Retention) :
    (s.save id (ofCart c n) retention).Shelves id (shelf.save c n retention) := by
  rw [Shelf.save_eq_enter hlater]
  exact h.enter c n retention

theorem Shelves.save_aside {id' : StreamId} (h : s.Shelves id' shelf) (hne : id' ≠ id) (snapshot : Snapshot Json)
    (retention : Retention) : (s.save id snapshot retention).Shelves id' shelf := by
  unfold Shelves
  rw [of_save_of_ne hne]
  exact h

end Volatile

/-! ### On disk -/

namespace Durable
open CartLedger.Storage
open CartLedger.Storage.Layout (Usable Leaf InSnapshots Folder entityPath)

/-- The shelf is what the files in the stream's directory hold. -/
structure Shelves (d : Disk) (id : StreamId) (shelf : Shelf) : Prop where
  begun : shelf ≠ [] → d.find? (entityPath "snapshots" id) = some .directory
  file : ∀ x ∈ shelf, d.find? (path id x.sequenceNr) = some (.file (bytesOf (ofCart x.state x.sequenceNr)))
  only : ∀ {name}, (d.find? (entityPath "snapshots" id ++ [name])).isSome → name ∈ shelf.numbers.map fileName
  ascending : shelf.numbers.Pairwise (· < ·)
  fits : ∀ n ∈ shelf.numbers, n < UInt64.size

variable {d d' : Disk} {id : StreamId} {shelf : Shelf}

theorem shelves_empty (id : StreamId) : Shelves .empty id [] where
  begun hne := absurd rfl hne
  file x hx := absurd hx List.not_mem_nil
  only {name} hname := by
    rw [Disk.find?_empty (Layout.leaf_inEntity (by decide) id name).ne_root] at hname
    cases hname
  ascending := List.Pairwise.nil
  fits n hn := absurd hn List.not_mem_nil

theorem Shelves.congr (h : Shelves d id shelf)
    (hdirectory : d.find? (entityPath "snapshots" id) = some .directory →
      d'.find? (entityPath "snapshots" id) = some .directory)
    (hfiles : ∀ name, d'.find? (entityPath "snapshots" id ++ [name]) = d.find? (entityPath "snapshots" id ++ [name])) :
    Shelves d' id shelf where
  begun hne := hdirectory (h.begun hne)
  file x hx := (hfiles (fileName x.sequenceNr)).trans (h.file x hx)
  only {name} hname := h.only (hfiles name ▸ hname)
  ascending := h.ascending
  fits := h.fits

/-! #### Listing -/

/-- A directory that is there has the files of the shelf and no others. -/
theorem Shelves.filesOf (h : Shelves d id shelf) (horderly : Orderly d)
    (hdirectory : d.find? (entityPath "snapshots" id) = some .directory) :
    FilesOf d (entityPath "snapshots" id) {n | n ∈ shelf.numbers} where
  distinct := horderly.distinct
  begun := hdirectory
  fits := h.fits
  file n hn := by
    obtain ⟨x, hx, rfl⟩ := List.mem_map.1 hn
    show (d.find? (path id x.sequenceNr)).isSome
    rw [h.file x hx]
    rfl
  only name hname := by
    obtain ⟨n, hn, rfl⟩ := List.mem_map.1 (h.only hname)
    exact .inl ⟨n, hn, rfl⟩

/-- A listing shows the shelf from its end. -/
theorem Shelves.list (h : Shelves d id shelf) (horderly : Orderly d) (hid : Usable id) :
    list d (entityPath "snapshots" id) = .ok shelf.numbers.reverse := by
  have hclear : ∀ q, q <+: entityPath "snapshots" id → Folder q :=
    fun q hq => Layout.folder_entityPath (by decide) hid hq
  unfold Durable.list
  cases hfind : d.find? (entityPath "snapshots" id) with
  | none =>
    have hnone : shelf = [] := by
      by_cases hne : shelf = []
      · exact hne
      · rw [h.begun hne] at hfind
        cases hfind
    rw [Disk.names, Disk.look_missing hfind (horderly.clear hclear), hnone]
    rfl
  | some e =>
    cases e with
    | file bytes => exact absurd (horderly.leaf hfind) (hclear _ (List.prefix_refl _)).1
    | directory =>
      obtain ⟨listed, hlist, hdescending, hmem⟩ := (h.filesOf horderly hfind).list
      have hreversed : shelf.numbers.reverse.Pairwise (· > ·) := List.pairwise_reverse.2 h.ascending
      have hsame : ∀ n, n ∈ listed ↔ n ∈ shelf.numbers.reverse := fun n => (hmem n).trans List.mem_reverse.symm
      rw [← hdescending.eq_of_mem_iff hreversed hsame, ← hlist]
      rfl

/-! #### Loading -/

/-- The snapshot that a listing shows first makes sense. -/
theorem Shelves.load (h : Shelves d id shelf) (horderly : Orderly d) (hid : Usable id) :
    load d id Cart.decoder = .ok shelf.getLast? := by
  rw [Durable.load, Layout.snapshotDirectory, Layout.entityDirectory_ok hid, Json.Decoder.ok_bind,
    h.list horderly hid, Json.Decoder.ok_bind]
  rcases List.eq_nil_or_concat shelf with rfl | ⟨before, x, rfl⟩
  · rfl
  · rw [List.concat_eq_append] at h ⊢
    have hfile := h.file x (List.mem_append_right _ (List.mem_singleton_self x))
    have hfits : x.sequenceNr < UInt64.size :=
      h.fits _ (List.mem_map_of_mem (List.mem_append_right _ (List.mem_singleton_self x)))
    have hread : d.read (entityPath "snapshots" id ++ [fileName x.sequenceNr]) = _ := Disk.read_file hfile
    rw [Shelf.numbers, List.map_append, List.map_singleton, List.reverse_append, List.reverse_singleton,
      List.singleton_append, firstLegible, hread]
    dsimp only
    rw [bytesOf, decode_pretty x.state hfits, List.getLast?_concat]

/-! #### Saving -/

/-- Pruning changes no file that is not a snapshot of the stream. -/
theorem find?_prune {q : Path} (hq : ∀ n, q ≠ path id n) (upto : Nat) (numbers : List Nat) (d : Disk) :
    (prune (entityPath "snapshots" id) upto numbers d).2.find? q = d.find? q := by
  induction numbers generalizing d with
  | nil => rfl
  | cons n rest ih =>
    unfold prune
    split
    · split
      · rfl
      · next d' hremove =>
        obtain rfl : d' = d.erase (path id n) := Disk.remove_ok hremove
        rw [ih, Disk.find?_erase (leaf_path id n).ne_root, if_neg (Ne.symm (hq n))]
    · exact ih d

theorem path_inj {m n : Nat} : path id m = path id n ↔ m = n :=
  ⟨fun h => fileName_inj (List.cons.inj (List.append_inj' h rfl).2).1, fun h => h ▸ rfl⟩

/-- Pruning that goes through has removed the listed files up to a number, and changed nothing else. -/
theorem find?_of_prune {numbers : List Nat} {upto : Nat}
    (h : prune (entityPath "snapshots" id) upto numbers d = (.ok (), d')) :
    ∀ n, d'.find? (path id n) = if n ∈ numbers ∧ n ≤ upto then none else d.find? (path id n) := by
  induction numbers generalizing d with
  | nil =>
    obtain rfl := (Prod.mk.inj h).2
    exact fun n => by rw [if_neg fun hn => List.not_mem_nil hn.1]
  | cons m rest ih =>
    intro n
    rw [prune] at h
    by_cases hm : m ≤ upto
    · rw [if_pos hm] at h
      split at h
      · cases h
      · next d₁ hremove =>
        obtain rfl : d₁ = d.erase (path id m) := Disk.remove_ok hremove
        rw [ih h, Disk.find?_erase (leaf_path id m).ne_root]
        simp only [path_inj, List.mem_cons]
        by_cases hn : m = n
        · simp [← hn, hm]
        · simp [Ne.symm hn, hn]
    · rw [if_neg hm] at h
      rw [ih h]
      by_cases hn : n = m
      · simp [hn, hm]
      · simp [hn]

/-- It goes through when the numbers are those of different files. -/
theorem prune_ok {numbers : List Nat} (hdistinct : numbers.Nodup)
    (hfiles : ∀ n ∈ numbers, ∃ bytes, d.find? (path id n) = some (.file bytes)) (upto : Nat) :
    ∃ d', prune (entityPath "snapshots" id) upto numbers d = (.ok (), d') := by
  induction numbers generalizing d with
  | nil => exact ⟨d, rfl⟩
  | cons n rest ih =>
    obtain ⟨hnotMem, hrest⟩ := List.nodup_cons.1 hdistinct
    obtain ⟨⟨bytes, hfile⟩, hfiles'⟩ := List.forall_mem_cons.1 hfiles
    rw [prune]
    by_cases hn : n ≤ upto
    · have hremove : d.remove (entityPath "snapshots" id ++ [fileName n]) = .ok (d.erase (path id n)) :=
        Disk.remove_file hfile
      rw [if_pos hn, hremove]
      refine ih hrest fun m hm => ?_
      have hne : path id n ≠ path id m := fun he => hnotMem (path_inj.1 he ▸ hm)
      rw [Disk.find?_erase (leaf_path id n).ne_root, if_neg hne]
      exact hfiles' m hm
    · rw [if_neg hn]
      exact ih hrest hfiles'

/-- A snapshot's file is put among those that are there. -/
theorem Shelves.place (h : Shelves d id shelf) (horderly : Orderly d) (hid : Usable id) {n : Nat}
    (hfits : n < UInt64.size) (c : Cart) :
    ∃ d', place (entityPath "snapshots" id) n (bytesOf (ofCart c n)) d = (.ok (), d') ∧ Orderly d' ∧
      Shelves d' id (shelf.insert ⟨c, n⟩) := by
  obtain ⟨d', hplace, horderly', -, hdirectory, hfind⟩ := place_ok horderly hid n (bytesOf (ofCart c n))
  have hmem := fun x => Shelf.mem_insert (x := ⟨c, n⟩) (y := x) h.ascending
  refine ⟨d', hplace, horderly', fun _ => hdirectory, fun x hx => ?_, fun {name} hname => ?_,
    Shelf.ascending_insert h.ascending _, fun k hk => ?_⟩
  · rw [hfind _ (leaf_path id _), if_neg (path_ne_temporaryPath id _ n)]
    rcases (hmem x).1 hx with rfl | ⟨hx, hne⟩
    · rw [if_pos rfl]
    · rw [if_neg fun he => hne (path_inj.1 he)]
      exact h.file x hx
  · have hnew : n ∈ (shelf.insert ⟨c, n⟩).numbers :=
      List.mem_map.2 ⟨⟨c, n⟩, (hmem _).2 (.inl rfl), rfl⟩
    rw [hfind _ (Layout.leaf_inEntity (by decide) id name)] at hname
    split at hname
    · cases hname
    · split at hname
      · next he =>
        obtain rfl : name = fileName n := (List.cons.inj (List.append_inj' he rfl).2).1
        exact List.mem_map_of_mem hnew
      · obtain ⟨k, hk, rfl⟩ := List.mem_map.1 (h.only hname)
        obtain ⟨x, hx, rfl⟩ := List.mem_map.1 hk
        refine List.mem_map_of_mem ?_
        by_cases hsame : x.sequenceNr = n
        · rw [hsame]
          exact hnew
        · exact List.mem_map_of_mem ((hmem x).2 (.inr ⟨hx, hsame⟩))
  · obtain ⟨x, hx, rfl⟩ := List.mem_map.1 hk
    rcases (hmem x).1 hx with rfl | ⟨hx, -⟩
    · exact hfits
    · exact h.fits _ (List.mem_map_of_mem hx)

/-- Files up to a number are removed from the shelf. -/
theorem Shelves.prune (h : Shelves d id shelf) (horderly : Orderly d) (upto : Nat) :
    ∃ d', prune (entityPath "snapshots" id) upto shelf.numbers.reverse d = (.ok (), d') ∧
      Shelves d' id (shelf.filter fun x => upto < x.sequenceNr) := by
  have hdistinct : shelf.numbers.reverse.Nodup := by
    unfold List.Nodup
    rw [List.pairwise_reverse]
    exact h.ascending.imp fun hlt => Nat.ne_of_gt hlt
  have hfiles : ∀ n ∈ shelf.numbers.reverse, ∃ bytes, d.find? (path id n) = some (.file bytes) := by
    intro n hn
    obtain ⟨x, hx, rfl⟩ := List.mem_map.1 (List.mem_reverse.1 hn)
    exact ⟨_, h.file x hx⟩
  obtain ⟨d', hprune⟩ := prune_ok hdistinct hfiles upto
  have hfind := find?_of_prune hprune
  obtain ⟨-, hgrown, hshrinks⟩ := prune_shrinks horderly id upto shelf.numbers.reverse
  rw [hprune] at hgrown hshrinks
  have hsublist : (Shelf.numbers (shelf.filter fun x => upto < x.sequenceNr)).Sublist shelf.numbers :=
    List.filter_sublist.map _
  refine ⟨d', hprune, fun hne => ?_, fun x hx => ?_, fun {name} hname => ?_, h.ascending.sublist hsublist,
    fun n hn => h.fits n (hsublist.subset hn)⟩
  · exact hgrown.directory (h.begun fun hnil => hne (by rw [hnil]; rfl))
  · obtain ⟨hx, hlater⟩ := List.mem_filter.1 hx
    rw [hfind, if_neg fun hgone => Nat.not_le.2 (of_decide_eq_true hlater) hgone.2]
    exact h.file x hx
  · obtain ⟨e, he⟩ := Option.isSome_iff_exists.1 hname
    obtain ⟨n, hn, rfl⟩ := List.mem_map.1 (h.only (by rw [hshrinks he]; rfl))
    obtain ⟨x, hx, rfl⟩ := List.mem_map.1 hn
    refine List.mem_map_of_mem (List.mem_map_of_mem (List.mem_filter.2 ⟨hx, decide_eq_true ?_⟩))
    have hleft := hfind x.sequenceNr
    rw [show d'.find? (path id x.sequenceNr) = some e from he] at hleft
    split at hleft
    · cases hleft
    · next hkept => exact Nat.not_le.1 fun hle => hkept ⟨List.mem_reverse.2 hn, hle⟩

/-- **A save leaves exactly what retention leaves**, at whatever number it is. -/
theorem Shelves.enter (h : Shelves d id shelf) (horderly : Orderly d) (hid : Usable id) {n : Nat}
    (hfits : n < UInt64.size) (c : Cart) (retention : Retention) :
    ∃ d', Durable.save d id (ofCart c n) retention = (.ok (), d') ∧ Shelves d' id (shelf.enter c n retention) := by
  obtain ⟨d₁, hplace, h₁, hshelf⟩ := h.place horderly hid hfits c
  obtain ⟨d₂, hprune, hshelf₂⟩ := hshelf.prune h₁ (retention.deleteUpto n)
  have hplace' : Durable.place (entityPath "snapshots" id) (ofCart c n).sequenceNr (bytesOf (ofCart c n)) d =
      (.ok (), d₁) := hplace
  refine ⟨d₂, ?_, hshelf₂⟩
  rw [Durable.save, Layout.snapshotDirectory, Layout.entityDirectory_ok hid]
  simp only [hplace', hshelf.list h₁ hid]
  exact hprune

theorem Shelves.save (h : Shelves d id shelf) (horderly : Orderly d) (hid : Usable id) {n : Nat}
    (hfits : n < UInt64.size) (hlater : ∀ x ∈ shelf, x.sequenceNr < n) (c : Cart) (retention : Retention) :
    Shelves (save d id (ofCart c n) retention).2 id (shelf.save c n retention) := by
  obtain ⟨d', hsave, hshelf⟩ := h.enter horderly hid hfits c retention
  rw [hsave, Shelf.save_eq_enter hlater]
  exact hshelf

/-- Another stream's shelf stays as it is. -/
theorem Shelves.save_aside {id' : StreamId} (h : Shelves d id' shelf) (horderly : Orderly d) (hne : id' ≠ id)
    (snapshot : Snapshot Json) (retention : Retention) :
    Shelves (Durable.save d id snapshot retention).2 id' shelf := by
  obtain ⟨-, hgrown, -⟩ := save_ok horderly id snapshot retention
  refine h.congr hgrown.directory fun name => ?_
  have helse : ∀ file, entityPath "snapshots" id' ++ [name] ≠ entityPath "snapshots" id ++ [file] :=
    fun file he => hne (Layout.entityPath_inj (List.append_inj' he rfl).1)
  by_cases hid : Usable id
  · obtain ⟨d₁, hplace, -, -, -, hfind⟩ := place_ok horderly hid snapshot.sequenceNr (bytesOf snapshot)
    have hsame : d₁.find? (entityPath "snapshots" id' ++ [name]) = d.find? (entityPath "snapshots" id' ++ [name]) := by
      have htemporary : entityPath "snapshots" id' ++ [name] ≠ temporaryPath id snapshot.sequenceNr := helse _
      have hpath : entityPath "snapshots" id' ++ [name] ≠ path id snapshot.sequenceNr := helse _
      rw [hfind _ (Layout.leaf_inEntity (by decide) id' name), if_neg htemporary, if_neg hpath]
    rw [Durable.save, Layout.snapshotDirectory, Layout.entityDirectory_ok hid]
    dsimp only
    rw [hplace]
    dsimp only
    split
    · exact hsame
    · rw [find?_prune fun n => helse (fileName n)]
      exact hsame
  · rw [Durable.save_unusable hid]

end Durable

end CartLedger.Snapshot
