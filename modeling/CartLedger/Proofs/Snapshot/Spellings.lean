import CartLedger.Proofs.Snapshot.Saving
import Mathlib.Data.List.Perm.Subperm
import Mathlib.Order.Bounds.Basic

/-! Files that a listing takes for snapshots.

A listing reads names back into numbers, and it reads more names than are ever written: a
plus sign or another count of zeros makes no difference to it. Pruning makes names of the numbers
again. Of a number that has two spellings it asks for one file twice, and of one
that is only misspelt it asks for a file that is not there. So a save goes through just when
no number that is to be discarded is misspelt; then it does all it should, whatever else is in the
directory. Otherwise it stops at the greatest such number and leaves those below it
(`prune_listed`, `save_cases`). -/
namespace CartLedger.Snapshot.Durable
open CartLedger.Json (Document)
open CartLedger.Storage
open CartLedger.Storage.Layout (Usable entityPath)

/-! ### Names -/

/-- A name that is read as a number, but is not the one written for it. -/
def Misspelt (n : Nat) (name : String) : Prop := sequenceNr? name = some n ∧ name ≠ fileName n

/-- How often a number is read from names of which no two are the same. -/
theorem count_filterMap_sequenceNr? {names : List String} (hnames : names.Nodup) {k : Nat} (hk : k < UInt64.size) :
    (names.filterMap sequenceNr?).count k = 1 ∧ fileName k ∈ names ↔
      k ∈ names.filterMap sequenceNr? ∧ ∀ name ∈ names, ¬ Misspelt k name := by
  have hcount : (names.filterMap sequenceNr?).count k = (names.filter (sequenceNr? · == some k)).length := by
    rw [List.count_filterMap, List.countP_eq_length_filter]
  have hreads : ∀ name, name ∈ names.filter (sequenceNr? · == some k) ↔ name ∈ names ∧ sequenceNr? name = some k := by
    simp [List.mem_filter]
  rw [hcount]
  constructor
  · rintro ⟨hone, hmem⟩
    obtain ⟨only, honly⟩ := List.length_eq_one_iff.1 hone
    have hself := (hreads (fileName k)).2 ⟨hmem, sequenceNr?_fileName hk⟩
    refine ⟨List.mem_filterMap.2 ⟨_, hmem, sequenceNr?_fileName hk⟩, fun name hname hmis => hmis.2 ?_⟩
    have hother := (hreads name).2 ⟨hname, hmis.1⟩
    rw [honly, List.mem_singleton] at hself hother
    rw [hother, hself]
  · rintro ⟨hlisted, hspelt⟩
    have hwritten : ∀ name ∈ names.filter (sequenceNr? · == some k), name = fileName k := fun name hname =>
      Decidable.byContradiction fun hne => hspelt name ((hreads name).1 hname).1 ⟨((hreads name).1 hname).2, hne⟩
    obtain ⟨name, hname, hread⟩ := List.mem_filterMap.1 hlisted
    have hmem := (hreads name).2 ⟨hname, hread⟩
    have hle := (List.subperm_of_subset (hnames.filter _) fun x hx =>
      List.mem_singleton.2 (hwritten x hx) : List.Subperm _ [fileName k]).length_le
    refine ⟨Nat.le_antisymm hle (List.length_pos_of_mem hmem), ?_⟩
    rwa [← hwritten name hmem]

/-! ### Directories of files -/

/-- What a stream's directory of snapshots has under a name. -/
def found (d : Disk) (id : StreamId) (name : String) : Option Entry := d.find? (entityPath "snapshots" id ++ [name])

/-- There is nothing but files in the directory, and no file is in the way to it. -/
structure FilesOnly (d : Disk) (id : StreamId) : Prop where
  distinct : d.Distinct
  clear : ∀ q, q <+: entityPath "snapshots" id → ∀ bytes, d.find? q ≠ some (.file bytes)
  files : ∀ name, found d id name ≠ some .directory

variable {d d' : Disk} {id : StreamId}

theorem found_ne_root (id : StreamId) (name : String) : entityPath "snapshots" id ++ [name] ≠ [] := by simp

theorem found_not_above (id : StreamId) (name : String) :
    ¬ entityPath "snapshots" id ++ [name] <+: entityPath "snapshots" id :=
  fun h => absurd h.length_le (by simp)

theorem found_inj {name name' : String} :
    entityPath "snapshots" id ++ [name] = entityPath "snapshots" id ++ [name'] ↔ name = name' := by simp

theorem found_erase (d : Disk) (id : StreamId) (name name' : String) :
    found (d.erase (entityPath "snapshots" id ++ [name])) id name' = if name = name' then none else found d id name' := by
  rw [found, Disk.find?_erase (found_ne_root id name)]
  simp only [found_inj]
  rfl

theorem found_put (d : Disk) (id : StreamId) (name name' : String) (e : Entry) :
    found (d.put (entityPath "snapshots" id ++ [name]) e) id name' = if name = name' then some e else found d id name' := by
  rw [found, Disk.find?_put (found_ne_root id name)]
  simp only [found_inj]
  rfl

namespace FilesOnly

theorem file_or_none (h : FilesOnly d id) (name : String) :
    (∃ bytes, found d id name = some (.file bytes)) ∨ found d id name = none := by
  cases hfound : found d id name with
  | none => exact .inr rfl
  | some e =>
    cases e with
    | file bytes => exact .inl ⟨bytes, rfl⟩
    | directory => exact absurd hfound (h.files name)

theorem throughFile (h : FilesOnly d id) {name : String} (hnone : found d id name = none) :
    d.throughFile (entityPath "snapshots" id ++ [name]) = false := by
  refine Disk.throughFile_eq_false fun q hq bytes => ?_
  obtain rfl | habove := List.prefix_concat_iff.1 hq
  · rw [show d.find? _ = none from hnone]
    exact fun he => by cases he
  · exact h.clear q habove bytes

theorem write (h : FilesOnly d id) (hdirectory : d.find? (entityPath "snapshots" id) = some .directory)
    (name : String) (bytes : List UInt8) :
    d.write (entityPath "snapshots" id ++ [name]) bytes = .ok (d.put (entityPath "snapshots" id ++ [name]) (.file bytes)) := by
  obtain ⟨old, hfile⟩ | hnone := h.file_or_none name
  · exact Disk.write_file hfile bytes
  · exact Disk.write_missing hnone (h.throughFile hnone) (by rwa [List.dropLast_concat]) bytes

theorem remove_error (h : FilesOnly d id) {name : String} {t : Trouble}
    (hremove : d.remove (entityPath "snapshots" id ++ [name]) = .error t) : t = .missing ∧ found d id name = none := by
  obtain ⟨bytes, hfile⟩ | hnone := h.file_or_none name
  · rw [Disk.remove_file hfile] at hremove
    cases hremove
  · rw [Disk.remove, Disk.read_missing hnone (h.throughFile hnone)] at hremove
    exact ⟨(Except.error.inj hremove).symm, hnone⟩

theorem put (h : FilesOnly d id) (name : String) (bytes : List UInt8) :
    FilesOnly (d.put (entityPath "snapshots" id ++ [name]) (.file bytes)) id where
  distinct := h.distinct.put _ _
  clear q hq bytes' := by
    have hne : entityPath "snapshots" id ++ [name] ≠ q := fun he => found_not_above id name (he ▸ hq)
    rw [Disk.find?_put (found_ne_root id name), if_neg hne]
    exact h.clear q hq bytes'
  files name' := by
    rw [found_put]
    split
    · exact fun he => by cases he
    · exact h.files name'

theorem erase (h : FilesOnly d id) (name : String) : FilesOnly (d.erase (entityPath "snapshots" id ++ [name])) id where
  distinct := h.distinct.erase _
  clear q hq bytes := by
    have hne : entityPath "snapshots" id ++ [name] ≠ q := fun he => found_not_above id name (he ▸ hq)
    rw [Disk.find?_erase (found_ne_root id name), if_neg hne]
    exact h.clear q hq bytes
  files name' := by
    rw [found_erase]
    split
    · exact fun he => by cases he
    · exact h.files name'

/-- Its own directory is made if it is missing. -/
theorem makeDirectories (h : FilesOnly d id) :
    ∃ d', d.makeDirectories (entityPath "snapshots" id) = .ok d' ∧ FilesOnly d' id := by
  refine ⟨_, Disk.makeDirectories_ok (Disk.throughFile_eq_false h.clear), h.distinct.withDirectories _, ?_, ?_⟩
  · intro q hq bytes
    rw [Disk.find?_withDirectories]
    cases hfind : d.find? q with
    | some e => exact fun he => h.clear q hq bytes (hfind.trans he)
    | none =>
      rw [Option.none_or]
      split <;> exact fun he => by cases he
  · intro name
    rw [found, Disk.find?_withDirectories, if_neg fun hmem => found_not_above id name (Disk.mem_stations.1 hmem),
      Option.or_none]
    exact h.files name

theorem prune (h : FilesOnly d id) (upto : Nat) (numbers : List Nat) :
    FilesOnly (prune (entityPath "snapshots" id) upto numbers d).2 id := by
  induction numbers generalizing d with
  | nil => exact h
  | cons n rest ih =>
    unfold Durable.prune
    split
    · split
      · exact h
      · next hremove =>
        obtain rfl := Disk.remove_ok hremove
        exact ih (h.erase (fileName n))
    · exact ih h

end FilesOnly

/-- A disk with nothing but an empty directory for a stream's snapshots. -/
def bare (id : StreamId) : Disk := Disk.withDirectories .empty (Disk.stations (entityPath "snapshots" id))

theorem found_bare (id : StreamId) (name : String) : found (bare id) id name = none := by
  rw [found, bare, Disk.find?_withDirectories, if_neg fun hmem => found_not_above id name (Disk.mem_stations.1 hmem),
    Disk.find?_empty (found_ne_root id name)]
  rfl

theorem filesOnly_bare (id : StreamId) : FilesOnly (bare id) id where
  distinct := Disk.distinct_empty.withDirectories _
  clear q hq bytes := by
    rw [bare, Disk.find?_withDirectories, if_pos (Disk.mem_stations.2 hq)]
    by_cases hroot : q = []
    · rw [hroot, Disk.find?_root]
      exact fun he => by cases he
    · rw [Disk.find?_empty hroot]
      exact fun he => by cases he
  files name := by
    rw [found_bare]
    exact fun he => by cases he

/-- The disk with a file in the stream's directory. -/
def withFile (d : Disk) (id : StreamId) (name : String) (bytes : List UInt8) : Disk :=
  d.put (entityPath "snapshots" id ++ [name]) (.file bytes)

theorem found_withFile_isSome {name name' : String} {bytes : List UInt8} :
    (found (withFile d id name bytes) id name').isSome ↔ name = name' ∨ (found d id name').isSome := by
  rw [withFile, found_put]
  split <;> simp [*]

/-- A file is put in place whatever files are there already. -/
theorem place_files (h : FilesOnly d id) (n : Nat) (bytes : List UInt8) :
    ∃ d', place (entityPath "snapshots" id) n bytes d = (.ok (), d') ∧ FilesOnly d' id ∧
      d'.find? (entityPath "snapshots" id) = some .directory ∧ found d' id (temporaryName n) = none ∧
      ∀ q, ¬ q <+: entityPath "snapshots" id → q ≠ temporaryPath id n →
        d'.find? q = if q = path id n then some (.file bytes) else d.find? q := by
  obtain ⟨d₁, hmake, h₁⟩ := h.makeDirectories
  have hdirectory₁ := Disk.find?_of_make hmake
  have htemporary := (leaf_temporaryPath id n).ne_root
  have hpath := (leaf_path id n).ne_root
  have hwrite : d₁.write (temporaryPath id n) bytes = .ok (d₁.put (temporaryPath id n) (.file bytes)) :=
    h₁.write hdirectory₁ (temporaryName n) bytes
  have h₂ : FilesOnly (d₁.put (temporaryPath id n) (.file bytes)) id := h₁.put (temporaryName n) bytes
  have hread : (d₁.put (temporaryPath id n) (.file bytes)).find? (temporaryPath id n) = some (.file bytes) :=
    (Disk.find?_put htemporary _ _).trans (if_pos rfl)
  have hdirectory₂ : (d₁.put (temporaryPath id n) (.file bytes)).find? (entityPath "snapshots" id) = some .directory := by
    rw [Disk.find?_put htemporary, if_neg (temporaryPath_ne_directory id n), hdirectory₁]
  have hwrite₂ : (d₁.put (temporaryPath id n) (.file bytes)).write (path id n) bytes = .ok _ :=
    h₂.write hdirectory₂ (fileName n) bytes
  have hrename : (d₁.put (temporaryPath id n) (.file bytes)).rename (temporaryPath id n) (path id n) =
      .ok (((d₁.put (temporaryPath id n) (.file bytes)).put (path id n) (.file bytes)).erase (temporaryPath id n)) := by
    rw [Disk.rename, Disk.read_file hread]
    dsimp only
    rw [hwrite₂]
    rfl
  have hfind : ∀ q, q ≠ temporaryPath id n → _ = if q = path id n then some (.file bytes) else d₁.find? q :=
    fun _ => Disk.find?_of_write_rename htemporary hpath hwrite hrename
  refine ⟨_, ?_, (h₂.put (fileName n) bytes).erase (temporaryName n), ?_, ?_, fun q hq hne => ?_⟩
  · simp only [path, temporaryPath] at hwrite hrename
    simp only [place, hmake, hwrite, hrename]
    rfl
  · have hself := hfind _ (temporaryPath_ne_directory id n).symm
    rw [if_neg (path_ne_directory id n).symm] at hself
    exact hself.trans hdirectory₁
  · rw [found_erase, if_pos rfl]
  · rw [← Disk.find?_beside_make hmake hq]
    exact hfind q hne

/-! ### Listings -/

/-- A number up to a bound is misspelt in the directory. -/
def Snag (d : Disk) (id : StreamId) (upto m : Nat) : Prop :=
  m ≤ upto ∧ ∃ name, (found d id name).isSome ∧ Misspelt m name

/-- What a listing tells: of each number that it is there, and whether its own file is all there is of it. -/
structure Listing (d : Disk) (id : StreamId) (numbers : List Nat) : Prop where
  listed : list d (entityPath "snapshots" id) = .ok numbers
  descending : numbers.Pairwise (fun a b => b ≤ a)
  mem : ∀ k, k ∈ numbers ↔ ∃ name, (found d id name).isSome ∧ sequenceNr? name = some k
  sole : ∀ k < UInt64.size, numbers.count k = 1 ∧ (found d id (fileName k)).isSome ↔
    k ∈ numbers ∧ ∀ name, (found d id name).isSome → ¬ Misspelt k name

theorem FilesOnly.listing (h : FilesOnly d id)
    (hdirectory : d.find? (entityPath "snapshots" id) = some .directory) : ∃ numbers, Listing d id numbers := by
  obtain ⟨numbers, hlist, hdescending, hperm⟩ := list_directory hdirectory
  have hnames := Disk.nodup_filterMap_nameIn (p := entityPath "snapshots" id) h.distinct
  have hmem : ∀ name, name ∈ d.entries.filterMap (Disk.nameIn (entityPath "snapshots" id)) ↔ (found d id name).isSome :=
    fun _ => Disk.mem_filterMap_nameIn
  refine ⟨numbers, hlist, hdescending, fun k => hperm.mem_iff.trans mem_numbersIn, fun k hk => ?_⟩
  rw [hperm.count_eq, hperm.mem_iff, ← hmem, numbersIn, count_filterMap_sequenceNr? hnames hk]
  simp only [hmem]

/-! ### Pruning -/

/-- Pruning goes through, or up to a file that cannot be removed. -/
theorem prune_cases (directory : Path) (upto : Nat) (numbers : List Nat) (d : Disk) :
    (∃ d', prune directory upto numbers d = (.ok (), d')) ∨
      ∃ front m rest t d', numbers = front ++ m :: rest ∧ m ≤ upto ∧ prune directory upto front d = (.ok (), d') ∧
        d'.remove (directory ++ [fileName m]) = .error t ∧ prune directory upto numbers d = (.error (.system t), d') := by
  induction numbers generalizing d with
  | nil => exact .inl ⟨d, rfl⟩
  | cons n rest ih =>
    -- The first number is the one, or it makes no difference to what happens to the others.
    have hfirst : (∃ t, n ≤ upto ∧ d.remove (directory ++ [fileName n]) = .error t) ∨
        ∃ d₁, ∀ others, prune directory upto (n :: others) d = prune directory upto others d₁ := by
      by_cases hn : n ≤ upto
      · cases hremove : d.remove (directory ++ [fileName n]) with
        | error t => exact .inl ⟨t, hn, rfl⟩
        | ok d₁ => exact .inr ⟨d₁, fun others => by rw [prune, if_pos hn, hremove]⟩
      · exact .inr ⟨d, fun others => by rw [prune, if_neg hn]⟩
    obtain ⟨t, hn, hremove⟩ | ⟨d₁, hstep⟩ := hfirst
    · exact .inr ⟨[], n, rest, t, d, rfl, hn, rfl, hremove, by rw [prune, if_pos hn, hremove]⟩
    · obtain ⟨d', hrest⟩ | ⟨front, m, behind, t, d', rfl, hm, hfront, hremove, hrest⟩ := ih d₁
      · exact .inl ⟨d', (hstep rest).trans hrest⟩
      · exact .inr ⟨n :: front, m, behind, t, d', rfl, hm, (hstep front).trans hfront, hremove,
          (hstep _).trans hrest⟩

variable {upto : Nat} {numbers : List Nat}

/-- Numbers of which all files were removed had one file each. -/
theorem sole_of_prune (h : prune (entityPath "snapshots" id) upto numbers d = (.ok (), d')) {k : Nat}
    (hk : k ∈ numbers) (hle : k ≤ upto) : numbers.count k = 1 ∧ (found d id (fileName k)).isSome := by
  induction numbers generalizing d with
  | nil => exact absurd hk List.not_mem_nil
  | cons m rest ih =>
    rw [prune] at h
    by_cases hm : m ≤ upto
    · rw [if_pos hm] at h
      split at h
      · cases h
      · next d₁ hremove =>
        obtain ⟨bytes, hfile⟩ := Disk.file_of_remove hremove
        obtain rfl := Disk.remove_ok hremove
        by_cases hrest : k ∈ rest
        · obtain ⟨hcount, hfound⟩ := ih h hrest
          rw [found_erase] at hfound
          split at hfound
          · cases hfound
          · next hne =>
            have hother : m ≠ k := fun he => hne (congrArg fileName he)
            exact ⟨by rwa [List.count_cons_of_ne hother], hfound⟩
        · obtain rfl := (List.mem_cons.1 hk).resolve_right hrest
          refine ⟨by rw [List.count_cons_self, List.count_eq_zero_of_not_mem hrest], ?_⟩
          rw [found, hfile]
          rfl
    · rw [if_neg hm] at h
      have hne : k ≠ m := fun he => hm (he ▸ hle)
      obtain ⟨hcount, hfound⟩ := ih h ((List.mem_cons.1 hk).resolve_left hne)
      exact ⟨by rwa [List.count_cons_of_ne (Ne.symm hne)], hfound⟩

/-- What is left of the directory. -/
theorem found_of_prune (h : prune (entityPath "snapshots" id) upto numbers d = (.ok (), d')) (name : String) :
    ((∃ k ∈ numbers, k ≤ upto ∧ name = fileName k) → found d' id name = none) ∧
      ((∀ k ∈ numbers, k ≤ upto → name ≠ fileName k) → found d' id name = found d id name) := by
  have hpath := find?_of_prune h
  constructor
  · rintro ⟨k, hk, hle, rfl⟩
    exact (hpath k).trans (if_pos ⟨hk, hle⟩)
  · intro hother
    by_cases hname : ∃ k, name = fileName k
    · obtain ⟨k, rfl⟩ := hname
      exact (hpath k).trans (if_neg fun hgone => hother k hgone.1 hgone.2 rfl)
    · have hpath : ∀ k, entityPath "snapshots" id ++ [name] ≠ path id k := fun k he => hname ⟨k, found_inj.1 he⟩
      have hbeside := find?_prune hpath upto numbers d
      rwa [h] at hbeside

/-- Of two disks the second is without some of the first one's files. -/
structure Rid (d d' : Disk) (id : StreamId) (discarded : String → Prop) : Prop where
  gone : ∀ name, discarded name → found d' id name = none
  kept : ∀ name, ¬ discarded name → found d' id name = found d id name

namespace Listing
variable {front rest : List Nat} {m : Nat}

/-- Where pruning goes through, no number was misspelt, -/
theorem no_snag (h : Listing d id numbers) (hupto : upto < UInt64.size)
    (hprune : prune (entityPath "snapshots" id) upto numbers d = (.ok (), d')) (k : Nat) : ¬ Snag d id upto k := by
  rintro ⟨hle, name, hname, hmis⟩
  have hlisted := (h.mem k).2 ⟨name, hname, hmis.1⟩
  exact ((h.sole k (Nat.lt_of_le_of_lt hle hupto)).1 (sole_of_prune hprune hlisted hle)).2 name hname hmis

/-- and whatever is read as a number up to the bound is gone. -/
theorem rid_all (h : Listing d id numbers) (hupto : upto < UInt64.size)
    (hprune : prune (entityPath "snapshots" id) upto numbers d = (.ok (), d')) :
    Rid d d' id fun name => ∃ k, sequenceNr? name = some k ∧ k ≤ upto where
  gone name := by
    rintro ⟨k, hread, hle⟩
    by_cases hgone : ∃ k ∈ numbers, k ≤ upto ∧ name = fileName k
    · exact (found_of_prune hprune name).1 hgone
    · rw [(found_of_prune hprune name).2 fun k hk hle he => hgone ⟨k, hk, hle, he⟩, ← Option.not_isSome_iff_eq_none]
      intro hthere
      refine hgone ⟨k, (h.mem k).2 ⟨name, hthere, hread⟩, hle, Decidable.byContradiction fun hne => ?_⟩
      exact h.no_snag hupto hprune k ⟨hle, name, hthere, hread, hne⟩
  kept name hname := by
    refine (found_of_prune hprune name).2 fun k _ hle he => hname ⟨k, ?_, hle⟩
    rw [he, sequenceNr?_fileName (Nat.lt_of_le_of_lt hle hupto)]

/-- Behind a number come those that are not greater. -/
theorem le_of_mem_rest (h : Listing d id (front ++ m :: rest)) : ∀ k ∈ m :: rest, k ≤ m :=
  List.forall_mem_cons.2 ⟨Nat.le_refl m, (List.pairwise_cons.1 (List.pairwise_append.1 h.descending).2.1).1⟩

/-- The file of a number is not there when its turn comes: it has another spelling, -/
theorem snag_of_gone (h : Listing d id (front ++ m :: rest)) (hupto : upto < UInt64.size) (hm : m ≤ upto)
    (hfront : prune (entityPath "snapshots" id) upto front d = (.ok (), d'))
    (hgone : found d' id (fileName m) = none) : Snag d id upto m := by
  refine ⟨hm, Classical.byContradiction fun hnone => ?_⟩
  have hlisted : m ∈ front ++ m :: rest := List.mem_append_right _ (List.mem_cons_self ..)
  obtain ⟨hcount, hthere⟩ := (h.sole m (Nat.lt_of_le_of_lt hm hupto)).2
    ⟨hlisted, fun name hname hmis => hnone ⟨name, hname, hmis⟩⟩
  rw [List.count_append, List.count_cons_self] at hcount
  have habsent : m ∉ front := List.count_eq_zero.1 (by omega)
  rw [← (found_of_prune hfront (fileName m)).2 fun k hk _ he => habsent (fileName_inj he ▸ hk), hgone] at hthere
  cases hthere

/-- and no greater number has, -/
theorem le_of_snag (h : Listing d id (front ++ m :: rest)) (hupto : upto < UInt64.size)
    (hfront : prune (entityPath "snapshots" id) upto front d = (.ok (), d')) {k : Nat} (hk : Snag d id upto k) :
    k ≤ m := by
  refine Nat.not_lt.1 fun hlt => ?_
  obtain ⟨hle, name, hname, hmis⟩ := hk
  have hlater : k ∉ m :: rest := fun hk => Nat.not_le.2 hlt (h.le_of_mem_rest k hk)
  have hlisted : k ∈ front := (List.mem_append.1 ((h.mem k).2 ⟨name, hname, hmis.1⟩)).resolve_right hlater
  obtain ⟨hcount, hthere⟩ := sole_of_prune hfront hlisted hle
  have hall : (front ++ m :: rest).count k = 1 := by
    rw [List.count_append, hcount, List.count_eq_zero_of_not_mem hlater]
  exact ((h.sole k (Nat.lt_of_le_of_lt hle hupto)).1 ⟨hall, hthere⟩).2 name hname hmis

/-- so that the files from there up to the bound are gone, and no others. -/
theorem rid_from (h : Listing d id (front ++ m :: rest)) (hupto : upto < UInt64.size)
    (hfront : prune (entityPath "snapshots" id) upto front d = (.ok (), d'))
    (hgone : found d' id (fileName m) = none) :
    Rid d d' id fun name => ∃ k, m ≤ k ∧ k ≤ upto ∧ name = fileName k where
  gone name := by
    rintro ⟨k, hmk, hle, rfl⟩
    by_cases hlisted : k ∈ front
    · exact (found_of_prune hfront _).1 ⟨k, hlisted, hle, rfl⟩
    · by_cases he : k = m
      · rw [he, hgone]
      · -- It is above all that are left, so it is not there at all.
        rw [(found_of_prune hfront (fileName k)).2 fun k' hk' _ he' => hlisted (fileName_inj he' ▸ hk'),
          ← Option.not_isSome_iff_eq_none]
        intro hthere
        have hk := (h.mem k).2 ⟨_, hthere, sequenceNr?_fileName (Nat.lt_of_le_of_lt hle hupto)⟩
        exact he (Nat.le_antisymm (h.le_of_mem_rest k ((List.mem_append.1 hk).resolve_left hlisted)) hmk)
  kept name hname := by
    have hbefore := (List.pairwise_append.1 h.descending).2.2
    exact (found_of_prune hfront name).2 fun k hk hle he =>
      hname ⟨k, hbefore k hk m (List.mem_cons_self ..), hle, he⟩

end Listing

/-- **What pruning by a listing does.** -/
theorem prune_listed (h : FilesOnly d id) (hlisting : Listing d id numbers) (hupto : upto < UInt64.size) :
    ((∀ m, ¬ Snag d id upto m) ∧ ∃ d', prune (entityPath "snapshots" id) upto numbers d = (.ok (), d') ∧
        Rid d d' id fun name => ∃ k, sequenceNr? name = some k ∧ k ≤ upto) ∨
      ∃ m, IsGreatest {k | Snag d id upto k} m ∧
        ∃ d', prune (entityPath "snapshots" id) upto numbers d = (.error (.system .missing), d') ∧
          Rid d d' id fun name => ∃ k, m ≤ k ∧ k ≤ upto ∧ name = fileName k := by
  obtain ⟨d', hprune⟩ | ⟨front, m, rest, t, d', rfl, hm, hfront, hremove, hprune⟩ :=
    prune_cases (entityPath "snapshots" id) upto numbers d
  · exact .inl ⟨hlisting.no_snag hupto hprune, d', hprune, hlisting.rid_all hupto hprune⟩
  · have hfiles := h.prune upto front
    rw [hfront] at hfiles
    obtain ⟨rfl, hgone⟩ := hfiles.remove_error hremove
    have hsnag := hlisting.snag_of_gone hupto hm hfront hgone
    exact .inr ⟨m, ⟨hsnag, fun k hk => hlisting.le_of_snag hupto hfront hk⟩, d', hprune,
      hlisting.rid_from hupto hfront hgone⟩

/-! ### Saving -/

/-- What a save of `c` at `n` has done to a directory of files that is rid of those to discard. -/
structure Left (d d' : Disk) (id : StreamId) (c : Cart) (n : Nat) (discarded : String → Prop) : Prop where
  /-- The new snapshot's file holds it, -/
  saved : ∃ bytes, found d' id (fileName n) = some (.file bytes) ∧
    (Document.ofBytes bytes).decode (Snapshot.decoder Cart.decoder) = .ok ⟨c, n⟩
  /-- and that was its temporary file, whatever was there by that name. -/
  temporary : found d' id (temporaryName n) = none
  gone : ∀ name, discarded name → found d' id name = none
  kept : ∀ name, name ≠ fileName n → name ≠ temporaryName n → ¬ discarded name → found d' id name = found d id name
  elsewhere : ∀ q, ¬ q <+: entityPath "snapshots" id → (∀ name, q ≠ entityPath "snapshots" id ++ [name]) →
    d'.find? q = d.find? q

variable {c : Cart} {n : Nat}

/-- What was put in place stays unless it is itself discarded. -/
theorem Rid.left {d₁ d₂ : Disk} {discarded : String → Prop} (h : Rid d₁ d₂ id discarded) (hnew : ¬ discarded (fileName n))
    (hfits : n < UInt64.size) (htemporary : found d₁ id (temporaryName n) = none)
    (hplaced : ∀ q, ¬ q <+: entityPath "snapshots" id → q ≠ temporaryPath id n →
      d₁.find? q = if q = path id n then some (.file (bytesOf (ofCart c n))) else d.find? q)
    (hpruned : ∀ q, (∀ k, q ≠ path id k) → d₂.find? q = d₁.find? q) : Left d d₂ id c n discarded where
  saved := by
    refine ⟨bytesOf (ofCart c n), ?_, decode_pretty c hfits⟩
    rw [h.kept _ hnew, found, hplaced _ (found_not_above id _) (path_ne_temporaryPath id n n), path, if_pos rfl]
  temporary := by
    by_cases hdiscarded : discarded (temporaryName n)
    · exact h.gone _ hdiscarded
    · rw [h.kept _ hdiscarded, htemporary]
  gone := h.gone
  kept name hname htemporary hdiscarded := by
    have hpath : entityPath "snapshots" id ++ [name] ≠ path id n := fun he => hname (found_inj.1 he)
    rw [h.kept name hdiscarded, found, hplaced _ (found_not_above id name) fun he => htemporary (found_inj.1 he),
      if_neg hpath]
    rfl
  elsewhere q habove hbeside := by
    have hpath : q ≠ path id n := hbeside _
    rw [hpruned q fun k => hbeside (fileName k), hplaced q habove (hbeside _), if_neg hpath]

/-- Which numbers are misspelt is a matter of the files of which the names are read. -/
theorem snag_congr (h : ∀ name k, sequenceNr? name = some k → k ≤ upto → found d' id name = found d id name) (m : Nat) :
    Snag d' id upto m ↔ Snag d id upto m := by
  unfold Snag Misspelt
  refine and_congr_right fun hle => exists_congr fun name => and_congr_left fun hmis => ?_
  rw [h name m hmis.1 hle]

/-- **What a save among other files does**: either no number that is to be discarded is misspelt
and the save goes through, or it stops at the greatest one that is. -/
theorem save_cases (hid : Usable id) (h : FilesOnly d id) (c : Cart) (hfits : n < UInt64.size) {retention : Retention}
    (hupto : retention.deleteUpto n < n) :
    ((∀ m, ¬ Snag d id (retention.deleteUpto n) m) ∧ ∃ d', save d id (ofCart c n) retention = (.ok (), d') ∧
        Left d d' id c n fun name => ∃ k, sequenceNr? name = some k ∧ k ≤ retention.deleteUpto n) ∨
      ∃ m, IsGreatest {k | Snag d id (retention.deleteUpto n) k} m ∧
        ∃ d', save d id (ofCart c n) retention = (.error (.system .missing), d') ∧
          Left d d' id c n fun name => ∃ k, m ≤ k ∧ k ≤ retention.deleteUpto n ∧ name = fileName k := by
  obtain ⟨d₁, hplace, hfiles, hdirectory, htemporary, hplaced⟩ := place_files h n (bytesOf (ofCart c n))
  obtain ⟨numbers, hlisting⟩ := hfiles.listing hdirectory
  have hsave : save d id (ofCart c n) retention =
      prune (entityPath "snapshots" id) (retention.deleteUpto n) numbers d₁ := by
    have hplace' : place (entityPath "snapshots" id) (ofCart c n).sequenceNr (bytesOf (ofCart c n)) d = (.ok (), d₁) := hplace
    rw [save, Layout.snapshotDirectory, Layout.entityDirectory_ok hid]
    simp only [hplace', hlisting.listed]
    rfl
  have hsnag : ∀ m, Snag d₁ id (retention.deleteUpto n) m ↔ Snag d id (retention.deleteUpto n) m := by
    refine snag_congr fun name k hread hle => ?_
    have hname : name ≠ fileName n := fun he => by
      rw [he, sequenceNr?_fileName hfits] at hread
      exact absurd (Option.some.inj hread) (Nat.ne_of_gt (Nat.lt_of_le_of_lt hle hupto))
    have htemporary : name ≠ temporaryName n := fun he => by
      rw [he, temporaryName, sequenceNr?_temporary] at hread
      cases hread
    have hpath : entityPath "snapshots" id ++ [name] ≠ path id n := fun he => hname (found_inj.1 he)
    rw [found, hplaced _ (found_not_above id name) fun he => htemporary (found_inj.1 he), if_neg hpath]
    rfl
  have hpruned : ∀ q, (∀ k, q ≠ path id k) →
      (prune (entityPath "snapshots" id) (retention.deleteUpto n) numbers d₁).2.find? q = d₁.find? q :=
    fun q hq => find?_prune hq _ numbers d₁
  simp only [hsave, ← hsnag]
  obtain ⟨hnone, d', hprune, hrid⟩ | ⟨m, hm, d', hprune, hrid⟩ :=
    prune_listed hfiles hlisting (Nat.lt_trans hupto hfits)
  · rw [hprune] at hpruned
    refine .inl ⟨hnone, d', hprune, hrid.left ?_ hfits htemporary hplaced hpruned⟩
    rintro ⟨k, hread, hle⟩
    rw [sequenceNr?_fileName hfits] at hread
    exact absurd hle (Option.some.inj hread ▸ Nat.not_le.2 hupto)
  · rw [hprune] at hpruned
    refine .inr ⟨m, hm, d', hprune, hrid.left ?_ hfits htemporary hplaced hpruned⟩
    rintro ⟨k, -, hle, he⟩
    exact absurd hle (fileName_inj he ▸ Nat.not_le.2 hupto)

/-- A save goes through, and of the files that were there just those are gone of which the names
are read as numbers to be discarded. -/
def Tolerates (d : Disk) (id : StreamId) (c : Cart) (n : Nat) (retention : Retention) : Prop :=
  ∃ d', save d id (ofCart c n) retention = (.ok (), d') ∧
    Left d d' id c n fun name => ∃ k, sequenceNr? name = some k ∧ k ≤ retention.deleteUpto n

/-- **A save tolerates other files just when none misspells a number that is to be discarded.** If
some do, then the greatest of their numbers stops it: the snapshot was saved by then, and
of the others those are gone that lie from there up to the bound. -/
theorem tolerated_unless_misspelt (hid : Usable id) (h : FilesOnly d id) (c : Cart) (hfits : n < UInt64.size)
    (hn : n ≠ 0) {retention : Retention} (hevery : retention.every ≠ 0) :
    (Tolerates d id c n retention ↔ ∀ m, ¬ Snag d id (retention.deleteUpto n) m) ∧
      ∀ m, IsGreatest {k | Snag d id (retention.deleteUpto n) k} m →
        ∃ d', save d id (ofCart c n) retention = (.error (.system .missing), d') ∧
          Left d d' id c n fun name => ∃ k, m ≤ k ∧ k ≤ retention.deleteUpto n ∧ name = fileName k := by
  obtain ⟨hnone, hsaved⟩ | ⟨m, hm, d', hstopped⟩ :=
    save_cases hid h c hfits (Retention.deleteUpto_lt_iff.2 ⟨hevery, hn⟩)
  · exact ⟨⟨fun _ => hnone, fun _ => hsaved⟩, fun m hm => absurd hm.1 (hnone m)⟩
  · refine ⟨⟨fun ⟨d', hsaved, _⟩ => ?_, fun hnone => absurd hm.1 (hnone m)⟩, fun m' hm' => ?_⟩
    · rw [hstopped.1] at hsaved
      cases hsaved
    · obtain rfl := hm'.unique hm
      exact ⟨d', hstopped⟩

/-- A misspelt number above the bound, and a file without a number. -/
def foreign : Disk :=
  withFile (withFile (bare (.ofCart "a")) (.ofCart "a") "snapshot-+200.json" []) (.ofCart "a") "notes" []

/-- Neither is a hindrance to a save. -/
theorem saved_beside_foreign_files :
    Usable (.ofCart "a") ∧ FilesOnly foreign (.ofCart "a") ∧ Tolerates foreign (.ofCart "a") .empty 300 .standard := by
  have hid : Usable (.ofCart "a") := by decide
  have hfiles : FilesOnly foreign (.ofCart "a") :=
    ((filesOnly_bare (.ofCart "a")).put "snapshot-+200.json" []).put "notes" []
  refine ⟨hid, hfiles, (tolerated_unless_misspelt hid hfiles .empty (by decide) (by decide) (by decide)).1.2 ?_⟩
  rintro m ⟨hle, name, hthere, hmis, -⟩
  rw [foreign, found_withFile_isSome, found_withFile_isSome, found_bare] at hthere
  obtain rfl | rfl | hnone := hthere
  · have hread : sequenceNr? "notes" = none := by decide
    rw [hread] at hmis
    cases hmis
  · have hread : sequenceNr? "snapshot-+200.json" = some 200 := by decide
    obtain rfl := Option.some.inj (hread.symm.trans hmis)
    exact absurd hle (by decide)
  · cases hnone

/-- The number of a snapshot to be discarded, without its zeros. -/
def stray : Disk := withFile (bare (.ofCart "a")) (.ofCart "a") "snapshot-5.json" []

/-- That stops a save. -/
theorem save_stopped_by_stray :
    ¬ ∀ (d : Disk) (id : StreamId) (c : Cart) (n : Nat) (retention : Retention), Usable id → FilesOnly d id →
      n < UInt64.size → n ≠ 0 → retention.every ≠ 0 → Tolerates d id c n retention := by
  intro hclaim
  have hid : Usable (.ofCart "a") := by decide
  have hfiles : FilesOnly stray (.ofCart "a") := (filesOnly_bare (.ofCart "a")).put "snapshot-5.json" []
  obtain ⟨d', hsave, -⟩ := hclaim stray (.ofCart "a") .empty 300 .standard hid hfiles (by decide) (by decide) (by decide)
  have hupto : Retention.standard.deleteUpto 300 < 300 := by decide
  obtain ⟨hnone, -⟩ | ⟨m, -, d'', hstopped, -⟩ := save_cases hid hfiles .empty (by decide) hupto
  · refine hnone 5 ⟨by decide, "snapshot-5.json", found_withFile_isSome.2 (.inl rfl), by decide, by decide⟩
  · rw [hstopped] at hsave
    cases hsave

end CartLedger.Snapshot.Durable
