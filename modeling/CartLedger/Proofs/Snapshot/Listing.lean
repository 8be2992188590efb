import CartLedger.Proofs.Snapshot.Names
import CartLedger.Proofs.Storage.Disk
import CartLedger.Proofs.Text.Utf8
import Mathlib.Data.List.Sort
import Mathlib.Data.Set.Insert

/-! What a listing of snapshots shows.

A listing reads the names in a directory as numbers and sorts what it read, the latest first
(`list_directory`). What is in the files makes no difference to it. Where there are only files of
snapshots and temporary ones, no two names are read as one number, so that a listing
shows each number once (`FilesOf.list`). -/
namespace CartLedger.Snapshot.Durable
open CartLedger.Storage
open CartLedger.Text.Utf8 (ofString ofString_lt_iff)

variable {d : Disk} {directory : Path}

/-- The numbers that names in a directory are read as, in no particular order. -/
def numbersIn (d : Disk) (directory : Path) : List Nat :=
  (d.entries.filterMap (Disk.nameIn directory)).filterMap sequenceNr?

theorem mem_numbersIn {n : Nat} :
    n ∈ numbersIn d directory ↔ ∃ name, (d.find? (directory ++ [name])).isSome ∧ sequenceNr? name = some n := by
  rw [numbersIn, List.mem_filterMap]
  simp only [Disk.mem_filterMap_nameIn]

theorem list_directory (h : d.find? directory = some .directory) :
    ∃ numbers, list d directory = .ok numbers ∧ numbers.Pairwise (fun a b => b ≤ a) ∧
      numbers.Perm (numbersIn d directory) := by
  refine ⟨_, ?_, List.pairwise_mergeSort' (· ≥ ·) _, List.mergeSort_perm _ _⟩
  rw [list, Disk.names_ok h]
  rfl

/-- A directory has the files of these numbers, and besides them only temporary ones. Nothing is
asked of what they hold. -/
structure FilesOf (d : Disk) (directory : Path) (numbers : Set Nat) : Prop where
  distinct : d.Distinct
  begun : d.find? directory = some .directory
  fits : ∀ n ∈ numbers, n < UInt64.size
  file : ∀ n ∈ numbers, (d.find? (directory ++ [fileName n])).isSome
  only : ∀ name, (d.find? (directory ++ [name])).isSome →
    (∃ n ∈ numbers, name = fileName n) ∨ ∃ stem, name = stem ++ ".tmp"

namespace FilesOf
variable {numbers : Set Nat}

/-- Whatever is read as a number is the file of that number. -/
theorem read (h : FilesOf d directory numbers) {name : String} {n : Nat}
    (hthere : (d.find? (directory ++ [name])).isSome) (hread : sequenceNr? name = some n) :
    n ∈ numbers ∧ name = fileName n := by
  obtain ⟨m, hm, rfl⟩ | ⟨stem, rfl⟩ := h.only name hthere
  · rw [sequenceNr?_fileName (h.fits m hm)] at hread
    obtain rfl := Option.some.inj hread
    exact ⟨hm, rfl⟩
  · rw [sequenceNr?_temporary] at hread
    cases hread

theorem mem_numbersIn_iff (h : FilesOf d directory numbers) {n : Nat} : n ∈ numbersIn d directory ↔ n ∈ numbers := by
  rw [mem_numbersIn]
  constructor
  · rintro ⟨name, hthere, hread⟩
    exact (h.read hthere hread).1
  · intro hn
    exact ⟨fileName n, h.file n hn, sequenceNr?_fileName (h.fits n hn)⟩

theorem nodup_numbersIn (h : FilesOf d directory numbers) : (numbersIn d directory).Nodup := by
  have hnames := Disk.nodup_filterMap_nameIn (p := directory) h.distinct
  refine List.pairwise_filterMap.2 (hnames.imp_of_mem fun {name name'} hmem hmem' hne n hread n' hread' he => hne ?_)
  have hname := (h.read (Disk.mem_filterMap_nameIn.1 hmem) hread).2
  have hname' := (h.read (Disk.mem_filterMap_nameIn.1 hmem') hread').2
  rw [hname, hname', he]

/-- **A listing shows exactly the numbers, the latest first.** -/
theorem list (h : FilesOf d directory numbers) :
    ∃ listed, list d directory = .ok listed ∧ listed.Pairwise (· > ·) ∧ ∀ n, n ∈ listed ↔ n ∈ numbers := by
  obtain ⟨listed, hlist, hdescending, hperm⟩ := list_directory h.begun
  have hdistinct : listed.Nodup := hperm.nodup_iff.2 h.nodup_numbersIn
  have hstrictly : listed.Pairwise (· > ·) :=
    (hdescending.and hdistinct).imp fun ⟨hle, hne⟩ => Nat.lt_of_le_of_ne hle (Ne.symm hne)
  exact ⟨listed, hlist, hstrictly, fun n => hperm.mem_iff.trans h.mem_numbersIn_iff⟩

end FilesOf

/-- **Names of files order snapshots and tell them apart**, and so a listing tells which there are. -/
theorem names_order_snapshots :
    (∀ a b : UInt64, ofString (fileName a.toNat) < ofString (fileName b.toNat) ↔ a < b) ∧
      (∀ a : UInt64, sequenceNr? (fileName a.toNat) = some a.toNat) ∧
      (∀ a : UInt64, sequenceNr? (temporaryName a.toNat) = none) ∧
      ∀ (d : Disk) (directory : Path) (numbers : Set Nat), FilesOf d directory numbers →
        ∃ listed, list d directory = .ok listed ∧ listed.Pairwise (· > ·) ∧ ∀ n, n ∈ listed ↔ n ∈ numbers := by
  refine ⟨fun a b => ?_, fun a => sequenceNr?_fileName a.toNat_lt, fun a => sequenceNr?_temporary _,
    fun d directory numbers h => h.list⟩
  rw [ofString_lt_iff, fileName_lt_iff a.toNat_lt b.toNat_lt, UInt64.lt_iff_toNat_lt]

/-- Three snapshots in no order, one of them at the greatest number, and what two saves left behind. -/
def untidy : Disk :=
  ⟨[(["s"], .directory), (["s", temporaryName 11], .file []), (["s", fileName 10], .file []),
    (["s", fileName 18446744073709551615], .file []), (["s", fileName 9], .file []), (["s", temporaryName 10], .file [1])]⟩

theorem untidy_directory_listed :
    FilesOf untidy ["s"] {9, 10, 18446744073709551615} ∧ list untidy ["s"] = .ok [18446744073709551615, 10, 9] := by
  have hfiles : FilesOf untidy ["s"] {9, 10, 18446744073709551615} := by
    refine ⟨by unfold Disk.Distinct; decide, by decide, ?_, ?_, fun name hthere => ?_⟩
    · rintro n (rfl | rfl | rfl) <;> decide
    · rintro n (rfl | rfl | rfl) <;> decide
    · rw [Disk.find?_isSome_iff (by simp)] at hthere
      have hname : name = temporaryName 11 ∨ name = fileName 10 ∨ name = fileName 18446744073709551615 ∨
          name = fileName 9 ∨ name = temporaryName 10 := by simpa [untidy] using hthere
      rcases hname with rfl | rfl | rfl | rfl | rfl
      · exact .inr ⟨fileName 11, rfl⟩
      · exact .inl ⟨10, by simp, rfl⟩
      · exact .inl ⟨18446744073709551615, by simp, rfl⟩
      · exact .inl ⟨9, by simp, rfl⟩
      · exact .inr ⟨fileName 10, rfl⟩
  obtain ⟨listed, hlist, hdescending, hmem⟩ := names_order_snapshots.2.2.2 untidy ["s"] _ hfiles
  have hlisted : listed = [18446744073709551615, 10, 9] := by
    refine hdescending.eq_of_mem_iff (by decide) fun n => (hmem n).trans ?_
    simp only [Set.mem_insert_iff, Set.mem_singleton_iff, List.mem_cons, List.not_mem_nil, or_false]
    omega
  exact ⟨hfiles, hlisted ▸ hlist⟩

end CartLedger.Snapshot.Durable
