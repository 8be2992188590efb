import CartLedger.Storage.Disk

/-! What the operations of a disk do, path by path.

A disk is known by what `find?` says of every path. Each operation that succeeds puts or
erases entries, and `find?_put`, `find?_erase` and `find?_withDirectories` say what is to
be found afterwards. An operation on a file succeeds when no file is in the way. -/
namespace CartLedger.Storage.Disk
variable {d : Disk} {p q : Path} {bytes : List UInt8}

@[simp] theorem find?_root (d : Disk) : d.find? [] = some .directory := if_pos rfl

theorem find?_of_ne (hp : p ≠ []) : d.find? p = Entries.find? p d.entries := if_neg hp

theorem find?_empty (hp : p ≠ []) : empty.find? p = none := by
  rw [find?_of_ne hp]
  rfl

theorem find?_put (hp : p ≠ []) (e : Entry) (q : Path) :
    (d.put p e).find? q = if p = q then some e else d.find? q := by
  by_cases hq : q = []
  · rw [hq, find?_root, if_neg hp, find?_root]
  · rw [find?_of_ne hq, find?_of_ne hq]
    exact Entries.find?_set ..

theorem find?_erase (hp : p ≠ []) (q : Path) :
    (d.erase p).find? q = if p = q then none else d.find? q := by
  by_cases hq : q = []
  · rw [hq, find?_root, if_neg hp, find?_root]
  · rw [find?_of_ne hq, find?_of_ne hq]
    exact Entries.find?_erase ..

theorem isFile_iff : d.isFile p = true ↔ ∃ bytes, d.find? p = some (.file bytes) := by
  rw [isFile]
  split
  · exact ⟨fun _ => ⟨_, ‹_›⟩, fun _ => rfl⟩
  · next h => exact ⟨fun h => absurd h Bool.false_ne_true, fun ⟨bytes, hb⟩ => absurd hb (h bytes)⟩

/-! ### What is in the way -/

theorem mem_stations : q ∈ stations p ↔ q <+: p := by
  rw [stations, List.mem_map]
  constructor
  · rintro ⟨n, -, rfl⟩
    exact List.take_prefix n p
  · intro h
    exact ⟨q.length, List.mem_range.2 (Nat.lt_succ_of_le h.length_le), (List.prefix_iff_eq_take.1 h).symm⟩

theorem throughFile_eq_false (h : ∀ q, q <+: p → ∀ bytes, d.find? q ≠ some (.file bytes)) :
    d.throughFile p = false := by
  rw [throughFile, List.any_eq_false]
  intro q hq hfile
  obtain ⟨bytes, hbytes⟩ := isFile_iff.1 hfile
  exact h q (mem_stations.1 hq) bytes hbytes

/-! ### Files -/

theorem look_of_find? {e : Entry} (h : d.find? p = some e) : d.look p = .ok e := by
  rw [look, h]

theorem look_missing (h : d.find? p = none) (hway : d.throughFile p = false) :
    d.look p = .error .missing := by
  rw [look, h, hway]
  rfl

theorem read_file (h : d.find? p = some (.file bytes)) : d.read p = .ok bytes := by
  rw [read, look_of_find? h]

theorem read_missing (h : d.find? p = none) (hway : d.throughFile p = false) :
    d.read p = .error .missing := by
  rw [read, look_missing h hway]

theorem write_file (h : d.find? p = some (.file bytes)) (bytes' : List UInt8) :
    d.write p bytes' = .ok (d.put p (.file bytes')) := by
  rw [write, look_of_find? h]

theorem write_missing (h : d.find? p = none) (hway : d.throughFile p = false)
    (habove : d.find? p.dropLast = some .directory) (bytes : List UInt8) :
    d.write p bytes = .ok (d.put p (.file bytes)) := by
  have hdir : d.isDirectory p.dropLast = true := decide_eq_true habove
  rw [write, look_missing h hway]
  exact if_pos hdir

/-- No file is made where there is no directory. -/
theorem write_astray (h : d.find? p = none) (hway : d.throughFile p = false)
    (habove : d.find? p.dropLast ≠ some .directory) (bytes : List UInt8) :
    d.write p bytes = .error .missing := by
  have hdir : ¬ d.isDirectory p.dropLast = true := fun hdir => habove (of_decide_eq_true hdir)
  rw [write, look_missing h hway]
  exact if_neg hdir

theorem append_file (h : d.find? p = some (.file bytes)) (more : List UInt8) :
    d.append p more = .ok (d.put p (.file (bytes ++ more))) := by
  rw [append, read_file h]
  exact write_file h _

theorem append_missing (h : d.find? p = none) (hway : d.throughFile p = false)
    (habove : d.find? p.dropLast = some .directory) (more : List UInt8) :
    d.append p more = .ok (d.put p (.file more)) := by
  rw [append, read_missing h hway]
  exact write_missing h hway habove more

theorem remove_file (h : d.find? p = some (.file bytes)) : d.remove p = .ok (d.erase p) := by
  rw [remove, read_file h]
  rfl

/-- Whatever a write does, it does to the one path. -/
theorem write_ok {d' : Disk} (h : d.write p bytes = .ok d') : d' = d.put p (.file bytes) := by
  rw [write] at h
  split at h
  · cases h
  · exact (Except.ok.inj h).symm
  · cases h
  · split at h
    · exact (Except.ok.inj h).symm
    · cases h

theorem not_directory_of_write {d' : Disk} (h : d.write p bytes = .ok d') : d.find? p ≠ some .directory := by
  intro hdir
  rw [write, look_of_find? hdir] at h
  cases h

theorem find?_of_read (h : d.read p = .ok bytes) : d.find? p = some (.file bytes) := by
  rw [read, look] at h
  cases hfind : d.find? p with
  | none => rw [hfind] at h; cases h
  | some e =>
    rw [hfind] at h
    cases e with
    | directory => cases h
    | file old => exact congrArg (fun b => some (Entry.file b)) (Except.ok.inj h)

theorem append_ok {d' : Disk} {more : List UInt8} (h : d.append p more = .ok d') :
    ∃ bytes, d.write p bytes = .ok d' := by
  rw [append] at h
  split at h
  · exact ⟨_, h⟩
  · exact ⟨_, h⟩
  · cases h

theorem rename_ok {d' : Disk} (h : d.rename p q = .ok d') :
    ∃ bytes d₁, d.read p = .ok bytes ∧ d.write q bytes = .ok d₁ ∧ d' = d₁.erase p := by
  rw [rename] at h
  split at h
  · cases h
  · next bytes hread =>
    cases hwrite : d.write q bytes with
    | error t => rw [hwrite] at h; cases h
    | ok d₁ => rw [hwrite] at h; exact ⟨bytes, d₁, hread, hwrite, (Except.ok.inj h).symm⟩

theorem remove_ok {d' : Disk} (h : d.remove p = .ok d') : d' = d.erase p := by
  rw [remove] at h
  cases hread : d.read p <;> rw [hread] at h
  · cases h
  · exact (Except.ok.inj h).symm

theorem file_of_remove {d' : Disk} (h : d.remove p = .ok d') : ∃ bytes, d.find? p = some (.file bytes) := by
  rw [remove] at h
  cases hread : d.read p with
  | error t => rw [hread] at h; cases h
  | ok bytes => exact ⟨bytes, find?_of_read hread⟩

/-- A file that was written under one name and given another is there under that alone. -/
theorem find?_of_write_rename {d₁ d₂ : Disk} (hp : p ≠ []) (hq : q ≠ []) (hwrite : d.write p bytes = .ok d₁)
    (hrename : d₁.rename p q = .ok d₂) {x : Path} (hx : x ≠ p) :
    d₂.find? x = if x = q then some (.file bytes) else d.find? x := by
  obtain rfl := write_ok hwrite
  obtain ⟨bytes', d₃, hread, hwrite', rfl⟩ := rename_ok hrename
  obtain rfl := write_ok hwrite'
  have hfound := find?_of_read hread
  rw [find?_put hp, if_pos rfl] at hfound
  obtain rfl := Entry.file.inj (Option.some.inj hfound)
  rw [find?_erase hp, find?_put hq, find?_put hp, if_neg (Ne.symm hx), if_neg (Ne.symm hx)]
  simp only [eq_comm]

/-! ### Directories -/

/-- The disk with directories at those of the paths where nothing is. -/
def withDirectories (d : Disk) (ps : List Path) : Disk :=
  ps.foldl (fun d q => if (d.find? q).isSome then d else d.put q .directory) d

theorem makeDirectories_ok (h : d.throughFile p = false) :
    d.makeDirectories p = .ok (d.withDirectories (stations p)) := by
  rw [makeDirectories, h]
  rfl

theorem withDirectories_of_make {d' : Disk} (h : d.makeDirectories p = .ok d') :
    d' = d.withDirectories (stations p) := by
  rw [makeDirectories] at h
  split at h
  · cases h
  · exact (Except.ok.inj h).symm

theorem withDirectories_cons (d : Disk) (p : Path) (ps : List Path) :
    d.withDirectories (p :: ps) =
      (if (d.find? p).isSome then d else d.put p .directory).withDirectories ps := rfl

theorem find?_withDirectories (d : Disk) (ps : List Path) (q : Path) :
    (d.withDirectories ps).find? q =
      (d.find? q).or (if q ∈ ps then some .directory else none) := by
  induction ps generalizing d with
  | nil => rw [if_neg List.not_mem_nil, Option.or_none]; rfl
  | cons p ps ih =>
    rw [withDirectories_cons, ih]
    cases hp : d.find? p with
    | some e =>
      rw [Option.isSome_some, if_pos rfl]
      by_cases hq : q = p
      · rw [hq, hp]
        rfl
      · simp only [List.mem_cons, hq, false_or]
    | none =>
      have hne : p ≠ [] := fun he => by rw [he, find?_root] at hp; cases hp
      rw [Option.isSome_none, if_neg Bool.false_ne_true, find?_put hne]
      by_cases hq : p = q
      · rw [if_pos hq, ← hq, hp, if_pos (List.mem_cons_self ..)]
        rfl
      · simp only [List.mem_cons, Ne.symm hq, false_or, if_neg hq]

theorem withDirectories_self {ps : List Path} (h : ∀ q ∈ ps, d.find? q = some .directory) :
    d.withDirectories ps = d := by
  induction ps with
  | nil => rfl
  | cons q ps ih =>
    obtain ⟨hq, hps⟩ := List.forall_mem_cons.1 h
    rw [withDirectories_cons, hq]
    exact ih hps

/-- Directories that are there already are left as they are. -/
theorem makeDirectories_self (h : ∀ q, q <+: p → d.find? q = some .directory) : d.makeDirectories p = .ok d := by
  have hway : d.throughFile p = false := throughFile_eq_false fun q hq bytes hfile => by
    rw [h q hq] at hfile
    cases hfile
  rw [makeDirectories_ok hway, withDirectories_self fun q hq => h q (mem_stations.1 hq)]

/-- A directory that was made is there, -/
theorem find?_of_make {d' : Disk} (h : d.makeDirectories p = .ok d') : d'.find? p = some .directory := by
  obtain rfl := withDirectories_of_make h
  rw [find?_withDirectories, if_pos (mem_stations.2 (List.prefix_refl p))]
  cases hp : d.find? p with
  | none => rfl
  | some e =>
    cases e with
    | directory => rfl
    | file bytes =>
      have hway : d.throughFile p = true :=
        List.any_eq_true.2 ⟨p, mem_stations.2 (List.prefix_refl p), isFile_iff.2 ⟨bytes, hp⟩⟩
      rw [makeDirectories, if_pos hway] at h
      cases h

/-- and what is not above it is as it was. -/
theorem find?_beside_make {d' : Disk} (h : d.makeDirectories p = .ok d') (hq : ¬ q <+: p) :
    d'.find? q = d.find? q := by
  obtain rfl := withDirectories_of_make h
  rw [find?_withDirectories, if_neg fun hmem => hq (mem_stations.1 hmem), Option.or_none]

/-! ### Listings -/

/-- Every path has one entry. -/
def Distinct (d : Disk) : Prop := (d.entries.map (·.1)).Nodup

theorem distinct_empty : Distinct empty := List.nodup_nil

theorem Distinct.erase (h : Distinct d) (p : Path) : Distinct (d.erase p) := Entries.nodup_erase h p

theorem Distinct.put (h : Distinct d) (p : Path) (e : Entry) : Distinct (d.put p e) := Entries.nodup_set h p e

theorem Distinct.withDirectories (h : Distinct d) (ps : List Path) :
    Distinct (d.withDirectories ps) := by
  induction ps generalizing d with
  | nil => exact h
  | cons p ps ih =>
    rw [withDirectories_cons]
    split
    · exact ih h
    · exact ih (h.put p _)

theorem find?_isSome_iff (hp : p ≠ []) : (d.find? p).isSome ↔ p ∈ d.entries.map (·.1) := by
  rw [find?_of_ne hp, Entries.find?, Option.isSome_map, List.find?_isSome, List.mem_map]
  simp only [decide_eq_true_eq]

/-- Of the entry behind a path, its name if it lies in the directory `p`. -/
def nameIn (p : Path) (e : Path × Entry) : Option String :=
  match e.1.getLast? with
  | some name => if e.1 = p ++ [name] then some name else none
  | none => none

theorem nameIn_eq_some {e : Path × Entry} {name : String} :
    nameIn p e = some name ↔ e.1 = p ++ [name] := by
  rw [nameIn]
  constructor
  · intro h
    split at h
    · split at h
      · next he => rwa [Option.some.inj h] at he
      · cases h
    · cases h
  · intro h
    rw [h, List.getLast?_concat]
    simp

theorem names_ok (h : d.find? p = some .directory) :
    d.names p = .ok (d.entries.filterMap (nameIn p)) := by
  rw [names, look_of_find? h]
  rfl

theorem mem_filterMap_nameIn {name : String} :
    name ∈ d.entries.filterMap (nameIn p) ↔ (d.find? (p ++ [name])).isSome := by
  rw [find?_isSome_iff (by simp), List.mem_filterMap, List.mem_map]
  simp only [nameIn_eq_some]

/-- What is done to a path that is not in a directory does not show in its listing. -/
theorem filterMap_nameIn_erase (h : ∀ name, q ≠ p ++ [name]) :
    (d.erase q).entries.filterMap (nameIn p) = d.entries.filterMap (nameIn p) := by
  show (d.entries.filter _).filterMap _ = _
  rw [List.filterMap_filter]
  congr 1
  funext e
  by_cases he : e.1 = q
  · rw [if_neg (by simpa using he), eq_comm, Option.eq_none_iff_forall_ne_some]
    exact fun name hname => h name (he.symm.trans (nameIn_eq_some.1 hname))
  · rw [if_pos (by simpa using he)]

theorem filterMap_nameIn_put (h : ∀ name, q ≠ p ++ [name]) (e : Entry) :
    (d.put q e).entries.filterMap (nameIn p) = d.entries.filterMap (nameIn p) := by
  have hnone : nameIn p (q, e) = none :=
    Option.eq_none_iff_forall_ne_some.2 fun name hname => h name (nameIn_eq_some.1 hname)
  show ((q, e) :: (d.erase q).entries).filterMap _ = _
  rw [List.filterMap_cons_none hnone, filterMap_nameIn_erase h]

theorem nodup_filterMap_nameIn (h : Distinct d) : (d.entries.filterMap (nameIn p)).Nodup := by
  rw [Distinct, List.Nodup, List.pairwise_map] at h
  refine List.Pairwise.filterMap _ (fun e e' hne name hname name' hname' heq => hne ?_) h
  rw [nameIn_eq_some.1 hname, nameIn_eq_some.1 hname', heq]

end CartLedger.Storage.Disk
