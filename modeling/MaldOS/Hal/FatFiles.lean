import MaldOS.Hal.FatCache
import MaldOS.Hal.FatDirectory
import Mathlib.Data.List.TakeWhile

/-!
Which files a lookup finds. `fat_getcluster` takes the directory from the first
data sector, and as much of it as `nr` says; where the boot record puts the root
directory, and how its clusters are chained, it never asks.
-/
namespace Fat
open Arch ByteMemory Slices Sd Runs

/-- Eleven bytes, three of them the extension. -/
abbrev FileName : Type := { fn : List Byte // fn.length = 11 }

/-- `fatdir_t`, as far as a lookup reads it. -/
structure Fatdir where
  name : FileName
  attr : Byte
  cluster : Nat
  deriving DecidableEq

/-- `dir->name[0]` -/
def Fatdir.first (e : Fatdir) : Byte := e.name.val.headD 0

/-- Neither deleted nor part of a long name. -/
def Fatdir.Live (e : Fatdir) : Prop := e.first ≠ 0xE5 ∧ e.attr ≠ 0xF

instance (e : Fatdir) : Decidable e.Live := inferInstanceAs (Decidable (_ ∧ _))

def fatdir (b : Nat → Byte) (dir : Nat) : Fatdir where
  name := ⟨(List.range 11).map fun i => b (dir * 32 + i), by simp⟩
  attr := b (dir * 32 + 11)
  cluster := entryCluster b (dir * 32)

/-- The entries from number `dir` on, up to the end mark or else all `n`. -/
def entries (b : Nat → Byte) (dir n : Nat) : List Fatdir :=
  ((List.range' dir n).map (fatdir b)).takeWhile fun e => e.first ≠ 0

def fileNamed (es : List Fatdir) (fn : FileName) : Nat :=
  ((es.find? fun e => e.Live ∧ e.name = fn).map Fatdir.cluster).getD 0

def FirstNamed (es : List Fatdir) (fn : FileName) (e : Fatdir) : Prop :=
  (e.Live ∧ e.name = fn) ∧
    ∃ before after, es = before ++ e :: after ∧ ∀ d ∈ before, d.Live → d.name ≠ fn

/-- The files of a directory, by their names and first clusters. A file with nothing in it has no
    cluster, and is none to the code. -/
def files (es : List Fatdir) : Set (FileName × Nat) :=
  { f | f.2 ≠ 0 ∧ ∃ e, FirstNamed es f.1 e ∧ e.cluster = f.2 }

/-! Directories. -/

theorem fileNamed_cons (e : Fatdir) (es : List Fatdir) (fn : FileName) :
    fileNamed (e :: es) fn = if e.Live ∧ e.name = fn then e.cluster else fileNamed es fn := by
  unfold fileNamed
  rw [List.find?_cons]
  by_cases found : e.Live ∧ e.name = fn
  · simp [found]
  · simp [found]

theorem found_iff (es : List Fatdir) (fn : FileName) (e : Fatdir) :
    (es.find? fun e => e.Live ∧ e.name = fn) = some e ↔ FirstNamed es fn e := by
  rw [List.find?_eq_some_iff_append]
  simp [FirstNamed, imp_iff_not_or]

theorem fileNamed_file (es : List Fatdir) (fn : FileName) {cluster : Nat} (some : cluster ≠ 0) :
    fileNamed es fn = cluster ↔ (fn, cluster) ∈ files es := by
  have named := found_iff es fn
  unfold fileNamed files
  cases found : es.find? fun e => e.Live ∧ e.name = fn with
  | none =>
    rw [found] at named
    constructor
    · exact fun zero => absurd zero.symm some
    · rintro ⟨-, e, first, -⟩
      exact absurd ((named e).mpr first) (by simp)
  | some d =>
    rw [found] at named
    constructor
    · exact fun same => ⟨some, d, (named d).mp rfl, same⟩
    · rintro ⟨-, e, first, same⟩
      cases (named e).mpr first
      exact same

/-- Two directories answer every name alike exactly if they have the same files. -/
theorem fileNamed_congr {es es' : List Fatdir} :
    (∀ fn, fileNamed es fn = fileNamed es' fn) ↔ files es = files es' := by
  constructor
  · intro same
    ext ⟨fn, cluster⟩
    by_cases empty : cluster = 0
    · exact ⟨fun file => absurd empty file.1, fun file => absurd empty file.1⟩
    · rw [← fileNamed_file es fn empty, ← fileNamed_file es' fn empty, same]
  · intro same fn
    by_cases none : fileNamed es fn = 0
    · by_contra other
      have some : fileNamed es' fn ≠ 0 := fun zero => other (none.trans zero.symm)
      have file := (fileNamed_file es' fn some).mp rfl
      rw [← same, ← fileNamed_file es fn some] at file
      exact other file
    · have file := (fileNamed_file es fn none).mp rfl
      rw [same, ← fileNamed_file es' fn none] at file
      exact file.symm

theorem files_take (es : List Fatdir) (n : Nat) : files (es.take n) ⊆ files es := by
  rintro f ⟨some, e, ⟨named, before, after, split, others⟩, same⟩
  refine ⟨some, e, ⟨named, before, after ++ es.drop n, ?_, others⟩, same⟩
  rw [← List.cons_append, ← List.append_assoc, ← split, List.take_append_drop]

/-! The scan. -/

theorem entries_succ (b : Nat → Byte) (dir n : Nat) :
    entries b dir (n + 1) = if b (dir * 32) = 0 then [] else fatdir b dir :: entries b (dir + 1) n := by
  have first : (fatdir b dir).first = b (dir * 32) := rfl
  unfold entries
  rw [List.range'_succ, List.map_cons]
  by_cases mark : b (dir * 32) = 0
  · rw [if_pos mark, List.takeWhile_cons_of_neg (by simpa [first] using mark)]
  · rw [if_neg mark, List.takeWhile_cons_of_pos (by simpa [first] using mark)]

theorem entries_length (b : Nat → Byte) (dir n : Nat) : (entries b dir n).length ≤ n := by
  have part := (List.takeWhile_prefix (l := (List.range' dir n).map (fatdir b))
    fun e => decide (e.first ≠ 0)).length_le
  rwa [List.length_map, List.length_range'] at part

theorem scan_succ (b : Nat → Byte) (fn : FileName) (left dir : Nat) :
    scanDirectory b fn.val (left + 1) dir =
      if b (dir * 32) = 0 then some 0
      else if (fatdir b dir).Live ∧ (fatdir b dir).name = fn then some (fatdir b dir).cluster
      else scanDirectory b fn.val left (dir + 1) := by
  have live : (fatdir b dir).Live ↔ ¬ (b (dir * 32) = 0xE5 ∨ b (dir * 32 + 11) = 0xF) := not_or.symm
  have whole : fn.val.take 11 = fn.val := List.take_of_length_le (Nat.le_of_eq fn.property)
  have named : (fatdir b dir).name = fn ↔
      (List.range 11).map (fun i => b (dir * 32 + i)) = fn.val.take 11 := by
    rw [whole]
    exact Subtype.ext_iff
  rw [scanDirectory]
  simp only [live, named]
  by_cases dead : b (dir * 32) = 0xE5 ∨ b (dir * 32 + 11) = 0xF
  · simp only [dead, if_true, not_true, false_and, if_false]
  · simp only [dead, if_false, not_false_iff, true_and]
    rfl

/-- A scan that comes to an end mark answers by the entries before it. -/
theorem scan_marked {b : Nat → Byte} (fn : FileName) {mark : Nat} (zero : b (mark * 32) = 0)
    (left : Nat) {dir : Nat} (before : dir ≤ mark) (inside : mark < dir + left) :
    scanDirectory b fn.val left dir = some (fileNamed (entries b dir left) fn) := by
  induction left generalizing dir with
  | zero => omega
  | succ left ih =>
    rw [scan_succ, entries_succ]
    by_cases ends : b (dir * 32) = 0
    · rw [if_pos ends, if_pos ends]
      rfl
    · have further : dir ≠ mark := by
        rintro rfl
        exact ends zero
      rw [if_neg ends, if_neg ends, fileNamed_cons, ih (by omega) (by omega)]
      split_ifs <;> rfl

theorem scan_unmarked {b : Nat → Byte} {fn : FileName} (left : Nat) {dir : Nat}
    (unmarked : ∀ k, dir ≤ k → k < dir + left → b (k * 32) ≠ 0)
    (absent : ∀ e ∈ entries b dir left, e.name ≠ fn) : scanDirectory b fn.val left dir = none := by
  induction left generalizing dir with
  | zero => rfl
  | succ left ih =>
    have here : b (dir * 32) ≠ 0 := unmarked dir le_rfl (by omega)
    rw [entries_succ, if_neg here, List.forall_mem_cons] at absent
    rw [scan_succ, if_neg here, if_neg fun found => absent.1 found.2]
    exact ih (fun k later inside => unmarked k (by omega) (by omega)) absent.2

theorem absent_name {es : List Fatdir} (few : es.length ≤ 64) : ∃ fn, ∀ e ∈ es, e.name ≠ fn := by
  let numbered (k : Nat) : FileName := ⟨BitVec.ofNat 8 k :: List.replicate 10 0, rfl⟩
  have distinct : ((List.range 65).map numbered).Nodup := by decide +kernel
  by_contra every
  push Not at every
  have all : (List.range 65).map numbered ⊆ es.map Fatdir.name := by
    intro fn _
    obtain ⟨e, member, same⟩ := every fn
    exact List.mem_map.mpr ⟨e, member, same⟩
  have bound := (List.subperm_of_subset distinct all).length_le
  rw [List.length_map, List.length_map, List.length_range] at bound
  omega

/-! The root directory. -/

def Volume.rc (s : Volume) : Nat := word 4 s.biosPartitionBlock.get 44

/-- The chain of clusters that starts with the one the boot record names. -/
structure RootChain (s : Volume) (clusters : Nat) where
  cs : List Nat
  chain : FileChain s clusters cs
  root : cs.getD 0 0 = s.rc

/-- The directory in it, with sixteen entries to a sector. -/
def RootChain.entries {s : Volume} {clusters : Nat} (d : RootChain s clusters) : List Fatdir :=
  Fat.entries (fileByte s d.cs) 0 (d.cs.length * (s.spc * 16))

def loadedEntries (c : Card) : List Fatdir := entries (directory c) 0 64

/-- `root_dir` comes to have an end mark and, before it, every file of the directory and no other. -/
structure Loads (c : Card) (es : List Fatdir) : Prop where
  mark : ∃ k < 64, directory c (k * 32) = 0
  covers : files es ⊆ files (loadedEntries c)
  strays : files (loadedEntries c) ⊆ files es

def search (s : Volume) (fn : FileName) : Volume := (fatGetcluster s fn.val).2

def Answers (es : List Fatdir) (s : Volume) (fn : FileName) : Prop :=
  (fatGetcluster s fn.val).1 = some (fileNamed es fn)

theorem scan_loads_iff (c : Card) (es : List Fatdir) :
    (∀ fn : FileName, scanDirectory (directory c) fn.val 64 0 = some (fileNamed es fn)) ↔
      Loads c es := by
  have marked (fn : FileName) (mark : ∃ k < 64, directory c (k * 32) = 0) :
      scanDirectory (directory c) fn.val 64 0 = some (fileNamed (loadedEntries c) fn) := by
    obtain ⟨k, inside, zero⟩ := mark
    exact scan_marked fn zero 64 (Nat.zero_le k) (by omega)
  constructor
  · intro right
    have mark : ∃ k < 64, directory c (k * 32) = 0 := by
      by_contra none
      push Not at none
      obtain ⟨fn, absent⟩ := absent_name (entries_length (directory c) 0 64)
      have lost := scan_unmarked 64 (fun k _ inside => none k (by omega)) absent
      rw [right fn] at lost
      cases lost
    have same : files (loadedEntries c) = files es :=
      fileNamed_congr.mp fun fn => Option.some.inj ((marked fn mark).symm.trans (right fn))
    exact ⟨mark, same.ge, same.le⟩
  · rintro ⟨mark, covers, strays⟩ fn
    rw [marked fn mark, fileNamed_congr.mpr (strays.antisymm covers)]

theorem search_scans {c : Card} (sound : Sound c) {s : Volume} {n : Nat} (plain : Plain c n s)
    (later : c.issued ≤ n) (fn : FileName) :
    (fatGetcluster s fn.val).1 = scanDirectory (directory c) fn.val 64 0 ∧
      Plain c (n + 1) (search s fn) := by
  unfold search
  rw [getcluster_lookup plain]
  exact ⟨if_pos (sound n later), plain_loaded plain⟩

/-- On an accepted volume, in every run of lookups each one finds what the root directory has,
    exactly if that is what is loaded. -/
theorem files_found_iff {c : Card} {stack : Nat → Byte}
    (accepted : (fatGetpartition (staticVolume c stack)).1 = 1) (sound : Sound c) {clusters : Nat}
    (d : RootChain (mountedVolume c stack) clusters) :
    (∀ names, Along search (Answers d.entries) (mountedVolume c stack) names) ↔
      Loads c d.entries := by
  obtain ⟨bootable, -⟩ := accepted_cases accepted
  have plain : Plain c (mountIssued c) (mountedVolume c stack) :=
    mounted_plain (mount_bootable stack bootable)
  have later : c.issued ≤ mountIssued c := Nat.le_add_right _ _
  rw [← scan_loads_iff]
  constructor
  · intro right fn
    obtain ⟨answer, -⟩ := right [fn]
    exact (search_scans sound plain later fn).1.symm.trans answer
  · intro right names
    apply @along_always _ _ search fun s => ∃ n, c.issued ≤ n ∧ Plain c n s
    · intro s fn ⟨n, later, plain⟩
      obtain ⟨scan, plain'⟩ := search_scans sound plain later fn
      exact ⟨scan.trans (right fn), n + 1, by omega, plain'⟩
    · exact ⟨_, later, plain⟩

/-! A root directory that starts where the lookup does. -/

theorem fatdir_congr {b b' : Nat → Byte} {dir : Nat}
    (same : ∀ i < 32, b (dir * 32 + i) = b' (dir * 32 + i)) : fatdir b dir = fatdir b' dir := by
  have name : (List.range 11).map (fun i => b (dir * 32 + i)) =
      (List.range 11).map fun i => b' (dir * 32 + i) := by
    apply List.map_congr_left
    intro i member
    exact same i (by have := List.mem_range.mp member; omega)
  have field : ∀ offset, offset + 2 ≤ 32 →
      word 2 b (dir * 32 + offset) = word 2 b' (dir * 32 + offset) := by
    intro offset inside
    apply word_congr
    intro i few
    rw [Nat.add_assoc]
    exact same _ (by omega)
  unfold fatdir entryCluster
  simp only [name, same 11 (by decide), field 20 (by decide), field 26 (by decide)]

theorem entries_take {b b' : Nat → Byte} {m : Nat} (same : ∀ i < m * 32, b i = b' i) {n n' : Nat}
    (few : m ≤ n) (few' : m ≤ n') : (entries b 0 n).take m = (entries b' 0 n').take m := by
  unfold entries
  rw [List.take_takeWhile, List.take_takeWhile, ← List.map_take, ← List.map_take,
    List.take_range'_of_length_ge few, List.take_range'_of_length_ge few']
  apply congrArg
  apply List.map_congr_left
  intro dir member
  have inside := (List.mem_range'_1.mp member).2
  exact fatdir_congr fun i low => same _ (by omega)

theorem entries_before {b : Nat → Byte} {mark : Nat} (zero : b (mark * 32) = 0) (n : Nat) {dir : Nat}
    (before : dir ≤ mark) : (entries b dir n).length ≤ mark - dir := by
  induction n generalizing dir with
  | zero => exact Nat.zero_le _
  | succ n ih =>
    rw [entries_succ]
    by_cases ends : b (dir * 32) = 0
    · rw [if_pos ends]
      exact Nat.zero_le _
    · have further : dir ≠ mark := by
        rintro rfl
        exact ends zero
      have rest : (entries b (dir + 1) n).length ≤ mark - (dir + 1) := ih (by omega)
      rw [if_neg ends, List.length_cons]
      omega

theorem entries_mark {b : Nat → Byte} {n : Nat} (fewer : (entries b 0 n).length < n) :
    ∃ k < n, b (k * 32) = 0 := by
  by_contra none
  push Not at none
  have all : entries b 0 n = (List.range' 0 n).map (fatdir b) := by
    unfold entries
    rw [List.takeWhile_eq_self_iff]
    intro e member
    obtain ⟨k, row, rfl⟩ := List.mem_map.mp member
    have inside := (List.mem_range'_1.mp row).2
    exact decide_eq_true (none k (by omega))
  rw [all, List.length_map, List.length_range'] at fewer
  omega

theorem root_some {s : Volume} {clusters : Nat} (d : RootChain s clusters) : 0 < d.cs.length := by
  have linked := d.chain.linked
  cases chain : d.cs with
  | nil =>
    rw [chain] at linked
    exact absurd linked id
  | cons e cs => exact Nat.succ_pos _

theorem mounted_data {c : Card} {stack : Nat → Byte}
    (accepted : (fatGetpartition (staticVolume c stack)).1 = 1) :
    (mountedVolume c stack).rootDirectorySector = dataSec (mountedVolume c stack) := by
  unfold mountedVolume
  unfold fatGetpartition at accepted ⊢
  dsimp only at accepted ⊢
  split_ifs at accepted ⊢
  · exact absurd accepted Int.zero_ne_one
  · exact absurd accepted Int.zero_ne_one
  · rfl

section
variable {c : Card} {stack : Nat → Byte} {clusters : Nat}
  (accepted : (fatGetpartition (staticVolume c stack)).1 = 1)
  (well : WellFormed (mountedVolume c stack) clusters) (d : RootChain (mountedVolume c stack) clusters)
  (second : (mountedVolume c stack).rc = 2)
include accepted well second

theorem root_bytes {i : Nat} (inside : i < (mountedVolume c stack).clusterSize) :
    fileByte (mountedVolume c stack) d.cs i = c.bytes (rootSector c * 512 + i) := by
  have mounted := mount_bootable stack (accepted_cases accepted).1
  have start : d.cs.getD 0 0 = 2 := d.root.trans second
  have some := root_some d
  have valid : DataCluster clusters 2 := by
    apply d.chain.data
    rw [← start, List.getD_eq_getElem _ _ some]
    exact List.getElem_mem some
  have sector : u32 (dataSec (mountedVolume c stack)) = rootSector c := by
    rw [← mounted_data accepted]
    exact (u32_of_lt (mounted.root ▸ u32_lt _)).trans mounted.root
  have address : clusterAddr (mountedVolume c stack) 2 = rootSector c * 512 := by
    rw [← cluster_sector well valid, Nat.sub_self, Nat.zero_mul, Nat.zero_add, sector]
  have place := file_piece (s := mountedVolume c stack) some inside
  rw [Nat.mul_zero, Nat.zero_add, start, address] at place
  unfold fileByte
  rw [place]
  exact congrFun mounted.bytes _

theorem first_entries {m : Nat} (cluster : m ≤ (mountedVolume c stack).spc * 16)
    (sectors : m ≤ directorySectors c * 16) (few : m ≤ 64) :
    (loadedEntries c).take m = d.entries.take m := by
  apply entries_take
  · intro i inside
    have within : i < (mountedVolume c stack).clusterSize := by
      unfold Volume.clusterSize
      omega
    rw [root_bytes accepted well d second within]
    unfold directory
    rw [if_pos (by omega)]
  · exact few
  · exact cluster.trans (Nat.le_mul_of_pos_left _ (root_some d))

/-- A directory is found whole that ends, with its end mark, in its first cluster and in what is
    loaded of that. -/
theorem loads_short (cluster : d.entries.length < (mountedVolume c stack).spc * 16)
    (sectors : d.entries.length < directorySectors c * 16) (few : d.entries.length < 64) :
    Loads c d.entries := by
  have first := first_entries accepted well d second cluster sectors few
  rw [List.take_of_length_le (Nat.le_succ _)] at first
  have length : (loadedEntries c).length = d.entries.length := by
    have taken := congrArg List.length first
    rw [List.length_take] at taken
    omega
  rw [List.take_of_length_le (by omega)] at first
  refine ⟨entries_mark (length.trans_lt few), ?_, ?_⟩
  · rw [first]
  · rw [first]

/-- On an ordinary volume, with the root directory in its second cluster and the number of entries
    left at zero, no file may come first behind the sixteenth entry. -/
theorem loads_ordinary_iff (ordinary : (mountedVolume c stack).nr = 0) :
    Loads c d.entries ↔ files d.entries ⊆ files (d.entries.take 16) := by
  have plain := mounted_plain (mount_bootable stack (accepted_cases accepted).1)
  have sectors : directorySectors c = 1 := by
    rw [← plain_sectors plain]
    have none : (fatGetpartition (staticVolume c stack)).2.nr = 0 := ordinary
    rw [none, Nat.zero_mul, Nat.zero_div]
  have blank : directory c (16 * 32) = 0 := by
    unfold directory
    rw [sectors]
    rfl
  have first := first_entries accepted well d second (m := 16)
    (Nat.le_mul_of_pos_left _ well.sectors) (by omega) (by decide)
  have few : (loadedEntries c).length ≤ 16 := entries_before blank 64 (Nat.zero_le 16)
  rw [List.take_of_length_le few] at first
  rw [← first]
  constructor
  · exact fun loads => loads.covers
  · intro covers
    exact ⟨⟨16, by decide, blank⟩, covers, first ▸ files_take d.entries 16⟩

end

/-- A card with a root directory of two clusters: sixteen deleted entries, and the file `DISK0` in
    cluster 4 behind them. -/
def grownBytes : List (Nat × Byte) :=
  sampleBytes ++ [(512 + 44, 2)] ++ (List.range 16).map (fun k => (514 * 512 + k * 32, 0xE5)) ++
    [(515 * 512 + 26, 4)] ++ (diskName.zipIdx (515 * 512)).map Prod.swap

def grownCard : Card where
  bytes := fun i => (grownBytes.lookup i).getD 0
  fault := fun _ => none
  issued := 0

def grownVolume : Volume := mountedVolume grownCard fun _ => 0

def grownRoot : RootChain grownVolume 65530 where
  cs := [2, 3]
  chain := ⟨by unfold DataCluster; decide, by decide, by decide +kernel,
    by unfold Linked; decide +kernel⟩
  root := by decide +kernel

theorem grown_accepted : (fatGetpartition (staticVolume grownCard fun _ => 0)).1 = 1 := by
  decide +kernel

theorem files_found_grown :
    (∀ names, Along search (Answers grownRoot.entries) grownVolume names) ↔
      Loads grownCard grownRoot.entries :=
  files_found_iff grown_accepted (fun _ _ => rfl) grownRoot

/-- The seventeenth entry of a root directory in its usual place is not found. -/
theorem seventeenth_unfound :
    (fatGetpartition (staticVolume grownCard fun _ => 0)).1 = 1 ∧ Sound grownCard ∧
      WellFormed grownVolume 65530 ∧ (fatGetcluster grownVolume diskName).1 = some 0 ∧
      fileNamed grownRoot.entries ⟨diskName, rfl⟩ = 4 ∧
      ¬ ∀ names, Along search (Answers grownRoot.entries) grownVolume names := by
  have lost : (fatGetcluster grownVolume diskName).1 = some 0 := by decide +kernel
  have there : fileNamed grownRoot.entries ⟨diskName, rfl⟩ = 4 := by decide +kernel
  have well : WellFormed grownVolume 65530 := by
    constructor <;> decide +kernel
  refine ⟨grown_accepted, fun _ _ => rfl, well, lost, there, ?_⟩
  intro right
  obtain ⟨found, -⟩ := right [⟨diskName, rfl⟩]
  unfold Answers at found
  rw [there] at found
  exact absurd (lost.symm.trans found) (by decide)

end Fat
