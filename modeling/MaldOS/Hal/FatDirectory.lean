import MaldOS.Hal.FatDivisions

/-!
The root directory of a bootable card, and what the file functions find there
while nothing writes to the card.
-/
namespace Fat
open Arch ByteMemory Slices Sd

def bootSpc (c : Card) : Nat := word 1 (bootRecord c) 13

def directorySectors (c : Card) : Nat := word 2 (bootRecord c) 17 * 32 / bootSector c + 1

/-- `root_dir` with the directory of the card in it. -/
def directory (c : Card) : Nat → Byte := fun i =>
  if i < directorySectors c * 512 then c.bytes (rootSector c * 512 + i) else 0

/-- What transfer `n` lets `fat_getcluster` find; `none` where the directory has no end. -/
def lookup (c : Card) (n : Nat) (fn : List Byte) : Option Nat :=
  if c.fault n = none then scanDirectory (directory c) fn 64 0 else some 0

def Listed (c : Card) (n : Nat) : Prop :=
  c.fault n = none → (listDirectory (directory c) 64 0).isSome

/-- From transfer `n` on, one of the names is found before a lookup has no end. -/
def Finds (c : Card) : Nat → List (List Byte) → Prop
  | _, [] => False
  | n, fn :: fns =>
    match lookup c n fn with
    | none => False
    | some 0 => Finds c (n + 1) fns
    | some _ => True

def Missing (c : Card) : Nat → List (List Byte) → Prop
  | _, [] => True
  | n, fn :: fns => lookup c n fn = some 0 ∧ Missing c (n + 1) fns

theorem finds_append (c : Card) (n : Nat) (fns fns' : List (List Byte)) :
    Finds c n (fns ++ fns') ↔
      Finds c n fns ∨ Missing c n fns ∧ Finds c (n + fns.length) fns' := by
  induction fns generalizing n with
  | nil => simp [Finds, Missing]
  | cons fn fns ih =>
    have later : n + (fns.length + 1) = n + 1 + fns.length := by omega
    simp only [List.cons_append, Finds, Missing, List.length_cons, later]
    split
    · rename_i lost
      simp [lost]
    · rename_i absent
      simp [absent, ih]
    · rename_i cluster found some
      simp

/-- A volume of that card before transfer `n`, with `root_dir` blank behind the directory. -/
structure Plain (c : Card) (n : Nat) (s : Volume) : Prop where
  sector : s.bytesPerSector = bootSector c
  bpb : ∀ i < 512, s.biosPartitionBlock.get i = bootRecord c i
  root : s.rootDirectorySector = rootSector c
  bytes : s.card.bytes = c.bytes
  fault : s.card.fault = c.fault
  issued : s.card.issued = n
  blank : ∀ i, directorySectors c * 512 ≤ i → s.rootDir.get i = 0

theorem mounted_plain {c : Card} {s : Volume} (mounted : Mounted c s) :
    Plain c (mountIssued c) s where
  sector := mounted.sector
  bpb := mounted.bpb
  root := mounted.root
  bytes := mounted.bytes
  fault := mounted.fault
  issued := mounted.issued
  blank i _ := by
    rw [mounted.directory]
    rfl

theorem plain_spc {c : Card} {n : Nat} {s : Volume} (plain : Plain c n s) : s.spc = bootSpc c :=
  word_congr fun i few => plain.bpb (13 + i) (by omega)

theorem plain_sectors {c : Card} {n : Nat} {s : Volume} (plain : Plain c n s) :
    s.nr * 32 / s.bytesPerSector + 1 = directorySectors c := by
  have entries : s.nr = word 2 (bootRecord c) 17 :=
    word_congr fun i few => plain.bpb (17 + i) (by omega)
  rw [entries, plain.sector]
  rfl

theorem plain_loaded {c : Card} {n : Nat} {s : Volume} (plain : Plain c n s) :
    Plain c (n + 1) (loaded s) := by
  unfold loaded
  dsimp only
  rw [plain_sectors plain, read_card]
  refine ⟨plain.sector, plain.bpb, plain.root, plain.bytes, plain.fault, ?_, ?_⟩
  · dsimp only
    rw [plain.issued]
  · intro i beyond
    dsimp only
    have some : 1 ≤ directorySectors c := Nat.succ_pos _
    rw [transfer_beyond s.card s.rootDirectorySector s.rootDir .sdReadblock some le_rfl beyond]
    exact plain.blank i beyond

theorem directorySectors_lt (c : Card) : directorySectors c < 2 ^ 32 := by
  have entries : word 2 (bootRecord c) 17 < 256 ^ 2 := word_lt 2 _ _
  have fewer := Nat.div_le_self (word 2 (bootRecord c) 17 * 32) (bootSector c)
  unfold directorySectors
  omega

theorem directory_read {c : Card} {n : Nat} {s : Volume} (plain : Plain c n s)
    (good : c.fault n = none) :
    (sdTransferblock s.card s.rootDirectorySector s.rootDir (directorySectors c) .sdReadblock).1 ≠ 0 ∧
      (loaded s).rootDir.get = directory c := by
  have good' : s.card.fault s.card.issued = none := by
    rw [plain.fault, plain.issued]
    exact good
  have some : 0 < directorySectors c := Nat.succ_pos _
  have read := read_good good' s.rootDirectorySector s.rootDir some (directorySectors_lt c)
  constructor
  · rw [read]
    dsimp only
    omega
  · unfold loaded
    rw [plain_sectors plain, read]
    have address : u32 (rootSector c) = rootSector c := u32_of_lt (u32_lt _)
    funext i
    dsimp only
    rw [put_get, plain.root, address, plain.bytes]
    unfold directory
    split
    · rename_i inside
      rw [blit_front _ _ inside]
    · rename_i outside
      rw [blit_outside (by omega)]
      exact plain.blank i (by omega)

theorem directory_unread {c : Card} {n : Nat} {s : Volume} (plain : Plain c n s)
    (bad : c.fault n ≠ none) :
    (sdTransferblock s.card s.rootDirectorySector s.rootDir (directorySectors c) .sdReadblock).1 = 0 := by
  obtain ⟨k, fails⟩ := Option.ne_none_iff_exists'.mp bad
  have fails' : s.card.fault s.card.issued = some k := by
    rw [plain.fault, plain.issued]
    exact fails
  exact read_failed fails' _ _ _

theorem getcluster_lookup {c : Card} {n : Nat} {s : Volume} (plain : Plain c n s) (fn : List Byte) :
    fatGetcluster s fn = (lookup c n fn, loaded s) := by
  unfold fatGetcluster lookup
  by_cases good : c.fault n = none
  · obtain ⟨read, same⟩ := directory_read plain good
    rw [if_pos good, ← same]
    unfold loaded
    rw [plain_sectors plain]
    dsimp only
    rw [if_neg read]
  · rw [if_neg good]
    unfold loaded
    rw [plain_sectors plain]
    dsimp only
    rw [if_pos (directory_unread plain good)]

theorem listDirectory_blank {b b' : Nat → Byte} {sectors : Nat}
    (blank : ∀ i, sectors * 512 ≤ i → b i = 0) (left dir : Nat)
    (listed : listDirectory b left dir = some b') : ∀ i, sectors * 512 ≤ i → b' i = 0 := by
  induction left generalizing b dir with
  | zero => cases listed
  | succ left ih =>
    unfold listDirectory at listed
    split_ifs at listed with last skipped
    · cases listed
      exact blank
    · exact ih blank _ listed
    · have inside : dir * 32 < sectors * 512 := by
        by_contra beyond
        exact last (blank _ (by omega))
      refine ih ?_ _ listed
      intro i beyond
      rw [Function.update_of_ne (by omega)]
      exact blank i beyond

theorem listdirectory_listed {c : Card} {n : Nat} {s : Volume} (plain : Plain c n s) :
    ((fatListdirectory s).isSome ↔ Listed c n) ∧
      ∀ s', fatListdirectory s = some s' → Plain c (n + 1) s' := by
  have after := plain_loaded plain
  by_cases good : c.fault n = none
  · obtain ⟨read, same⟩ := directory_read plain good
    have run : fatListdirectory s = (listDirectory (directory c) 64 0).map fun b =>
        { loaded s with rootDir := { (loaded s).rootDir with get := b } } := by
      rw [← same]
      unfold fatListdirectory loaded
      rw [plain_sectors plain]
      dsimp only
      rw [if_neg read]
    rw [run]
    constructor
    · simp [Listed, good]
    · intro s' listed
      obtain ⟨b, done, rfl⟩ := Option.map_eq_some_iff.mp listed
      refine ⟨after.sector, after.bpb, after.root, after.bytes, after.fault, after.issued, ?_⟩
      exact listDirectory_blank (same ▸ after.blank) 64 0 done
  · have run : fatListdirectory s = some (loaded s) := by
      unfold fatListdirectory loaded
      rw [plain_sectors plain]
      dsimp only
      rw [if_pos (directory_unread plain good)]
    rw [run]
    constructor
    · simp [Listed, good]
    · intro s' same
      cases same
      exact after

end Fat
