import MaldOS.Hal.FatDivisions

/-!
The label of the one-sector cache and the buffer behind it. A lookup sets the
label whether or not the transfer brought the sector, so a transfer that fails
leaves the words of another sector under it.
-/
namespace Fat
open Arch ByteMemory Slices Sd Runs

def mountedVolume (c : Card) (stack : Nat → Byte) : Volume := (fatGetpartition (staticVolume c stack)).2

def look (s : Volume) (index : Nat) : Volume := (fatGetTableEntry s index).2

/-- Byte `i` of sector `k` of the table on the card. -/
def tableSector (s : Volume) (k i : Nat) : Byte :=
  s.card.bytes (u32 (s.partitionlba + s.rsc + k) * 512 + i)

def SectorCached (s : Volume) (k : Nat) : Prop := ∀ i < 512, s.cachedFAT.get i = tableSector s k i

def Coherent (s : Volume) : Prop := SectorCached s s.lastEntrySectorOffset

def sectorOf (index : Nat) : Nat := index / cachedfatsize

/-- `entry_sector_offset` -/
def entryOffset (s : Volume) (index : Nat) : Nat := u32 (index * 4) / s.bytesPerSector

def Fetches (s : Volume) (index : Nat) : Prop :=
  entryOffset s index < s.lastEntrySectorOffset ∨
    entryOffset s index ≥ s.lastEntrySectorOffset + cachedfatsize * 4 / s.bytesPerSector

structure AnswersOwn (s : Volume) (index : Nat) : Prop where
  label : (look s index).lastEntrySectorOffset = sectorOf index
  coherent : Coherent (look s index)
  answer : (fatGetTableEntry s index).1 =
    word 4 (tableSector s (sectorOf index)) (4 * (index % cachedfatsize))

/-- The offset comes to the sector of the entry, and a transfer moves its block at least, or the
    sector held before is the same. -/
structure Fetched (s : Volume) (index : Nat) : Prop where
  offset : entryOffset s index = sectorOf index
  moved : (Fetches s index ∧ s.card.fault s.card.issued ≠ some 0) ∨
    ∀ i < 512, tableSector s s.lastEntrySectorOffset i = tableSector s (sectorOf index) i

/-- `fat_getpartition` comes to its third transfer and that moves its block, or there is nothing
    in the first sector of the table. -/
def FirstFetched (c : Card) (stack : Nat → Byte) : Prop :=
  ((fatGetpartition (staticVolume c stack)).1 = 1 ∧ c.fault (c.issued + 2) ≠ some 0) ∨
    ∀ i < 512, tableSector (mountedVolume c stack) 0 i = 0

theorem look_cases (s : Volume) (index : Nat) :
    (¬ Fetches s index ∧ look s index = { s with lastEntrySectorOffset := entryOffset s index }) ∨
    (Fetches s index ∧ look s index = { s with
      card := { s.card with issued := s.card.issued + 1 }
      cachedFAT := (sdTransferblock s.card (u32 (s.partitionlba + s.rsc) + entryOffset s index)
        s.cachedFAT (cachedfatsize * 4 / s.bytesPerSector) .sdReadblock).2.1
      lastEntrySectorOffset := entryOffset s index }) := by
  have small : entryOffset s index < 2 ^ 32 :=
    Nat.lt_of_le_of_lt (Nat.div_le_self _ _) (u32_lt (index * 4))
  have offset : u32 (u32 (index * 4) / s.bytesPerSector) = entryOffset s index := u32_of_lt small
  unfold look fatGetTableEntry Fetches
  dsimp only
  rw [offset]
  unfold entryOffset
  split_ifs with fetches
  · right
    rw [read_card]
    exact ⟨fetches, rfl⟩
  · left
    exact ⟨fetches, rfl⟩

theorem look_label (s : Volume) (index : Nat) :
    (look s index).lastEntrySectorOffset = entryOffset s index := by
  obtain ⟨-, kept⟩ | ⟨-, fetched⟩ := look_cases s index
  · rw [kept]
  · rw [fetched]

theorem look_table (s : Volume) (index k i : Nat) :
    tableSector (look s index) k i = tableSector s k i := by
  obtain ⟨-, kept⟩ | ⟨-, fetched⟩ := look_cases s index
  · rw [kept]
    rfl
  · rw [fetched]
    rfl

/-- A lookup leaves the cache right exactly if it got the sector it puts on the label, or had the
    same words already. -/
theorem look_coherent_iff {s : Volume} (coherent : Coherent s) (index : Nat) :
    Coherent (look s index) ↔ (Fetches s index ∧ s.card.fault s.card.issued ≠ some 0) ∨
      ∀ i < 512, tableSector s s.lastEntrySectorOffset i = tableSector s (entryOffset s index) i := by
  unfold Coherent SectorCached
  rw [look_label]
  simp only [look_table]
  have held (same : ∀ i < 512, (look s index).cachedFAT.get i =
      tableSector s s.lastEntrySectorOffset i) :
      (∀ i < 512, (look s index).cachedFAT.get i = tableSector s (entryOffset s index) i) ↔
        ∀ i < 512, tableSector s s.lastEntrySectorOffset i =
          tableSector s (entryOffset s index) i := by
    constructor
    · exact fun right i inside => (same i inside).symm.trans (right i inside)
    · exact fun right i inside => (same i inside).trans (right i inside)
  obtain ⟨none, kept⟩ | ⟨fetches, fetched⟩ := look_cases s index
  · rw [held fun i inside => by rw [kept]; exact coherent i inside]
    simp [none]
  · have holds : ∀ i < 512, (look s index).cachedFAT.get i =
        if s.card.fault s.card.issued = some 0 then s.cachedFAT.get i
        else tableSector s (entryOffset s index) i := by
      intro i inside
      rw [fetched]
      dsimp only
      rw [block_read _ _ _ _ inside, u32_add_u32]
      rfl
    by_cases lost : s.card.fault s.card.issued = some 0
    · simp only [if_pos lost] at holds
      rw [held fun i inside => (holds i inside).trans (coherent i inside)]
      simp [lost]
    · simp only [if_neg lost] at holds
      exact ⟨fun _ => .inl ⟨fetches, lost⟩, fun _ => holds⟩

theorem answer_cached {s : Volume} {index : Nat}
    (label : (look s index).lastEntrySectorOffset = sectorOf index)
    (coherent : Coherent (look s index)) :
    (fatGetTableEntry s index).1 =
      word 4 (tableSector s (sectorOf index)) (4 * (index % cachedfatsize)) := by
  have entry : index % cachedfatsize < 128 := Nat.mod_lt _ (by decide)
  have value : (fatGetTableEntry s index).1 =
      word 4 (look s index).cachedFAT.get (4 * (index % cachedfatsize)) := rfl
  rw [value]
  apply word_congr
  intro i few
  rw [coherent _ (by omega), label, look_table]

theorem answersOwn_iff {s : Volume} (coherent : Coherent s) (index : Nat) :
    AnswersOwn s index ↔ Fetched s index := by
  have right := look_coherent_iff coherent index
  constructor
  · rintro ⟨label, kept, -⟩
    have offset := (look_label s index).symm.trans label
    rw [offset] at right
    exact ⟨offset, right.mp kept⟩
  · rintro ⟨offset, moved⟩
    have label := (look_label s index).trans offset
    rw [offset] at right
    exact ⟨label, right.mpr moved, answer_cached label (right.mpr moved)⟩

/-- On a volume with sectors of 512 bytes, every number below 2 ^ 30 has the right offset. -/
theorem offset_iff {s : Volume} (sector : s.bytesPerSector = 512) (index : Nat) :
    entryOffset s index = sectorOf index ↔ index < 2 ^ 30 := by
  have entries : cachedfatsize = 128 := by decide
  unfold entryOffset sectorOf u32
  rw [entries, sector]
  omega

/-! The cache after `fat_getpartition`. -/

theorem boot_kept (s : Volume) :
    (readBootRecord s).2.cachedFAT = s.cachedFAT ∧
      (readBootRecord s).2.lastEntrySectorOffset = s.lastEntrySectorOffset := by
  unfold readBootRecord
  dsimp only
  split_ifs <;> exact ⟨rfl, rfl⟩

theorem mounted_label (c : Card) (stack : Nat → Byte) :
    (mountedVolume c stack).lastEntrySectorOffset = 0 := by
  have kept := (boot_kept (staticVolume c stack)).2
  unfold mountedVolume fatGetpartition
  dsimp only
  split_ifs <;> exact kept

theorem mounted_refused {c : Card} {stack : Nat → Byte}
    (refused : (fatGetpartition (staticVolume c stack)).1 ≠ 1) :
    (mountedVolume c stack).cachedFAT = static 512 := by
  have kept := (boot_kept (staticVolume c stack)).1
  unfold mountedVolume
  unfold fatGetpartition at refused ⊢
  dsimp only at refused ⊢
  split_ifs at refused ⊢
  · exact kept
  · exact kept
  · exact absurd rfl refused

theorem accepted_cases {c : Card} {stack : Nat → Byte}
    (accepted : (fatGetpartition (staticVolume c stack)).1 = 1) :
    Bootable c ∧ bootSector c = 512 := by
  have named : (fatGetpartition (staticVolume c stack)).2.bytesPerSector = 512 := by
    unfold fatGetpartition at accepted ⊢
    dsimp only at accepted ⊢
    by_cases refused : (!(readBootRecord (staticVolume c stack)).1) = true
    · rw [if_pos refused] at accepted
      exact absurd accepted Int.zero_ne_one
    by_cases other : word 2 (readBootRecord (staticVolume c stack)).2.biosPartitionBlock.get 11 ≠ 512
    · rw [if_neg refused, if_pos other] at accepted
      exact absurd accepted Int.zero_ne_one
    · rw [if_neg refused, if_neg other]
      exact not_not.mp other
  have bootable : Bootable c := bootable_of_mount stack (by rw [named]; decide)
  exact ⟨bootable, (mount_bootable stack bootable).sector.symm.trans named⟩

theorem mounted_accepted {c : Card} {stack : Nat → Byte}
    (accepted : (fatGetpartition (staticVolume c stack)).1 = 1) {i : Nat} (inside : i < 512) :
    (mountedVolume c stack).cachedFAT.get i =
      if c.fault (c.issued + 2) = some 0 then 0 else tableSector (mountedVolume c stack) 0 i := by
  obtain ⟨bootable, usual⟩ := accepted_cases accepted
  have sector : word 2 (recorded c stack).biosPartitionBlock.get 11 = 512 :=
    (word_congr fun i few => record_get c (by omega)).trans usual
  unfold mountedVolume fatGetpartition
  rw [readBootRecord_bootable stack bootable]
  dsimp only
  rw [Bool.not_true, if_neg Bool.false_ne_true, sector, if_neg (by decide),
    block_read _ _ _ _ inside, read_card]
  rfl

theorem mounted_coherent_iff (c : Card) (stack : Nat → Byte) :
    Coherent (mountedVolume c stack) ↔ FirstFetched c stack := by
  unfold Coherent SectorCached FirstFetched
  rw [mounted_label]
  by_cases accepted : (fatGetpartition (staticVolume c stack)).1 = 1
  · have cached := fun i => @mounted_accepted c stack accepted i
    by_cases lost : c.fault (c.issued + 2) = some 0
    · simp only [if_pos lost] at cached
      simp only [accepted, lost, ne_eq, not_true_eq_false, and_false, false_or]
      constructor
      · exact fun right i inside => (right i inside).symm.trans (cached i inside)
      · exact fun empty i inside => (cached i inside).trans (empty i inside).symm
    · simp only [if_neg lost] at cached
      exact ⟨fun _ => .inl ⟨accepted, lost⟩, fun _ => cached⟩
  · rw [mounted_refused accepted]
    simp only [accepted, false_and, false_or]
    constructor
    · exact fun right i inside => (right i inside).symm
    · exact fun empty i inside => (empty i inside).symm

/-- Over every run of lookups on a volume just mounted, the buffer holds the sector of its label
    and each answer comes out of the sector asked for, exactly if the first sector came, and for
    each lookup the one it needs. -/
theorem cache_coherent_iff (c : Card) (stack : Nat → Byte) (lookups : List Nat) :
    Coherent (mountedVolume c stack) ∧ Along look AnswersOwn (mountedVolume c stack) lookups ↔
      FirstFetched c stack ∧ Along look Fetched (mountedVolume c stack) lookups := by
  rw [mounted_coherent_iff]
  apply and_congr_right
  intro first
  apply @along_same _ _ look Coherent
  · exact fun s index coherent => answersOwn_iff coherent index
  · exact fun s index _ own => own.coherent
  · exact (mounted_coherent_iff c stack).mpr first

def faultyCard : Card := { sampleCard with fault := fun n => if n = 3 then some 0 else none }

/-- One failure, and the entry of a cluster is read from the first sector of the table, then and
    ever after. -/
theorem cache_poisoned :
    (fatGetpartition (staticVolume faultyCard fun _ => 0)).1 = 1 ∧
      (fatGetTableEntry (look (mountedVolume faultyCard fun _ => 0) 65528) 65528).1 = 0 ∧
      fatEntry (mountedVolume faultyCard fun _ => 0) 65528 = 0x0FFFFFF8 ∧
      ¬ Coherent (look (mountedVolume faultyCard fun _ => 0) 65528) ∧
      ¬ Along look AnswersOwn (mountedVolume faultyCard fun _ => 0) [65528, 65528] := by
  have stale : ¬ Coherent (look (mountedVolume faultyCard fun _ => 0) 65528) := by
    intro coherent
    exact absurd (coherent 480 (by decide)) (by decide)
  refine ⟨by decide, by decide, by decide, stale, ?_⟩
  intro answers
  exact stale answers.1.coherent

end Fat
