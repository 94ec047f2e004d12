import MaldOS.Hal.FatCache
import MaldOS.Hal.FatTransfer

/-!
`CACHEDFATSIZE` as a parameter: the cache as a window of `k` sectors on the
table. A lookup moves the window to the sector of its entry, and then looks at
the place that the entry has in a window at a multiple of `k`.
-/
namespace Fat
open Arch ByteMemory Slices Sd Runs

/-- `sd_transferblock(lba, (unsigned char *)cachedFAT, blocks, SD_READBLOCK)` -/
def refill (s : Volume) (lba blocks : Nat) : Volume :=
  let (_, cachedFAT, card) := sdTransferblock s.card lba s.cachedFAT blocks .sdReadblock
  { s with card := card, cachedFAT := cachedFAT }

/-- The transfer that `fat_getpartition` ends with. -/
def loadTable (size : Nat) (s : Volume) : Volume :=
  refill s (s.partitionlba + s.rsc) (size * 4 / s.bytesPerSector)

def Volume.relabel (s : Volume) (label : Nat) : Volume := { s with lastEntrySectorOffset := label }

def getpartitionOf (size : Nat) (s : Volume) : Int × Volume :=
  let (ok, s) := readBootRecord s
  if !ok then (0, s)
  else
    let s := { s with
      rootDirectorySector := u32 (u32 (s.spf32 * s.nf + s.rsc) + s.partitionlba)
      bytesPerSector := word 2 s.biosPartitionBlock.get 11 }
    if s.bytesPerSector ≠ 512 then (0, s) else (1, loadTable size s)

def getTableEntryOf (size : Nat) (s : Volume) (index : Nat) : Nat × Volume :=
  let entrySectorOffset := u32 (index * 4) / s.bytesPerSector
  let cachedBlocks := size * 4 / s.bytesPerSector
  let s :=
    if entrySectorOffset < s.lastEntrySectorOffset ∨
        entrySectorOffset ≥ s.lastEntrySectorOffset + cachedBlocks then
      refill s (u32 (s.partitionlba + s.rsc) + entrySectorOffset) cachedBlocks
    else s
  (word 4 s.cachedFAT.get (4 * (index % size)), s.relabel (u32 entrySectorOffset))

theorem getpartitionOf_usual : getpartitionOf cachedfatsize = fatGetpartition := rfl

theorem getTableEntryOf_usual : getTableEntryOf cachedfatsize = fatGetTableEntry := rfl

def lookOf (size : Nat) (s : Volume) (index : Nat) : Volume := (getTableEntryOf size s index).2

def tableBase (s : Volume) : Nat := u32 (s.partitionlba + s.rsc)

def tableWord (s : Volume) (i : Nat) : Nat := word 4 s.card.bytes (tableBase s * 512 + 4 * i)

def AnswersRight (size : Nat) (s : Volume) (index : Nat) : Prop :=
  (getTableEntryOf size s index).1 = tableWord s index

/-- The sector that the window starts at, and the one on the label. -/
structure Held where
  window : Nat
  label : Nat

def entrySector (index : Nat) : Nat := u32 (index * 4) / 512

def Held.Misses (k : Nat) (h : Held) (index : Nat) : Prop :=
  entrySector index < h.label ∨ entrySector index ≥ h.label + k

instance (k : Nat) (h : Held) (index : Nat) : Decidable (h.Misses k index) :=
  inferInstanceAs (Decidable (_ ∨ _))

/-- The label follows every lookup, the window only one that misses. -/
def Held.next (k : Nat) (h : Held) (index : Nat) : Held :=
  ⟨if h.Misses k index then entrySector index else h.window, entrySector index⟩

/-- A hit finds the window at the multiple of `k` that the entry belongs to, and a miss moves it
    there. -/
def Placed (k : Nat) (h : Held) (index : Nat) : Prop :=
  (if h.Misses k index then entrySector index else h.window) = k * (index / (128 * k))

instance (k : Nat) (h : Held) (index : Nat) : Decidable (Placed k h index) :=
  inferInstanceAs (Decidable (_ = _))

/-- The buffer holds the window, and each window that may come is on the card. -/
structure Caching (k : Nat) (s : Volume) (h : Held) : Prop where
  sector : s.bytesPerSector = 512
  sound : Sound s.card
  onCard : tableBase s + 2 ^ 23 + k ≤ 2 ^ 32
  label : s.lastEntrySectorOffset = h.label
  words : ∀ j < 512 * k, s.cachedFAT.get j = s.card.bytes ((tableBase s + h.window) * 512 + j)

theorem entrySector_lt (index : Nat) : entrySector index < 2 ^ 23 := by
  have small := u32_lt (index * 4)
  unfold entrySector
  omega

theorem blocks_of_size (k : Nat) : 128 * k * 4 / 512 = k := by omega

/-- The volume that a lookup leaves, but for the label, and out of which it answers. -/
def consulted (k : Nat) (s : Volume) (h : Held) (index : Nat) : Volume :=
  if h.Misses k index then refill s (tableBase s + entrySector index) k else s

theorem getTableEntryOf_eq {k : Nat} {s : Volume} {h : Held} (caching : Caching k s h)
    (index : Nat) : getTableEntryOf (128 * k) s index =
      (word 4 (consulted k s h index).cachedFAT.get (4 * (index % (128 * k))),
        (consulted k s h index).relabel (entrySector index)) := by
  have small := entrySector_lt index
  have label : u32 (entrySector index) = entrySector index := u32_of_lt (by omega)
  unfold getTableEntryOf consulted Held.Misses
  dsimp only
  rw [caching.sector, caching.label, blocks_of_size]
  unfold entrySector at label ⊢
  rw [label]
  rfl

theorem refill_window {k : Nat} (some : 0 < k) {s : Volume} (sound : Sound s.card) (lba : Nat)
    (room : k < 2 ^ 32) {j : Nat} (inside : j < 512 * k) :
    (refill s lba k).cachedFAT.get j = s.card.bytes (u32 lba * 512 + j) := by
  unfold refill
  rw [read_sound sound lba s.cachedFAT some room]
  dsimp only
  rw [put_get, blit_front _ _ (by omega)]

structure SameTable (s s' : Volume) : Prop where
  base : tableBase s' = tableBase s
  bytes : s'.card.bytes = s.card.bytes
  sector : s'.bytesPerSector = s.bytesPerSector
  sound : Sound s.card → Sound s'.card

theorem SameTable.words {s s' : Volume} (same : SameTable s s') : tableWord s' = tableWord s := by
  funext i
  unfold tableWord
  rw [same.base, same.bytes]

theorem refill_table (s : Volume) (lba blocks : Nat) : SameTable s (refill s lba blocks) where
  base := rfl
  bytes := rfl
  sector := rfl
  sound sound := sound_later sound rfl (Nat.le_succ _)

theorem consulted_table (k : Nat) (s : Volume) (h : Held) (index : Nat) :
    SameTable s (consulted k s h index) := by
  unfold consulted
  split_ifs
  · exact refill_table s _ k
  · exact ⟨rfl, rfl, rfl, id⟩

theorem consulted_window {k : Nat} (some : 0 < k) {s : Volume} {h : Held} (caching : Caching k s h)
    (index : Nat) {j : Nat} (inside : j < 512 * k) : (consulted k s h index).cachedFAT.get j =
      s.card.bytes ((tableBase s + (h.next k index).window) * 512 + j) := by
  have small := entrySector_lt index
  have room := caching.onCard
  have address : u32 (tableBase s + entrySector index) = tableBase s + entrySector index :=
    u32_of_lt (by omega)
  unfold consulted Held.next
  split_ifs
  · rw [refill_window some caching.sound _ (by omega) inside, address]
  · exact caching.words j inside

theorem lookOf_caching {k : Nat} (some : 0 < k) {s : Volume} {h : Held} (caching : Caching k s h)
    (index : Nat) : Caching k (lookOf (128 * k) s index) (h.next k index) ∧
      SameTable s (lookOf (128 * k) s index) := by
  have same := consulted_table k s h index
  have table : SameTable s ((consulted k s h index).relabel (entrySector index)) :=
    ⟨same.base, same.bytes, same.sector, same.sound⟩
  unfold lookOf
  rw [getTableEntryOf_eq caching]
  refine ⟨⟨table.sector.trans caching.sector, table.sound caching.sound, ?_, rfl, ?_⟩, table⟩
  · rw [table.base]
    exact caching.onCard
  · intro j inside
    rw [table.base, table.bytes]
    exact consulted_window some caching index inside

/-- The answer is the word that stands where the entry would, were the window placed right. -/
theorem lookOf_answer {k : Nat} (some : 0 < k) {s : Volume} {h : Held} (caching : Caching k s h)
    (index : Nat) : (getTableEntryOf (128 * k) s index).1 =
      tableWord s (128 * (h.next k index).window + index % (128 * k)) := by
  generalize place : index % (128 * k) = e
  have entry : e < 128 * k := place ▸ Nat.mod_lt _ (by omega)
  have bytes : ∀ i < 4, (consulted k s h index).cachedFAT.get (4 * e + i) =
      s.card.bytes (tableBase s * 512 + 4 * (128 * (h.next k index).window + e) + i) := by
    intro i few
    rw [consulted_window some caching index (by omega)]
    exact congrArg _ (by omega)
  rw [getTableEntryOf_eq caching, place]
  exact word_congr bytes

theorem placed_iff (k : Nat) (h : Held) (index : Nat) :
    128 * (h.next k index).window + index % (128 * k) = index ↔ Placed k h index := by
  have split := Nat.div_add_mod index (128 * k)
  rw [Nat.mul_assoc] at split
  unfold Held.next Placed
  dsimp only
  omega

theorem word_four (b : Nat → Byte) (o : Nat) :
    word 4 b o = ofBytes [b o, b (o + 1), b (o + 2), b (o + 3)] := rfl

theorem words_tell (base i j : Nat) :
    (∀ bytes : Nat → Byte, word 4 bytes (base * 512 + 4 * i) = word 4 bytes (base * 512 + 4 * j)) ↔
      i = j := by
  constructor
  · intro same
    by_contra different
    have tell := same fun a => if a = base * 512 + 4 * j then 1 else 0
    rw [word_four, word_four, if_pos rfl] at tell
    repeat rw [if_neg (by omega)] at tell
    exact absurd tell (by decide)
  · intro same
    rw [same]
    exact fun _ => rfl

theorem loaded_caching {k : Nat} (some : 0 < k) {s : Volume} (sector : s.bytesPerSector = 512)
    (label : s.lastEntrySectorOffset = 0) (sound : Sound s.card)
    (onCard : tableBase s + 2 ^ 23 + k ≤ 2 ^ 32) :
    Caching k (loadTable (128 * k) s) ⟨0, 0⟩ ∧ SameTable s (loadTable (128 * k) s) := by
  have blocks : loadTable (128 * k) s = refill s (s.partitionlba + s.rsc) k := by
    unfold loadTable
    rw [sector, blocks_of_size]
  have fetched : ∀ j < 512 * k, (refill s (s.partitionlba + s.rsc) k).cachedFAT.get j =
      s.card.bytes ((tableBase s + 0) * 512 + j) :=
    fun j inside => refill_window some sound _ (by omega) inside
  have table := refill_table s (s.partitionlba + s.rsc) k
  rw [blocks]
  exact ⟨⟨sector, table.sound sound, onCard, label, fetched⟩, table⟩

/-- A volume that is accepted comes to this transfer with the label still 0. -/
theorem getpartitionOf_loads {size : Nat} {s : Volume} (sound : Sound s.card)
    (accepted : (getpartitionOf size s).1 = 1) :
    ∃ u : Volume, (getpartitionOf size s).2 = loadTable size u ∧ u.bytesPerSector = 512 ∧
      u.lastEntrySectorOffset = s.lastEntrySectorOffset ∧ Sound u.card := by
  have later := (boot_sound sound).1
  have label := (boot_kept s).2
  unfold getpartitionOf at accepted ⊢
  dsimp only at accepted ⊢
  split_ifs at accepted ⊢ with refused other
  · exact absurd accepted Int.zero_ne_one
  · exact absurd accepted Int.zero_ne_one
  · exact ⟨_, rfl, not_not.mp other, label, later⟩

theorem answers_iff {k : Nat} (some : 0 < k) {s : Volume} {h : Held} (caching : Caching k s h)
    (lookups : List Nat) :
    Along (lookOf (128 * k)) (AnswersRight (128 * k)) s lookups ↔
      Along (Held.next k) (fun h index =>
        tableWord s (128 * (h.next k index).window + index % (128 * k)) = tableWord s index)
        h lookups := by
  apply @along_related _ _ _ _ _ fun s' h => Caching k s' h ∧ SameTable s s'
  · rintro s' h index ⟨caching, table⟩
    unfold AnswersRight
    rw [lookOf_answer some caching, table.words]
  · rintro s' h index ⟨caching, table⟩
    obtain ⟨caching', table'⟩ := lookOf_caching some caching index
    exact ⟨caching', table'.base.trans table.base, table'.bytes.trans table.bytes,
      table'.sector.trans table.sector, fun sound => table'.sound (table.sound sound)⟩
  · exact ⟨caching, rfl, rfl, rfl, id⟩

/-- A run of lookups is answered right on every card exactly if no lookup finds the window at
    another place than its entry's. -/
theorem windows_right_iff {k : Nat} (some : 0 < k) {s : Volume} (sector : s.bytesPerSector = 512)
    (label : s.lastEntrySectorOffset = 0) (sound : Sound s.card)
    (onCard : tableBase s + 2 ^ 23 + k ≤ 2 ^ 32) (lookups : List Nat) :
    (∀ bytes, Along (lookOf (128 * k)) (AnswersRight (128 * k))
      (loadTable (128 * k) (s.rewrite bytes)) lookups) ↔
      Along (Held.next k) (Placed k) ⟨0, 0⟩ lookups := by
  have each : ∀ bytes, Along (lookOf (128 * k)) (AnswersRight (128 * k))
      (loadTable (128 * k) (s.rewrite bytes)) lookups ↔ Along (Held.next k) (fun h index =>
        word 4 bytes (tableBase s * 512 + 4 * (128 * (h.next k index).window + index % (128 * k))) =
          word 4 bytes (tableBase s * 512 + 4 * index)) ⟨0, 0⟩ lookups := by
    intro bytes
    obtain ⟨caching, table⟩ := @loaded_caching k some (s.rewrite bytes) sector label sound onCard
    rw [answers_iff some caching, table.words]
    rfl
  simp only [each]
  rw [along_all]
  exact along_congr (fun h index => (words_tell _ _ _).trans (placed_iff k h index)) lookups _

/-- With one sector the window is the label. -/
theorem one_sector_placed {lookups : List Nat} (entries : ∀ index ∈ lookups, index < 2 ^ 30) :
    Along (Held.next 1) (Placed 1) ⟨0, 0⟩ lookups := by
  have small := (along_forall (Held.next 1) (· < 2 ^ 30) ⟨0, 0⟩ lookups).mpr entries
  refine @along_invariant _ _ _ (fun h => h.window = h.label) _ _ ?_ lookups _ rfl small
  intro h index held entry
  have own : (if h.Misses 1 index then entrySector index else h.window) = entrySector index := by
    split_ifs with misses
    · rfl
    · unfold Held.Misses at misses
      omega
  have sector : entrySector index = index / 128 := by
    unfold entrySector
    rw [u32_of_lt (by omega)]
    omega
  constructor
  · unfold Placed
    rw [own, sector]
    omega
  · exact own

def blankVolume : Volume :=
  { staticVolume ⟨fun _ => 0, fun _ => none, 0⟩ (fun _ => 0) with bytesPerSector := 512 }

/-- A cache of two sectors: an odd sector next to the even one, then two sectors further on. -/
theorem windows_right_two :
    Along (lookOf 256) (AnswersRight 256)
      (loadTable 256 (blankVolume.rewrite fun i => BitVec.ofNat 8 (i / 4))) [200, 3, 600, 700] := by
  have right := @windows_right_iff 2 (by decide) blankVolume rfl rfl (fun _ _ => rfl) (by decide)
    [200, 3, 600, 700]
  exact right.mpr (by decide) _

/-- The first lookup of a cluster in an odd sector. -/
theorem windows_wrong_two :
    (getpartitionOf 256 (staticVolume sampleCard fun _ => 0)).1 = 1 ∧
      (getTableEntryOf 256
        (getpartitionOf 256 (staticVolume sampleCard fun _ => 0)).2 65528).1 = 0 ∧
      tableWord (getpartitionOf 256 (staticVolume sampleCard fun _ => 0)).2 65528 = 0x0FFFFFF8 := by
  decide

end Fat
