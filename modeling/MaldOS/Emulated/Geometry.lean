import MaldOS.Emulated.Blocks

/-!
Where the blocks of a disk lie in its file. `seek_disk_block` weighs the head by
the number of cylinders and not by that of the blocks of all cylinders.
-/
namespace Emulated
open Arch ByteMemory Registers ArmTimers EmulatedTimers Runs Slices

/-- A geometry that `init_emulated_disks` accepts, with all its blocks in a file of less than
    4 GiB. -/
structure Geometry where
  cylinders : Nat
  heads : Nat
  sectors : Nat
  some : 1 ≤ cylinders ∧ 1 ≤ heads ∧ 1 ≤ sectors
  accepted : cylinders ≤ maxCylinders ∧ heads ≤ maxHeads ∧ sectors ≤ maxSectors
  room : cylinders * heads * sectors * diskBlocksize + 28 < 2 ^ 32

structure Place (g : Geometry) where
  cylinder : Fin g.cylinders
  head : Fin g.heads
  sector : Fin g.sectors

def Disk.at (d : Disk) {g : Geometry} (p : Place g) : Disk :=
  { d with
    cylinders := g.cylinders
    heads := g.heads
    sectors := g.sectors
    currentCylinder := p.cylinder
    currentHead := p.head
    currentSector := p.sector }

def System.diskAt (s : System) (i : Fin maxDevices) {g : Geometry} (p : Place g) : System :=
  s.setDisk i ((s.disks i).at p)

def Place.index {g : Geometry} (p : Place g) : Nat :=
  p.head * g.cylinders + p.cylinder * g.sectors + p.sector

theorem block_lt {c h s x y z : Nat} (cylinder : x < c) (head : y < h) (sector : z < s) :
    y * c + x * s + z < c * h * s := by
  obtain ⟨n, rfl⟩ : ∃ n, h = n + 1 := ⟨h - 1, by omega⟩
  have heads : y * c ≤ n * c := Nat.mul_le_mul_right _ (by omega)
  have cylinders : x * s + s ≤ c * s := by
    rw [← Nat.succ_mul]
    exact Nat.mul_le_mul_right _ cylinder
  have more : n * c ≤ n * c * s := Nat.le_mul_of_pos_right _ (by omega)
  have whole : c * (n + 1) * s = n * c * s + c * s := by
    rw [Nat.mul_succ, Nat.add_mul, Nat.mul_comm c n]
  omega

theorem index_lt {g : Geometry} (p : Place g) : p.index < g.cylinders * g.heads * g.sectors :=
  block_lt p.cylinder.isLt p.head.isLt p.sector.isLt

/-- No offset wraps around. -/
theorem seek_at {g : Geometry} (d : Disk) (p : Place g) :
    seekDiskBlock (d.at p) = 28 + p.index * diskBlocksize := by
  have below : (p.index + 1) * diskBlocksize ≤ g.cylinders * g.heads * g.sectors * diskBlocksize :=
    Nat.mul_le_mul_right _ (index_lt p)
  have room := g.room
  have size : diskBlocksize = 4096 := rfl
  unfold seekDiskBlock
  apply u32_of_lt
  show 28 + p.index * diskBlocksize < 2 ^ 32
  rw [Nat.add_mul] at below
  omega

/-- Two heads and two sectors are enough for the first block of the second head to be one of the
    first head as well. -/
theorem places_alias {g : Geometry} (heads : g.heads ≠ 1) (sectors : g.sectors ≠ 1) :
    ∃ p q : Place g, p ≠ q ∧ p.index = q.index := by
  obtain ⟨cylinders, someHeads, someSectors⟩ := g.some
  have reached : g.cylinders / g.sectors < g.cylinders := Nat.div_lt_self cylinders (by omega)
  have low : g.cylinders % g.sectors < g.sectors := Nat.mod_lt _ someSectors
  refine ⟨⟨⟨0, by omega⟩, ⟨1, by omega⟩, ⟨0, by omega⟩⟩,
    ⟨⟨g.cylinders / g.sectors, reached⟩, ⟨0, by omega⟩, ⟨g.cylinders % g.sectors, low⟩⟩, ?_, ?_⟩
  · intro same
    have head := congrArg (fun p : Place g => p.head.val) same
    simp at head
  · have split := Nat.div_add_mod g.cylinders g.sectors
    simp only [Place.index]
    rw [Nat.mul_comm (g.cylinders / g.sectors)]
    omega

theorem digits_unique {n a b c d : Nat} (low : b < n) (low' : d < n)
    (same : a * n + b = c * n + d) : a = c ∧ b = d := by
  have positive : 0 < n := by omega
  have rest := congrArg (· % n) same
  have quotient := congrArg (· / n) same
  simp only [Nat.mul_comm _ n, Nat.mul_add_mod, Nat.mod_eq_of_lt low, Nat.mod_eq_of_lt low']
    at rest
  simp only [Nat.mul_comm _ n, Nat.mul_add_div positive, Nat.div_eq_of_lt low,
    Nat.div_eq_of_lt low', Nat.add_zero] at quotient
  exact ⟨quotient, rest⟩

theorem index_injective {g : Geometry} (single : g.heads = 1 ∨ g.sectors = 1) {p q : Place g}
    (same : p.index = q.index) : p = q := by
  obtain ⟨c, h, s⟩ := p
  obtain ⟨c', h', s'⟩ := q
  simp only [Place.index] at same
  rcases single with heads | sectors
  · have first : h.val = 0 := by have := h.isLt; omega
    have first' : h'.val = 0 := by have := h'.isLt; omega
    rw [first, first', Nat.zero_mul, Nat.zero_add, Nat.zero_add] at same
    obtain ⟨cylinder, sector⟩ := digits_unique s.isLt s'.isLt same
    rw [Fin.ext cylinder, Fin.ext (first.trans first'.symm), Fin.ext sector]
  · have only : s.val = 0 := by have := s.isLt; omega
    have only' : s'.val = 0 := by have := s'.isLt; omega
    rw [only, only', sectors, Nat.mul_one, Nat.mul_one, Nat.add_zero, Nat.add_zero] at same
    obtain ⟨head, cylinder⟩ := digits_unique c.isLt c'.isLt same
    rw [Fin.ext cylinder, Fin.ext head, Fin.ext (only.trans only'.symm)]

theorem multiples_apart {m n : Nat} (apart : m ≠ n) (k : Nat) : m * k + k ≤ n * k ∨ n * k + k ≤ m * k := by
  rw [← Nat.succ_mul, ← Nat.succ_mul]
  rcases Nat.lt_or_gt_of_ne apart with less | more
  · exact Or.inl (Nat.mul_le_mul_right k less)
  · exact Or.inr (Nat.mul_le_mul_right k more)

/-- What `fat_readfile` gives of a part of a file that a write left alone. -/
theorem read_spared {s s' : Fat.Volume} {clusters : Nat} {cs : List Nat} (ready : Fat.Ready s)
    (ready' : Fat.Ready s') (well : Fat.WellFormed s clusters) (chain : Fat.FileChain s clusters cs)
    (retains : Fat.Retains s s') (data : Nat → Byte) (seek : Nat) {length : Nat}
    (room : length < 2 ^ 32)
    (same : ∀ i < length, seek + i < s.clusterSize * cs.length →
      Fat.fileByte s' cs (seek + i) = Fat.fileByte s cs (seek + i)) :
    ∃ count data' t t', Fat.fatReadfile s (cs.getD 0 0) data seek length = some (count, data', t) ∧
      Fat.fatReadfile s' (cs.getD 0 0) data seek length = some (count, data', t') := by
  obtain ⟨t, before, -⟩ := Fat.fatReadfile_spec ready well chain data seek length room
  obtain ⟨t', after, -⟩ := Fat.fatReadfile_spec ready' (Fat.retains_wellFormed retains well)
    (Fat.retains_chain retains well chain) data seek length room
  rw [Fat.retains_clusterSize retains, Fat.retains_reach retains well chain] at after
  refine ⟨_, _, t, t', before, ?_⟩
  rw [after]
  have inside := Nat.mul_le_mul_left s.clusterSize (Fat.reach_le s cs)
  congr 3
  apply blit_congr
  intro i early
  exact same i (by omega) (by omega)

/-- A WRITEBLK at `p` does not change what a READBLK at `q` returns and puts into memory,
    whatever the file of the disk. -/
def Independent {g : Geometry} (p q : Place g) : Prop :=
  ∀ (s : System) (i : Fin maxDevices) (clusters : Nat) (cs : List Nat), Fat.Ready s.fat →
    Fat.WellFormed s.fat clusters → Fat.FileChain s.fat clusters cs →
    cs.getD 0 0 = (s.disks i).fat32Cluster → s.fat.clusterSize ≤ s.fat.buffer.size →
    ∀ buffer buffer',
      (readDiskBlock ((writeDiskBlock (s.diskAt i p) i buffer).2.diskAt i q) i buffer').1 =
          (readDiskBlock (s.diskAt i q) i buffer').1 ∧
        (readDiskBlock ((writeDiskBlock (s.diskAt i p) i buffer).2.diskAt i q) i buffer').2.ram =
          (readDiskBlock (s.diskAt i q) i buffer').2.ram

@[simp] theorem diskAt_disk (s : System) (i : Fin maxDevices) {g : Geometry} (p : Place g) :
    (s.diskAt i p).disks i = (s.disks i).at p := Function.update_self _ _ _

theorem readDiskBlock_at (s : System) (i : Fin maxDevices) {g : Geometry} (p : Place g)
    (found : (s.disks i).fat32Cluster ≠ 0) (buffer : BitVec 64) :
    readDiskBlock (s.diskAt i p) i buffer = (s.diskAt i p).readfile (s.disks i).fat32Cluster buffer
      (28 + p.index * diskBlocksize) diskBlocksize := by
  have found' : ((s.disks i).at p).fat32Cluster ≠ 0 := found
  unfold readDiskBlock
  dsimp only
  rw [diskAt_disk, if_neg found', seek_at]
  rfl

theorem writeDiskBlock_at (s : System) (i : Fin maxDevices) {g : Geometry} (p : Place g)
    (found : (s.disks i).fat32Cluster ≠ 0) {buffer : BitVec 64} {r : Int} {fat : Fat.Volume}
    (wrote : Fat.fatWritefile s.fat (s.disks i).fat32Cluster (window s.ram buffer)
      (28 + p.index * diskBlocksize) diskBlocksize = some (r, fat)) :
    (writeDiskBlock (s.diskAt i p) i buffer).2 = { s.diskAt i p with fat := fat } := by
  have found' : ((s.disks i).at p).fat32Cluster ≠ 0 := found
  unfold writeDiskBlock
  dsimp only
  rw [diskAt_disk, if_neg found', seek_at]
  unfold System.writefile
  have same : Fat.fatWritefile (s.diskAt i p).fat ((s.disks i).at p).fat32Cluster
      (window (s.diskAt i p).ram buffer) (28 + p.index * diskBlocksize) diskBlocksize =
        some (r, fat) := wrote
  simp only [same, Option.get_some]

theorem independent_of_apart {g : Geometry} {p q : Place g} (apart : p.index ≠ q.index) :
    Independent p q := by
  intro s i clusters cs ready well chain first fits buffer buffer'
  by_cases found : (s.disks i).fat32Cluster = 0
  · have none : ∀ (t : System) {g : Geometry} (p : Place g) (b : BitVec 64),
        (t.disks i).fat32Cluster = 0 → readDiskBlock (t.diskAt i p) i b = (0, t.diskAt i p) := by
      intro t g p b zero
      have zero' : ((t.disks i).at p).fat32Cluster = 0 := zero
      unfold readDiskBlock
      dsimp only
      rw [diskAt_disk, if_pos zero']
    have kept : (writeDiskBlock (s.diskAt i p) i buffer).2 = s.diskAt i p := by
      have found' : ((s.disks i).at p).fat32Cluster = 0 := found
      unfold writeDiskBlock
      dsimp only
      rw [diskAt_disk, if_pos found']
    have still : ((s.diskAt i p).disks i).fat32Cluster = 0 := by
      rw [diskAt_disk]
      exact found
    rw [kept, none s q buffer' found, none (s.diskAt i p) q buffer' still]
    exact ⟨rfl, rfl⟩
  · obtain ⟨r, fat, wrote, ready', retains, same⟩ := Fat.fatWritefile_inside ready well chain
      (window s.ram buffer) (28 + p.index * diskBlocksize) (by decide : diskBlocksize < 2 ^ 32) fits
    rw [first] at wrote
    have separate := multiples_apart apart diskBlocksize
    obtain ⟨count, data, t, t', before, after⟩ := read_spared ready ready' well chain retains
      (window s.ram buffer') (28 + q.index * diskBlocksize)
      (by decide : diskBlocksize < 2 ^ 32) fun k early inside => same _ inside (by omega)
    rw [first] at before after
    rw [writeDiskBlock_at s i p found wrote]
    obtain ⟨u, written⟩ : ∃ u : System, u = { s.diskAt i p with fat := fat } := ⟨_, rfl⟩
    have disk : u.disks i = (s.disks i).at p := by
      rw [written]
      exact diskAt_disk s i p
    have found' : (u.disks i).fat32Cluster ≠ 0 := by
      rw [disk]
      exact found
    have later : Fat.fatReadfile (u.diskAt i q).fat (u.disks i).fat32Cluster
        (window (u.diskAt i q).ram buffer') (28 + q.index * diskBlocksize) diskBlocksize =
          some (count, data, t') := by
      rw [disk, written]
      exact after
    have earlier : Fat.fatReadfile (s.diskAt i q).fat (s.disks i).fat32Cluster
        (window (s.diskAt i q).ram buffer') (28 + q.index * diskBlocksize) diskBlocksize =
          some (count, data, t) := before
    rw [← written, readDiskBlock_at s i q found, readDiskBlock_at u i q found']
    unfold System.readfile
    simp only [later, earlier, Option.get_some]
    exact ⟨trivial, trivial⟩

def BlocksApart (g : Geometry) : Prop :=
  ∀ p q : Place g, p ≠ q → Independent p q ∧ ∀ d : Disk,
    seekDiskBlock (d.at p) + diskBlocksize ≤ seekDiskBlock (d.at q) ∨
      seekDiskBlock (d.at q) + diskBlocksize ≤ seekDiskBlock (d.at p)

/-- The blocks of a disk are apart exactly if it has a single head or a single sector. -/
theorem blocks_apart_iff (g : Geometry) : BlocksApart g ↔ g.heads = 1 ∨ g.sectors = 1 := by
  have size : diskBlocksize = 4096 := rfl
  constructor
  · intro apart
    by_contra neither
    obtain ⟨heads, sectors⟩ := not_or.mp neither
    obtain ⟨p, q, different, same⟩ := places_alias heads sectors
    have separate := (apart p q different).2 ⟨0, 0, 0, 0, 0, 0, 0, 0, 0, 0⟩
    rw [seek_at, seek_at, same] at separate
    omega
  · intro single p q different
    have apart : p.index ≠ q.index := fun same => different (index_injective single same)
    refine ⟨independent_of_apart apart, ?_⟩
    intro d
    have separate := multiples_apart apart diskBlocksize
    rw [seek_at, seek_at]
    omega

/-- Two cylinders, two heads and two sectors: sector 0 of head 1 of cylinder 0 is where sector 0
    of head 0 of cylinder 1 is. -/
theorem second_head_aliases :
    ∃ g : Geometry, g.cylinders = 2 ∧ g.heads = 2 ∧ g.sectors = 2 ∧ ∃ p q : Place g,
      p ≠ q ∧ (p.cylinder.val, p.head.val, p.sector.val) = (0, 1, 0) ∧
        (q.cylinder.val, q.head.val, q.sector.val) = (1, 0, 0) ∧
        (∀ d : Disk, seekDiskBlock (d.at p) = 8220 ∧ seekDiskBlock (d.at q) = 8220) ∧
        ¬ BlocksApart g := by
  refine ⟨⟨2, 2, 2, by decide, by decide, by decide⟩, rfl, rfl, rfl,
    ⟨⟨0, by decide⟩, ⟨1, by decide⟩, ⟨0, by decide⟩⟩,
    ⟨⟨1, by decide⟩, ⟨0, by decide⟩, ⟨0, by decide⟩⟩, ?_, rfl, rfl, ?_, ?_⟩
  · intro same
    have head := congrArg (fun p : Place _ => p.head.val) same
    simp at head
  · intro d
    rw [seek_at, seek_at]
    exact ⟨rfl, rfl⟩
  · intro apart
    have different : (⟨⟨0, by decide⟩, ⟨1, by decide⟩, ⟨0, by decide⟩⟩ :
        Place ⟨2, 2, 2, by decide, by decide, by decide⟩) ≠
          ⟨⟨1, by decide⟩, ⟨0, by decide⟩, ⟨0, by decide⟩⟩ := by
      intro same
      have head := congrArg (fun p : Place _ => p.head.val) same
      simp at head
    have separate := (apart _ _ different).2 ⟨0, 0, 0, 0, 0, 0, 0, 0, 0, 0⟩
    rw [seek_at, seek_at] at separate
    revert separate
    decide

end Emulated
