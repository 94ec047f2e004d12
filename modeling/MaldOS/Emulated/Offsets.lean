import MaldOS.Emulated.Geometry

/-!
The 32 bits of `seek_disk_block`, for every geometry that a header may give and
not only for those whose blocks all fit a file.
-/
namespace Emulated
open Arch ByteMemory Registers ArmTimers EmulatedTimers Runs

structure Counts where
  cylinders : Nat
  heads : Nat
  sectors : Nat
  some : 1 ≤ cylinders ∧ 1 ≤ heads ∧ 1 ≤ sectors
  accepted : cylinders ≤ maxCylinders ∧ heads ≤ maxHeads ∧ sectors ≤ maxSectors

/-- A disk with these counts, and with its head at a block that it has. -/
structure Counts.Points (g : Counts) (d : Disk) : Prop where
  counts : (d.cylinders, d.heads, d.sectors) = (g.cylinders, g.heads, g.sectors)
  cylinder : d.currentCylinder < g.cylinders
  head : d.currentHead < g.heads
  sector : d.currentSector < g.sectors

def blockNumber (d : Disk) : Nat :=
  d.currentHead * d.cylinders + d.currentCylinder * d.sectors + d.currentSector

/-- The offset is behind the header, not behind the last block, at the start of a block, and
    what it would be without a limit on the numbers. -/
structure Lands (d : Disk) : Prop where
  low : 28 ≤ seekDiskBlock d
  high : seekDiskBlock d ≤ 28 + (d.cylinders * d.heads * d.sectors - 1) * diskBlocksize
  aligned : seekDiskBlock d % diskBlocksize = 28
  exact : seekDiskBlock d = 28 + blockNumber d * diskBlocksize

/-- Even an offset that wraps is the start of some block, and never inside the header. -/
theorem seek_at_block (d : Disk) : 28 ≤ seekDiskBlock d ∧ seekDiskBlock d % diskBlocksize = 28 := by
  unfold seekDiskBlock u32 diskBlocksize
  omega

theorem seek_exact_iff (d : Disk) :
    seekDiskBlock d = 28 + blockNumber d * diskBlocksize ↔ blockNumber d < 2 ^ 20 := by
  unfold seekDiskBlock blockNumber u32 diskBlocksize
  omega

theorem lands_iff {g : Counts} {d : Disk} (points : g.Points d) :
    Lands d ↔ blockNumber d < 2 ^ 20 := by
  constructor
  · exact fun lands => (seek_exact_iff d).mp lands.exact
  · intro small
    have exact := (seek_exact_iff d).mpr small
    have inside : blockNumber d < d.cylinders * d.heads * d.sectors := by
      obtain ⟨cylinders, heads, sectors⟩ : d.cylinders = g.cylinders ∧ d.heads = g.heads ∧
        d.sectors = g.sectors := by simpa using points.counts
      rw [blockNumber, cylinders, heads, sectors]
      exact block_lt points.cylinder points.head points.sector
    refine ⟨(seek_at_block d).1, ?_, (seek_at_block d).2, exact⟩
    rw [exact]
    exact Nat.add_le_add_left (Nat.mul_le_mul_right _ (by omega)) _

theorem blockNumber_le {g : Counts} {d : Disk} (points : g.Points d) :
    blockNumber d + 1 ≤ g.cylinders * (g.heads + g.sectors - 1) := by
  obtain ⟨cylinders, heads, sectors⟩ : d.cylinders = g.cylinders ∧ d.heads = g.heads ∧
    d.sectors = g.sectors := by simpa using points.counts
  have head : d.currentHead * g.cylinders ≤ (g.heads - 1) * g.cylinders :=
    Nat.mul_le_mul_right _ (by have := points.head; omega)
  have cylinder : (d.currentCylinder + 1) * g.sectors ≤ g.cylinders * g.sectors :=
    Nat.mul_le_mul_right _ points.cylinder
  have sector := points.sector
  have whole : g.cylinders * (g.heads + g.sectors - 1) =
      (g.heads - 1) * g.cylinders + g.cylinders * g.sectors := by
    rw [show g.heads + g.sectors - 1 = (g.heads - 1) + g.sectors by have := g.some; omega,
      Nat.mul_add, Nat.mul_comm g.cylinders (g.heads - 1)]
  rw [Nat.succ_mul] at cylinder
  rw [blockNumber, cylinders, sectors, whole]
  omega

def Counts.last (g : Counts) : Disk :=
  ⟨g.cylinders, g.heads, g.sectors, g.cylinders - 1, g.heads - 1, g.sectors - 1, 0, 0, 0, 0⟩

theorem last_points (g : Counts) : g.Points g.last := by
  have some := g.some
  refine ⟨rfl, ?_, ?_, ?_⟩ <;> simp only [Counts.last] <;> omega

theorem last_number (g : Counts) :
    blockNumber g.last + 1 = g.cylinders * (g.heads + g.sectors - 1) := by
  have some := g.some
  obtain ⟨n, cylinders⟩ : ∃ n, g.cylinders = n + 1 := ⟨g.cylinders - 1, by omega⟩
  have whole : g.cylinders * (g.heads + g.sectors - 1) =
      (g.heads - 1) * g.cylinders + g.cylinders * g.sectors := by
    rw [show g.heads + g.sectors - 1 = (g.heads - 1) + g.sectors by omega, Nat.mul_add,
      Nat.mul_comm g.cylinders (g.heads - 1)]
  have rows : g.cylinders * g.sectors = n * g.sectors + g.sectors := by
    rw [cylinders, Nat.succ_mul]
  have column : g.cylinders - 1 = n := by omega
  rw [whole, rows]
  simp only [blockNumber, Counts.last, column]
  omega

/-- Every block of a disk is where it should be exactly if the last one is within 4 GiB. -/
theorem offsets_land_iff (g : Counts) :
    (∀ d, g.Points d → Lands d) ↔ g.cylinders * (g.heads + g.sectors - 1) ≤ 2 ^ 20 := by
  constructor
  · intro lands
    have small := (lands_iff (last_points g)).mp (lands g.last (last_points g))
    have number := last_number g
    omega
  · intro room d points
    have number := blockNumber_le points
    exact (lands_iff points).mpr (by omega)

/-- With all the counts at their limits, sector 16 of cylinder 4112 is taken to lie where the
    very first block does. -/
theorem far_block_wraps :
    ∃ g : Counts, g.cylinders = 0xFFFF ∧ g.heads = 0xFF ∧ g.sectors = 0xFF ∧
      ∃ d, g.Points d ∧ (d.currentCylinder, d.currentHead, d.currentSector) = (4112, 0, 16) ∧
        blockNumber d = 1048576 ∧ seekDiskBlock d = 28 ∧ ¬ Lands d := by
  refine ⟨⟨0xFFFF, 0xFF, 0xFF, by decide, by decide⟩, rfl, rfl, rfl,
    ⟨0xFFFF, 0xFF, 0xFF, 4112, 0, 16, 0, 0, 0, 0⟩, ⟨rfl, by decide, by decide, by decide⟩, rfl, rfl,
    rfl, ?_⟩
  intro lands
  exact absurd lands.exact (by decide)

end Emulated
