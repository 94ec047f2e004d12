import MaldOS.Library.Slices
import Mathlib.Data.List.GetD
import Mathlib.Tactic.ByContra

/-!
A file laid out on a disk in extents of one size: where its bytes are, and what
it means that a range of the file, and nothing else of the disk, was written.
-/
namespace Extents
open Slices

variable {α : Type}

/-- The disk address of byte `j` of the file whose extents start at `bases`. -/
def addr (size : Nat) (bases : List Nat) (j : Nat) : Nat :=
  bases.getD (j / size) 0 + j % size

def Separated (size : Nat) (bases : List Nat) : Prop :=
  bases.Pairwise fun a b => a + size ≤ b ∨ b + size ≤ a

theorem addr_piece {size : Nat} (bases : List Nat) (q : Nat) {o : Nat} (inside : o < size) :
    addr size bases (size * q + o) = bases.getD q 0 + o := by
  unfold addr
  rw [Nat.mul_add_div (by omega), Nat.div_eq_of_lt inside, Nat.add_zero, Nat.mul_add_mod,
    Nat.mod_eq_of_lt inside]

theorem separated_getD {size : Nat} {bases : List Nat} (apart : Separated size bases) {p q : Nat}
    (hp : p < bases.length) (hq : q < bases.length) (ne : p ≠ q) :
    bases.getD p 0 + size ≤ bases.getD q 0 ∨ bases.getD q 0 + size ≤ bases.getD p 0 := by
  rw [List.getD_eq_getElem _ _ hp, List.getD_eq_getElem _ _ hq]
  rcases Nat.lt_or_gt_of_ne ne with less | more
  · exact List.pairwise_iff_getElem.mp apart p q hp hq less
  · exact (List.pairwise_iff_getElem.mp apart q p hq hp more).symm

theorem addr_injective {size : Nat} {bases : List Nat} (positive : 0 < size)
    (apart : Separated size bases) {j k : Nat} (hj : j < size * bases.length)
    (hk : k < size * bases.length) (same : addr size bases j = addr size bases k) : j = k := by
  have rj := Nat.mod_lt j positive
  have rk := Nat.mod_lt k positive
  have dj := Nat.div_add_mod j size
  have dk := Nat.div_add_mod k size
  unfold addr at same
  by_cases extent : j / size = k / size
  · rw [extent] at same dj
    omega
  · have sides := separated_getD apart (Nat.div_lt_of_lt_mul hj) (Nat.div_lt_of_lt_mul hk) extent
    omega

/-- The `n` bytes of the file from `start` on became `data`, and nothing else changed. -/
structure Wrote (size : Nat) (bases : List Nat) (disk disk' : Nat → α) (start n : Nat)
    (data : Nat → α) : Prop where
  inside : ∀ i < n, disk' (addr size bases (start + i)) = data i
  outside : ∀ a, (∀ i < n, a ≠ addr size bases (start + i)) → disk' a = disk a

variable {size : Nat} {bases : List Nat} {disk disk' disk'' data : Nat → α}

theorem wrote_nothing (size : Nat) (bases : List Nat) (disk data : Nat → α) (start : Nat) :
    Wrote size bases disk disk start 0 data :=
  ⟨fun _ none => absurd none (Nat.not_lt_zero _), fun _ _ => rfl⟩

theorem wrote_nothing_same {start : Nat} (wrote : Wrote size bases disk disk' start 0 data) :
    disk' = disk :=
  funext fun a => wrote.outside a (fun _ none => absurd none (Nat.not_lt_zero _))

theorem wrote_append (positive : 0 < size) (apart : Separated size bases) {start start' n k : Nat}
    (room : start + n + k ≤ size * bases.length) (meets : k = 0 ∨ start' = start + n)
    (first : Wrote size bases disk disk' start n data)
    (second : Wrote size bases disk' disk'' start' k fun i => data (n + i)) :
    Wrote size bases disk disk'' start (n + k) data := by
  rcases meets with none | meets
  · subst none
    rw [wrote_nothing_same second, Nat.add_zero]
    exact first
  subst meets
  constructor
  · intro i bound
    by_cases early : i < n
    · have kept : disk'' (addr size bases (start + i)) = disk' (addr size bases (start + i)) := by
        apply second.outside
        intro j later same
        have eq := addr_injective positive apart (by omega) (by omega) same
        omega
      rw [kept, first.inside i early]
    · have late := second.inside (i - n) (by omega)
      rw [show start + n + (i - n) = start + i by omega, show n + (i - n) = i by omega] at late
      exact late
  · intro a away
    rw [second.outside a, first.outside a]
    · intro i bound
      exact away i (by omega)
    · intro i bound
      rw [Nat.add_assoc]
      exact away (n + i) (by omega)

theorem wrote_extent (bases : List Nat) (disk data : Nat → α) (q : Nat) {o n : Nat} (fits : o + n ≤ size) :
    Wrote size bases disk (blit disk (bases.getD q 0 + o) data n) (size * q + o) n data := by
  have place : ∀ i < n, addr size bases (size * q + o + i) = bases.getD q 0 + o + i := by
    intro i bound
    rw [Nat.add_assoc, addr_piece bases q (by omega), Nat.add_assoc]
  constructor
  · intro i bound
    rw [place i bound, blit_inside bound]
  · intro a away
    apply blit_outside
    by_contra inside
    have hit := away (a - (bases.getD q 0 + o)) (by omega)
    rw [place _ (by omega)] at hit
    omega

end Extents
