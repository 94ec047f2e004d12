import MaldOS.Library.Extents
import Mathlib.Logic.Function.Basic

/-!
Several files on one disk, each in extents of its own, and what is known of
their contents after a number of writes, not all of which went well.
-/
namespace Stores
open Extents

variable {ι α : Type}

abbrev Contents (ι α : Type) := ι → Nat → Option α

section
variable [DecidableEq ι]

/-- The `n` bytes from `start` on became what `row` knows of them. -/
def Contents.change (k : Contents ι α) (f : ι) (start n : Nat) (row : Nat → Option α) :
    Contents ι α :=
  Function.update k f fun j => if start ≤ j ∧ j < start + n then row j else k f j

def Contents.write (k : Contents ι α) (f : ι) (start n : Nat) (data : Nat → α) : Contents ι α :=
  k.change f start n fun j => some (data (j - start))

def Contents.forget (k : Contents ι α) (f : ι) (start n : Nat) : Contents ι α :=
  k.change f start n fun _ => none

theorem write_nothing (k : Contents ι α) (f : ι) (start : Nat) (data : Nat → α) :
    k.write f start 0 data = k := by
  have same : (fun j => if start ≤ j ∧ j < start + 0 then some (data (j - start)) else k f j) = k f := by
    funext j
    exact if_neg (by omega)
  unfold Contents.write Contents.change
  rw [same, Function.update_eq_self]

end

structure Layout (size : Nat) (bases : ι → List Nat) : Prop where
  own : ∀ f, Separated size (bases f)
  others : ∀ f g, f ≠ g → ∀ a ∈ bases f, ∀ b ∈ bases g, a + size ≤ b ∨ b + size ≤ a

/-- What is known of the files is what the disk has. -/
def Shows (size : Nat) (bases : ι → List Nat) (disk : Nat → α) (k : Contents ι α) : Prop :=
  ∀ f j b, j < size * (bases f).length → k f j = some b → disk (addr size (bases f) j) = b

/-- Nothing changed but, at most, the `n` bytes of the file from `start` on. -/
def Within (size : Nat) (bases : List Nat) (disk disk' : Nat → α) (start n : Nat) : Prop :=
  ∀ a, (∀ j < size * bases.length, start ≤ j → j < start + n → a ≠ addr size bases j) →
    disk' a = disk a

variable {size : Nat} {bases : ι → List Nat} {disk disk' disk'' data : Nat → α} {k : Contents ι α}

theorem addr_inside {bs : List Nat} (positive : 0 < size) {j : Nat}
    (inside : j < size * bs.length) : ∃ b ∈ bs, ∃ o < size, addr size bs j = b + o := by
  have short : j / size < bs.length := Nat.div_lt_of_lt_mul inside
  refine ⟨bs[j / size], List.getElem_mem short, j % size, Nat.mod_lt j positive, ?_⟩
  unfold addr
  rw [List.getD_eq_getElem _ _ short]

theorem addr_ne (layout : Layout size bases) (positive : 0 < size) {f g : ι} (ne : f ≠ g) {j i : Nat}
    (hj : j < size * (bases f).length) (hi : i < size * (bases g).length) :
    addr size (bases f) j ≠ addr size (bases g) i := by
  obtain ⟨a, ma, o, ho, first⟩ := addr_inside positive hj
  obtain ⟨b, mb, p, hp, second⟩ := addr_inside positive hi
  have sides := layout.others f g ne a ma b mb
  omega

theorem wrote_within {bs : List Nat} {start n : Nat} (room : start + n ≤ size * bs.length)
    (wrote : Wrote size bs disk disk' start n data) : Within size bs disk disk' start n := by
  intro a away
  apply wrote.outside
  intro i early
  exact away (start + i) (by omega) (by omega) (by omega)

theorem within_trans {bs : List Nat} {start n : Nat} (first : Within size bs disk disk' start n)
    (second : Within size bs disk' disk'' start n) : Within size bs disk disk'' start n :=
  fun a away => (second a away).trans (first a away)

theorem within_mono {bs : List Nat} {start start' n n' : Nat} (late : start ≤ start')
    (early : start' + n' ≤ start + n) (within : Within size bs disk disk' start' n') :
    Within size bs disk disk' start n := by
  intro a away
  apply within a
  intro j inside after before
  exact away j inside (by omega) (by omega)

theorem within_same {bs : List Nat} (start n : Nat) (same : disk' = disk) :
    Within size bs disk disk' start n := fun a _ => congrFun same a

theorem shows_same (same : disk' = disk) (shows : Shows size bases disk k) :
    Shows size bases disk' k := by
  rw [same]
  exact shows

section
variable [DecidableEq ι] {f : ι} {start n : Nat} (layout : Layout size bases) (positive : 0 < size)
include layout positive

theorem shows_spared (within : Within size (bases f) disk disk' start n)
    (shows : Shows size bases disk k) {g : ι} {j : Nat} {b : α}
    (inside : j < size * (bases g).length) (apart : g = f → j < start ∨ start + n ≤ j)
    (known : k g j = some b) : disk' (addr size (bases g) j) = b := by
  rw [within, shows g j b inside known]
  intro i hi late early same
  by_cases own : g = f
  · subst own
    have equal := addr_injective positive (layout.own g) inside hi same
    have sides := apart rfl
    omega
  · exact addr_ne layout positive own inside hi same

theorem shows_change {row : Nat → Option α} (within : Within size (bases f) disk disk' start n)
    (shows : Shows size bases disk k)
    (changed : ∀ j b, start ≤ j → j < start + n → row j = some b → disk' (addr size (bases f) j) = b) :
    Shows size bases disk' (k.change f start n row) := by
  intro g j b inside known
  unfold Contents.change at known
  by_cases own : g = f
  · subst own
    rw [Function.update_self] at known
    by_cases range : start ≤ j ∧ j < start + n
    · rw [if_pos range] at known
      exact changed j b range.1 range.2 known
    · rw [if_neg range] at known
      exact shows_spared layout positive within shows inside (fun _ => by omega) known
  · rw [Function.update_of_ne own] at known
    exact shows_spared layout positive within shows inside (fun same => absurd same own) known

theorem shows_forget (within : Within size (bases f) disk disk' start n)
    (shows : Shows size bases disk k) : Shows size bases disk' (k.forget f start n) :=
  shows_change layout positive within shows fun _ _ _ _ none => nomatch none

theorem shows_write (room : start + n ≤ size * (bases f).length)
    (wrote : Wrote size (bases f) disk disk' start n data) (shows : Shows size bases disk k) :
    Shows size bases disk' (k.write f start n data) := by
  apply shows_change layout positive (wrote_within room wrote) shows
  intro j b late early known
  have there := wrote.inside (j - start) (by omega)
  rw [show start + (j - start) = j by omega] at there
  exact there.trans (Option.some.inj known)

end

end Stores
