import Mathlib.Data.List.GetD
import Mathlib.Algebra.Group.Nat.Defs

/-!
Areas of memory as functions of the offset, and the copying of slices between
them. An area goes on past the size it was declared with, so that a copy that
overruns it still means something; the mark of a buffer tells that it happened.
-/
namespace Slices

variable {α : Type}

def blit (dst : Nat → α) (start : Nat) (src : Nat → α) (n : Nat) : Nat → α :=
  fun i => if start ≤ i ∧ i < start + n then src (i - start) else dst i

theorem blit_inside {dst src : Nat → α} {start n i : Nat} (inside : i < n) :
    blit dst start src n (start + i) = src i := by
  unfold blit
  rw [if_pos (by omega), Nat.add_sub_cancel_left]

theorem blit_front (dst src : Nat → α) {n i : Nat} (inside : i < n) :
    blit dst 0 src n i = src i := by
  unfold blit
  rw [if_pos (by omega), Nat.sub_zero]

theorem blit_outside {dst src : Nat → α} {start n i : Nat} (outside : i < start ∨ start + n ≤ i) :
    blit dst start src n i = dst i := by
  unfold blit
  rw [if_neg (by omega)]

@[simp] theorem blit_nothing (dst src : Nat → α) (start : Nat) : blit dst start src 0 = dst := by
  funext i
  exact blit_outside (by omega)

theorem blit_congr {dst src src' : Nat → α} {start n : Nat} (same : ∀ i < n, src i = src' i) :
    blit dst start src n = blit dst start src' n := by
  funext i
  unfold blit
  by_cases inside : start ≤ i ∧ i < start + n
  · rw [if_pos inside, if_pos inside, same _ (by omega)]
  · rw [if_neg inside, if_neg inside]

theorem blit_same {dst dst' : Nat → α} {i : Nat} (same : dst i = dst' i) (start : Nat)
    (src : Nat → α) (n : Nat) : blit dst start src n i = blit dst' start src n i := by
  unfold blit
  rw [same]

theorem blit_append (dst src : Nat → α) (start n k : Nat) :
    blit (blit dst start src n) (start + n) (fun i => src (n + i)) k =
      blit dst start src (n + k) := by
  funext i
  unfold blit
  by_cases first : start ≤ i ∧ i < start + n
  · rw [if_neg (by omega), if_pos first, if_pos (by omega)]
  · by_cases second : start + n ≤ i ∧ i < start + n + k
    · rw [if_pos second, if_pos (by omega)]
      exact congrArg src (by omega)
    · rw [if_neg second, if_neg first, if_neg (by omega)]

/-- Reading `size` elements, changing some and writing all back is writing the
    changed ones, as far as they were read. -/
theorem blit_patch (dst src : Nat → α) (start size offset n : Nat) :
    blit dst start (blit (fun i => dst (start + i)) offset src n) size =
      blit dst (start + offset) src (min n (size - offset)) := by
  funext i
  unfold blit
  by_cases whole : start ≤ i ∧ i < start + size
  · by_cases part : offset ≤ i - start ∧ i - start < offset + n
    · rw [if_pos whole, if_pos part, if_pos (by omega),
        show i - start - offset = i - (start + offset) by omega]
    · rw [if_pos whole, if_neg part, if_neg (by omega)]
      exact congrArg dst (by omega)
  · rw [if_neg whole, if_neg (by omega)]

theorem getD_flatten_rows {rows : List (List α)} {width : Nat}
    (uniform : ∀ row ∈ rows, row.length = width) (d : α) (k : Nat) {j : Nat} (inside : j < width) :
    rows.flatten.getD (k * width + j) d = (rows.getD k []).getD j d := by
  induction rows generalizing k with
  | nil => rfl
  | cons row rows ih =>
    have first : row.length = width := uniform row List.mem_cons_self
    rw [List.flatten_cons]
    cases k with
    | zero =>
      rw [Nat.zero_mul, Nat.zero_add, List.getD_append _ _ _ _ (by omega), List.getD_cons_zero]
    | succ k =>
      have beyond : (k + 1) * width + j - row.length = k * width + j := by
        rw [Nat.succ_mul]
        omega
      rw [List.getD_append_right _ _ _ _ (by rw [Nat.succ_mul]; omega), beyond, List.getD_cons_succ]
      exact ih (fun row member => uniform row (List.mem_cons_of_mem _ member)) k

/-- A buffer of `size` elements; `overrun` once an access went past them. -/
structure Buffer (α : Type) where
  size : Nat
  get : Nat → α
  overrun : Bool

def past (size start n : Nat) : Bool := decide (0 < n ∧ size < start + n)

def Buffer.put (b : Buffer α) (start : Nat) (src : Nat → α) (n : Nat) : Buffer α :=
  { b with get := blit b.get start src n, overrun := b.overrun || past b.size start n }

def Buffer.touch (b : Buffer α) (start n : Nat) : Buffer α :=
  { b with overrun := b.overrun || past b.size start n }

@[simp] theorem put_size (b : Buffer α) (start : Nat) (src : Nat → α) (n : Nat) :
    (b.put start src n).size = b.size := rfl

@[simp] theorem put_get (b : Buffer α) (start : Nat) (src : Nat → α) (n : Nat) :
    (b.put start src n).get = blit b.get start src n := rfl

@[simp] theorem put_overrun (b : Buffer α) (start : Nat) (src : Nat → α) (n : Nat) :
    (b.put start src n).overrun = (b.overrun || past b.size start n) := rfl

@[simp] theorem touch_size (b : Buffer α) (start n : Nat) : (b.touch start n).size = b.size := rfl

@[simp] theorem touch_get (b : Buffer α) (start n : Nat) : (b.touch start n).get = b.get := rfl

@[simp] theorem touch_overrun (b : Buffer α) (start n : Nat) :
    (b.touch start n).overrun = (b.overrun || past b.size start n) := rfl

theorem past_within {size start n : Nat} (within : start + n ≤ size) : past size start n = false :=
  decide_eq_false (by omega)

end Slices
