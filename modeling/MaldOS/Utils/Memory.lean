import MaldOS.Library.Texts

/-!
`memcpy` of `utils.c`, between areas that do not overlap.
-/
namespace Memory
open Slices Texts

variable {α : Type}

/-- `for (int i = 0; i < n; i++)` -/
def memcpyLoop (dest : Nat) (src : Nat → α) (n i : Nat) (b : Buffer α) : Buffer α :=
  if i < n then memcpyLoop dest src n (i + 1) (write b (dest + i) [src i]) else b
termination_by n - i

def memcpy (dest : Nat) (src : Nat → α) (n : Nat) (b : Buffer α) : Buffer α :=
  memcpyLoop dest src n 0 b

theorem memcpyLoop_writes (dest : Nat) {src : Nat → α} {l : List α} {i n : Nat}
    (same : ∀ j (inside : j < l.length), src (i + j) = l[j]) (whole : i + l.length = n)
    (b : Buffer α) : memcpyLoop dest src n i b = write b (dest + i) l := by
  induction l generalizing i b with
  | nil =>
    rw [List.length_nil] at whole
    rw [memcpyLoop, if_neg (by omega)]
    exact (write_nothing b (dest + i)).symm
  | cons c l ih =>
    rw [List.length_cons] at whole
    have first : src i = c := same 0 (by rw [List.length_cons]; omega)
    have later : ∀ j (inside : j < l.length), src (i + 1 + j) = l[j] := by
      intro j inside
      have next := same (j + 1) (by rw [List.length_cons]; omega)
      rwa [show i + (j + 1) = i + 1 + j by omega] at next
    rw [memcpyLoop, if_pos (by omega), first, ih later (by omega), ← Nat.add_assoc]
    exact write_append b (dest + i) [c] l

theorem memcpy_writes (dest : Nat) {src : Nat → α} {l : List α}
    (same : ∀ j (inside : j < l.length), src j = l[j]) (b : Buffer α) :
    memcpy dest src l.length b = write b dest l := by
  unfold memcpy
  apply memcpyLoop_writes
  · intro j inside
    rw [Nat.zero_add]
    exact same j inside
  · exact Nat.zero_add _

end Memory
