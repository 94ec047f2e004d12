import MaldOS.Library.Slices
import Mathlib.Tactic.ByCases

/-!
Lists written to a buffer one behind the other or one over the end of another.
-/
namespace Texts
open Slices

variable {α : Type}

def write (b : Buffer α) (start : Nat) (l : List α) : Buffer α :=
  b.put start (fun i => l.getD i (b.get (start + i))) l.length

theorem buffer_ext {b c : Buffer α} (size : b.size = c.size) (get : ∀ i, b.get i = c.get i)
    (overrun : b.overrun = c.overrun) : b = c := by
  cases b
  cases c
  rw [Buffer.mk.injEq]
  exact ⟨size, funext get, overrun⟩

@[simp] theorem write_size (b : Buffer α) (start : Nat) (l : List α) :
    (write b start l).size = b.size := rfl

theorem write_overrun (b : Buffer α) (start : Nat) (l : List α) :
    (write b start l).overrun = (b.overrun || past b.size start l.length) := rfl

theorem write_inside (b : Buffer α) (start : Nat) {l : List α} {i : Nat} (inside : i < l.length) :
    (write b start l).get (start + i) = l[i] := by
  unfold write
  rw [put_get, blit_inside inside, List.getD_eq_getElem _ _ inside]

theorem write_left (b : Buffer α) (start : Nat) {s : List α} (u : List α) {i : Nat}
    (inside : i < s.length) : (write b start (s ++ u)).get (start + i) = s[i] := by
  rw [write_inside b start (by rw [List.length_append]; omega), List.getElem_append_left inside]

theorem write_right (b : Buffer α) (start : Nat) (s : List α) {u : List α} {i : Nat}
    (inside : i < u.length) : (write b start (s ++ u)).get (start + (s.length + i)) = u[i] := by
  rw [write_inside b start (by rw [List.length_append]; omega),
    List.getElem_append_right (Nat.le_add_right _ _)]
  congr 1
  omega

theorem write_outside (b : Buffer α) {start : Nat} {l : List α} {i : Nat}
    (outside : i < start ∨ start + l.length ≤ i) : (write b start l).get i = b.get i := by
  unfold write
  rw [put_get, blit_outside outside]

theorem write_one (b : Buffer α) (start : Nat) (c : α) (i : Nat) :
    (write b start [c]).get i = if i = start then c else b.get i := by
  by_cases here : i = start
  · rw [if_pos here, here]
    exact write_inside b start (l := [c]) (i := 0) Nat.zero_lt_one
  · rw [if_neg here]
    exact write_outside b (by rw [List.length_singleton]; omega)

theorem write_over (b : Buffer α) (start : Nat) (s : List α) {t u : List α}
    (long : t.length ≤ u.length) :
    write (write b start (s ++ t)) (start + s.length) u = write b start (s ++ u) := by
  have first : (s ++ t).length = s.length + t.length := List.length_append
  have whole : (s ++ u).length = s.length + u.length := List.length_append
  apply buffer_ext
  · rfl
  · intro i
    by_cases last : start + s.length ≤ i ∧ i < start + s.length + u.length
    · obtain ⟨j, rfl⟩ := Nat.exists_eq_add_of_le last.1
      have inside : j < u.length := by omega
      rw [write_inside _ _ inside, Nat.add_assoc, write_right _ _ _ inside]
    · rw [write_outside _ (by omega)]
      by_cases front : start ≤ i ∧ i < start + s.length
      · obtain ⟨j, rfl⟩ := Nat.exists_eq_add_of_le front.1
        have inside : j < s.length := by omega
        rw [write_left _ _ _ inside, write_left _ _ _ inside]
      · rw [write_outside _ (by omega), write_outside _ (by omega)]
  · rw [write_overrun, write_overrun, write_overrun, write_size, first, whole, Bool.or_assoc]
    congr 1
    rw [Bool.eq_iff_iff]
    simp only [past, Bool.or_eq_true, decide_eq_true_eq]
    omega

theorem write_append (b : Buffer α) (start : Nat) (s u : List α) :
    write (write b start s) (start + s.length) u = write b start (s ++ u) := by
  have whole := write_over b start s (t := []) (u := u) (Nat.zero_le _)
  rwa [List.append_nil] at whole

theorem write_nothing (b : Buffer α) (start : Nat) : write b start [] = b := by
  apply buffer_ext
  · rfl
  · intro i
    exact write_outside b (by rw [List.length_nil]; omega)
  · rw [write_overrun]
    simp [past]

theorem write_replace (b : Buffer α) (start : Nat) (s t : List α) (c d : α) :
    write (write b start (s ++ c :: t)) (start + s.length) [d] = write b start (s ++ d :: t) := by
  have first : (s ++ c :: t).length = s.length + (t.length + 1) := by
    rw [List.length_append, List.length_cons]
  have second : (s ++ d :: t).length = s.length + (t.length + 1) := by
    rw [List.length_append, List.length_cons]
  apply buffer_ext
  · rfl
  · intro i
    rw [write_one]
    by_cases here : i = start + s.length
    · have replaced := write_right b start s (u := d :: t) (i := 0) (Nat.zero_lt_succ _)
      rw [if_pos here, here]
      exact replaced.symm
    · rw [if_neg here]
      by_cases outside : i < start ∨ start + (s.length + (t.length + 1)) ≤ i
      · rw [write_outside _ (by omega), write_outside _ (by omega)]
      · obtain ⟨j, rfl⟩ := Nat.exists_eq_add_of_le (show start ≤ i by omega)
        by_cases before : j < s.length
        · rw [write_left _ _ _ before, write_left _ _ _ before]
        · obtain ⟨k, rfl⟩ := Nat.exists_eq_add_of_lt (show s.length < j by omega)
          rw [show s.length + k + 1 = s.length + (k + 1) by omega,
            write_right _ _ _ (by rw [List.length_cons]; omega),
            write_right _ _ _ (by rw [List.length_cons]; omega)]
          rfl
  · rw [write_overrun, write_overrun, write_overrun, write_size, first, second,
      List.length_singleton, Bool.or_assoc]
    congr 1
    rw [Bool.eq_iff_iff]
    simp only [past, Bool.or_eq_true, decide_eq_true_eq]
    omega

end Texts
