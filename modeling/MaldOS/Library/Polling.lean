import Mathlib.Algebra.Group.Nat.Defs
import Mathlib.Tactic.SplitIfs

/-!
Loops that poll a device until it answers or a counter runs out.
-/
namespace Polling

variable {S : Type}

/-- `while (goesOn && cnt--) pause;` with `cnt` on the way in and on the way out. -/
def poll (goesOn : S → Bool × S) (pause : S → S) : Nat → S → Int × S
  | 0, s => if (goesOn s).1 then (-1, (goesOn s).2) else (0, (goesOn s).2)
  | left + 1, s =>
    if (goesOn s).1 then poll goesOn pause left (pause (goesOn s).2)
    else ((left : Int) + 1, (goesOn s).2)

variable {goesOn : S → Bool × S} {pause : S → S}

theorem poll_keeps {r : S → S → Prop} (trans : ∀ {s t u}, r s t → r t u → r s u)
    (test : ∀ s, r s (goesOn s).2) (rest : ∀ s, r s (pause s)) (left : Nat) (s : S) :
    r s (poll goesOn pause left s).2 := by
  induction left generalizing s with
  | zero =>
    unfold poll
    split_ifs <;> exact test s
  | succ left ih =>
    unfold poll
    split_ifs
    · exact trans (test s) (trans (rest _) (ih _))
    · exact test s

theorem poll_ends {r : S → S → Prop} (refl : ∀ s, r s s) (trans : ∀ {s t u}, r s t → r t u → r s u)
    (test : ∀ s, r s (goesOn s).2) (rest : ∀ s, r s (pause s)) (left : Nat) (s : S) :
    (poll goesOn pause left s).1 = -1 ∨
      ∃ t, r s t ∧ (goesOn t).1 = false ∧ (poll goesOn pause left s).2 = (goesOn t).2 := by
  induction left generalizing s with
  | zero =>
    unfold poll
    by_cases on : (goesOn s).1 = true
    · rw [if_pos on]
      exact .inl rfl
    · rw [if_neg on]
      exact .inr ⟨s, refl s, by simpa using on, rfl⟩
  | succ left ih =>
    unfold poll
    by_cases on : (goesOn s).1 = true
    · rw [if_pos on]
      rcases ih (pause (goesOn s).2) with out | ⟨t, before, off, last⟩
      · exact .inl out
      · exact .inr ⟨t, trans (test s) (trans (rest _) before), off, last⟩
    · rw [if_neg on]
      exact .inr ⟨s, refl s, by simpa using on, rfl⟩

/-- However the device answers, the loop costs no more than its counter says. -/
theorem poll_costs {cost : S → Nat} {k j : Nat} (test : ∀ s, cost (goesOn s).2 ≤ cost s + k)
    (rest : ∀ s, cost (pause s) ≤ cost s + j) (left : Nat) (s : S) :
    cost (poll goesOn pause left s).2 ≤ cost s + (left + 1) * (k + j) := by
  induction left generalizing s with
  | zero =>
    have here := test s
    unfold poll
    split_ifs <;> (dsimp only; omega)
  | succ left ih =>
    have here := test s
    have grows : (left + 1 + 1) * (k + j) = (left + 1) * (k + j) + (k + j) := Nat.succ_mul _ _
    unfold poll
    split_ifs
    · have paused := rest (goesOn s).2
      have later := ih (pause (goesOn s).2)
      omega
    · dsimp only
      omega

end Polling
