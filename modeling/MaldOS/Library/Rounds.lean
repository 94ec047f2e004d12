import MaldOS.Library.Runs
import Mathlib.Tactic.ByContra

/-!
Schedules made of rounds in which everyone has a turn. A machine whose moves all
add to a bounded count, and that has one left wherever it is not done, is done
after as many rounds as the bound.
-/
namespace Rounds
open Runs

variable {S A : Type} {step : S → A → S} {inv done : S → Prop} {count : S → Nat}

theorem run_still (grows : ∀ s a, inv s → step s a = s ∨ count s < count (step s a))
    (preserved : ∀ s a, inv s → inv (step s a)) (as : List A) {s : S} (start : inv s) :
    count s < count (run step s as) ∨ run step s as = s ∧ ∀ a ∈ as, step s a = s := by
  induction as generalizing s with
  | nil => exact Or.inr ⟨rfl, by simp⟩
  | cons a as ih =>
    have later := ih (preserved s a start)
    rcases grows s a start with same | more
    · rw [same] at later
      rcases later with more | ⟨last, all⟩
      · left
        rw [run, same]
        exact more
      · right
        rw [run, same]
        refine ⟨last, ?_⟩
        intro b member
        rcases List.mem_cons.mp member with rfl | member
        · exact same
        · exact all b member
    · left
      rw [run]
      rcases later with further | ⟨last, -⟩
      · exact Nat.lt_trans more further
      · rw [last]
        exact more

theorem rounds_count (grows : ∀ s a, inv s → step s a = s ∨ count s < count (step s a))
    (preserved : ∀ s a, inv s → inv (step s a)) (kept : ∀ s a, inv s → done s → done (step s a))
    (moves : ∀ s, inv s → ¬ done s → ∃ a, step s a ≠ s) (rounds : List (List A))
    (fair : ∀ r ∈ rounds, ∀ a, a ∈ r) {s : S} (start : inv s) :
    done (run step s rounds.flatten) ∨
      count s + rounds.length ≤ count (run step s rounds.flatten) := by
  induction rounds generalizing s with
  | nil => exact Or.inr (Nat.le_refl _)
  | cons r rounds ih =>
    have inside := run_invariant preserved r start
    rw [List.flatten_cons, run_append]
    rcases ih (fun q member => fair q (List.mem_cons_of_mem r member)) inside with ended | more
    · exact Or.inl ended
    · by_cases ended : done s
      · left
        have both : inv (run step s (r ++ rounds.flatten)) ∧
            done (run step s (r ++ rounds.flatten)) :=
          @run_invariant _ _ step (fun s => inv s ∧ done s)
            (fun s a ⟨here, ended⟩ => ⟨preserved s a here, kept s a here ended⟩) _ s ⟨start, ended⟩
        rw [run_append] at both
        exact both.2
      · right
        obtain ⟨a, moved⟩ := moves s start ended
        rcases run_still grows preserved r start with grown | ⟨-, all⟩
        · rw [List.length_cons]
          omega
        · exact absurd (all a (fair r List.mem_cons_self a)) moved

/-- Enough rounds bring the machine where it is done. -/
theorem rounds_done (grows : ∀ s a, inv s → step s a = s ∨ count s < count (step s a))
    (preserved : ∀ s a, inv s → inv (step s a)) (kept : ∀ s a, inv s → done s → done (step s a))
    (moves : ∀ s, inv s → ¬ done s → ∃ a, step s a ≠ s) {bound : Nat}
    (bounded : ∀ s, inv s → ¬ done s → count s < bound) (rounds : List (List A))
    (fair : ∀ r ∈ rounds, ∀ a, a ∈ r) (enough : bound ≤ rounds.length) {s : S} (start : inv s) :
    done (run step s rounds.flatten) := by
  by_contra going
  have more := (rounds_count grows preserved kept moves rounds fair start).resolve_left going
  have less := bounded _ (run_invariant preserved _ start) going
  omega

def tally (step : S → A → S) (p : S → A → Prop) [∀ s a, Decidable (p s a)] (s : S) :
    List A → Nat
  | [] => 0
  | a :: as => (if p s a then 1 else 0) + tally step p (step s a) as

/-- Where each step with `p` takes one from the count and no other adds to it, the count is down
    to nothing after as many such steps as it began with. -/
theorem tally_done {p q : S → A → Prop} [∀ s a, Decidable (p s a)]
    (each : ∀ s a, inv s → q s a → inv (step s a) ∧ count (step s a) ≤ count s ∧
      (p s a → count s = 0 ∨ count (step s a) < count s)) (as : List A) {s : S} (start : inv s)
    (along : Along step q s as) (enough : count s ≤ tally step p s as) :
    count (run step s as) = 0 := by
  have bound : ∀ (as : List A) (s : S), inv s → Along step q s as →
      count (run step s as) = 0 ∨ tally step p s as + count (run step s as) ≤ count s := by
    intro as
    induction as with
    | nil =>
      intro s _ _
      right
      simp [tally, run]
    | cons a as ih =>
      intro s start along
      obtain ⟨inside, less, taken⟩ := each s a start along.1
      rcases ih (step s a) inside along.2 with none | rest
      · exact Or.inl none
      · rw [run, tally]
        by_cases counts : p s a
        · rw [if_pos counts]
          rcases taken counts with none | fewer
          · left
            omega
          · right
            omega
        · rw [if_neg counts]
          right
          omega
  rcases bound as s start along with none | rest
  · exact none
  · omega

end Rounds
