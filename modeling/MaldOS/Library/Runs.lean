import Mathlib.Logic.Basic

/-!
Runs of a deterministic machine over lists of actions: the invariant rule, and
the property of a run that something lasts until a step that ends it.
-/
namespace Runs

variable {S A : Type}

def run (step : S → A → S) (s : S) : List A → S
  | [] => s
  | a :: as => run step (step s a) as

theorem run_append (step : S → A → S) (s : S) (as bs : List A) :
    run step s (as ++ bs) = run step (run step s as) bs := by
  induction as generalizing s with
  | nil => rfl
  | cons a as ih => exact ih (step s a)

/-- What every step preserves holds at the end of every run. -/
theorem run_invariant {step : S → A → S} {inv : S → Prop}
    (preserved : ∀ s a, inv s → inv (step s a)) (as : List A) {s : S} (start : inv s) :
    inv (run step s as) := by
  induction as generalizing s with
  | nil => exact start
  | cons a as ih => exact ih (preserved s a start)

theorem run_fst {R : Type} {step : S → A → S} {kept : S × R → A → S × R}
    (same : ∀ p a, (kept p a).1 = step p.1 a) (as : List A) (p : S × R) :
    (run kept p as).1 = run step p.1 as := by
  induction as generalizing p with
  | nil => rfl
  | cons a as ih => rw [run, ih, same, run]

theorem foldlM_invariant {B : Type} (inv : S → Prop) {step : S → B → Option S}
    (preserved : ∀ s b s', inv s → step s b = some s' → inv s') (bs : List B) {s s' : S}
    (start : inv s) (done : bs.foldlM step s = some s') : inv s' := by
  induction bs generalizing s with
  | nil =>
    cases done
    exact start
  | cons b bs ih =>
    obtain ⟨middle, first, rest⟩ := Option.bind_eq_some_iff.mp done
    exact ih (preserved s b middle start first) rest

/-- `p` holds of every step of the run. -/
def Along (step : S → A → S) (p : S → A → Prop) (s : S) : List A → Prop
  | [] => True
  | a :: as => p s a ∧ Along step p (step s a) as

instance decidableAlong {step : S → A → S} {p : S → A → Prop} [∀ s a, Decidable (p s a)] :
    ∀ (as : List A) (s : S), Decidable (Along step p s as)
  | [], _ => inferInstanceAs (Decidable True)
  | a :: as, s =>
    have : Decidable (Along step p (step s a) as) := decidableAlong as (step s a)
    inferInstanceAs (Decidable (p s a ∧ Along step p (step s a) as))

theorem along_congr {step : S → A → S} {p q : S → A → Prop} (same : ∀ s a, p s a ↔ q s a)
    (as : List A) (s : S) : Along step p s as ↔ Along step q s as := by
  induction as generalizing s with
  | nil => rfl
  | cons a as ih => simp only [Along, same, ih]

theorem along_fst {R : Type} {step : S → A → S} {kept : S × R → A → S × R}
    (same : ∀ p a, (kept p a).1 = step p.1 a) (q : S → A → Prop) (as : List A) (p : S × R) :
    Along kept (fun p a => q p.1 a) p as ↔ Along step q p.1 as := by
  induction as generalizing p with
  | nil => rfl
  | cons a as ih => rw [Along, Along, ih, same]

theorem along_forall (step : S → A → S) (p : A → Prop) (s : S) (as : List A) :
    Along step (fun _ a => p a) s as ↔ ∀ a ∈ as, p a := by
  induction as generalizing s with
  | nil => simp [Along]
  | cons a as ih => simp [Along, ih]

theorem along_append (step : S → A → S) (p : S → A → Prop) (s : S) (as bs : List A) :
    Along step p s (as ++ bs) ↔ Along step p s as ∧ Along step p (run step s as) bs := by
  induction as generalizing s with
  | nil => simp [Along, run]
  | cons a as ih => simp only [List.cons_append, Along, run, ih, and_assoc]

theorem along_invariant {step : S → A → S} {inv : S → Prop} {p q : S → A → Prop}
    (each : ∀ s a, inv s → p s a → q s a ∧ inv (step s a)) (as : List A) {s : S} (start : inv s)
    (holds : Along step p s as) : Along step q s as := by
  induction as generalizing s with
  | nil => trivial
  | cons a as ih =>
    obtain ⟨here, later⟩ := holds
    obtain ⟨done, kept⟩ := each s a start here
    exact ⟨done, ih kept later⟩

theorem along_always {step : S → A → S} {inv : S → Prop} {q : S → A → Prop}
    (each : ∀ s a, inv s → q s a ∧ inv (step s a)) (as : List A) {s : S} (start : inv s) :
    Along step q s as := by
  induction as generalizing s with
  | nil => trivial
  | cons a as ih =>
    obtain ⟨done, kept⟩ := each s a start
    exact ⟨done, ih kept⟩

/-- A run that has `p` at every step keeps what such steps preserve. -/
theorem run_along {step : S → A → S} {inv : S → Prop} {p : S → A → Prop}
    (each : ∀ s a, inv s → p s a → inv (step s a)) (as : List A) {s : S} (start : inv s)
    (holds : Along step p s as) : inv (run step s as) := by
  induction as generalizing s with
  | nil => exact start
  | cons a as ih => exact ih (each s a start holds.1) holds.2

/-- Two properties that agree wherever an invariant holds, which the first preserves, hold along
    the same runs. -/
theorem along_iff {step : S → A → S} {inv : S → Prop} {p q : S → A → Prop} {allowed : A → Prop}
    (same : ∀ s a, inv s → allowed a → (p s a ↔ q s a))
    (kept : ∀ s a, inv s → allowed a → p s a → inv (step s a)) (as : List A) {s : S}
    (start : inv s) (all : ∀ a ∈ as, allowed a) : Along step p s as ↔ Along step q s as := by
  induction as generalizing s with
  | nil => rfl
  | cons a as ih =>
    have here := all a (by simp)
    have rest : ∀ b ∈ as, allowed b := fun b member => all b (by simp [member])
    unfold Along
    rw [← same s a start here]
    constructor
    · rintro ⟨first, later⟩
      exact ⟨first, (ih (kept s a start here first) rest).mp later⟩
    · rintro ⟨first, later⟩
      exact ⟨first, (ih (kept s a start here first) rest).mpr later⟩

/-- The same where every action is allowed. -/
theorem along_same {step : S → A → S} {inv : S → Prop} {p q : S → A → Prop}
    (same : ∀ s a, inv s → (p s a ↔ q s a)) (kept : ∀ s a, inv s → p s a → inv (step s a))
    (as : List A) {s : S} (start : inv s) : Along step p s as ↔ Along step q s as :=
  @along_iff _ _ step inv _ _ (fun _ => True) (fun s a here _ => same s a here)
    (fun s a here _ => kept s a here) as _ start fun _ _ => trivial

theorem along_related {T : Type} {step : S → A → S} {other : T → A → T} {rel : S → T → Prop}
    {p : S → A → Prop} {q : T → A → Prop} (same : ∀ s t a, rel s t → (p s a ↔ q t a))
    (kept : ∀ s t a, rel s t → rel (step s a) (other t a)) (as : List A) {s : S} {t : T}
    (start : rel s t) : Along step p s as ↔ Along other q t as := by
  induction as generalizing s t with
  | nil => rfl
  | cons a as ih => rw [Along, Along, same s t a start, ih (kept s t a start)]

theorem along_all {X : Type} (step : S → A → S) (p : X → S → A → Prop) (as : List A) (s : S) :
    (∀ x, Along step (p x) s as) ↔ Along step (fun s a => ∀ x, p x s a) s as := by
  induction as generalizing s with
  | nil => simp [Along]
  | cons a as ih =>
    simp only [Along, ← ih]
    exact forall_and

/-- Each step keeps `kept`, up to the first one that `ends`, which brings about `done`. -/
def Until (step : S → A → S) (ends : S → A → Prop) (kept done : S → A → S → Prop) (s : S) :
    List A → Prop
  | [] => True
  | a :: as =>
    (ends s a → done s a (step s a)) ∧
      (¬ ends s a → kept s a (step s a) ∧ Until step ends kept done (step s a) as)

/-- No action before the first one that `ends` is a `bad` one. -/
def Spared (step : S → A → S) (ends : S → A → Prop) (bad : A → Prop) (s : S) : List A → Prop
  | [] => True
  | a :: as => ends s a ∨ (¬ bad a ∧ Spared step ends bad (step s a) as)

variable {step : S → A → S} {ends : S → A → Prop} {kept done : S → A → S → Prop}
  {bad allowed : A → Prop}

/-- If bad actions are exactly those that break `kept`, a run has the property exactly when it
    is spared them. -/
theorem until_iff_spared {inv : S → Prop}
    (ended : ∀ s a, inv s → allowed a → ends s a → done s a (step s a))
    (held : ∀ s a, inv s → allowed a → ¬ ends s a → ¬ bad a →
      kept s a (step s a) ∧ inv (step s a))
    (spoilt : ∀ s a, inv s → allowed a → ¬ ends s a → bad a → ¬ kept s a (step s a))
    (as : List A) {s : S} (start : inv s) (all : ∀ a ∈ as, allowed a) :
    Until step ends kept done s as ↔ Spared step ends bad s as := by
  induction as generalizing s with
  | nil => simp [Until, Spared]
  | cons a as ih =>
    have here := all a (by simp)
    have rest : ∀ b ∈ as, allowed b := fun b member => all b (by simp [member])
    unfold Until Spared
    by_cases stops : ends s a
    · simp [stops, ended s a start here stops]
    · by_cases wrong : bad a
      · simp [stops, wrong, spoilt s a start here stops wrong]
      · obtain ⟨keeps, goes⟩ := held s a start here stops wrong
        simp [stops, wrong, keeps, ih goes rest]

end Runs
