import MaldOS.Cores.Boot
import MaldOS.Cores.SpinSlots

/-!
The start of the cores as `CoreExecute` takes it to be: core 0 at work, and a
worker that either has not counted itself or has. What `SpinSlots` says of the
calls holds from the first instruction on.
-/
namespace Boot
open Words Runs

/-- What is left out of `SpinSlots` is how a core gets to its count. -/
def phaseOf : Place → SpinSlots.Phase
  | .startIdleCoreSpin => .clearing
  | .idleCoreSpin => .spinning
  | _ => .starting

structure Seen (s : State) (t : SpinSlots.State) : Prop where
  coresReady : t.coresReady = if (s.core 0).place = .start then 1 else s.coresReady
  phase : ∀ c : Fin 4, c ≠ 0 → t.phase c = phaseOf (s.core c).place
  slot : ∀ c : Fin 4, c ≠ 0 → (s.core c).place = .idleCoreSpin → (t.slot c).task = s.slot c

theorem booted_seen {s : State} (on : PoweredOn s) {t : SpinSlots.State}
    (booted : SpinSlots.Booted t) : Seen s t := by
  refine ⟨?_, ?_, ?_⟩
  · rw [if_pos on.main]
    exact booted.coresReady
  · intro c worker
    rw [booted.phase c, on.others c worker]
    rfl
  · intro c worker place
    cases (on.others c worker).symm.trans place

theorem seen_still {s s' : State} {t : SpinSlots.State} (seen : Seen s t)
    (ready : (if (s'.core 0).place = .start then (1 : BitVec 32) else s'.coresReady) =
      if (s.core 0).place = .start then 1 else s.coresReady)
    (phase : ∀ c : Fin 4, c ≠ 0 → phaseOf (s'.core c).place = phaseOf (s.core c).place)
    (slot : ∀ c : Fin 4, c ≠ 0 → (s'.core c).place = .idleCoreSpin →
      (s.core c).place = .idleCoreSpin ∧ s'.slot c = s.slot c) : Seen s' t := by
  refine ⟨?_, ?_, ?_⟩
  · rw [ready]
    exact seen.coresReady
  · intro c worker
    rw [phase c worker]
    exact seen.phase c worker
  · intro c worker spins
    obtain ⟨before, same⟩ := slot c worker spins
    rw [same]
    exact seen.slot c worker before

theorem moving_starting {l : Labels} {s : State} {c : Fin 4} (moving : Moving l s c) :
    phaseOf (s.core c).place = .starting := by
  have place := moving.2
  simp only [List.mem_cons, List.not_mem_nil, or_false] at place
  rcases place with place | place | place | place | place | place <;> (rw [place]; rfl)

/-- Core 0 clears `CoresReady` to one at its start, and changes no slot that is looked at. -/
theorem main_quiet {l : Labels} {s : State} (inv : Inv l s) :
    ((step l s 0).core 0).place ≠ .start ∧
      (step l s 0).coresReady = (if (s.core 0).place = .start then 1 else s.coresReady) ∧
      ∀ c : Fin 4, (s.core c).place = .idleCoreSpin → (step l s 0).slot c = s.slot c := by
  have main := inv.main
  have fresh := inv.fresh
  generalize place : (s.core 0).place = p at main fresh
  cases main with
  | start => simp [step_at place, stepAt, State.goto, State.put]
  | multicoreStart =>
    simp only [step_at place, stepAt, goto_self]
    refine ⟨?_, by simp [State.goto, State.put], by simp [State.goto, State.put]⟩
    split_ifs <;> simp
  | alreadyEl2 => simp [step_at place, stepAt, State.put]
  | startKernel => simp [step_at place, stepAt, State.goto, State.put]
  | release n first last =>
    simp only [step_at place, stepAt, goto_self]
    refine ⟨by simp, by simp [State.goto, State.put], ?_⟩
    intro c spins
    have other : (c : Nat) ≠ n := by
      rintro rfl
      have parked := (fresh c (by show (c : Nat) - 1 < c; omega)).1
      cases parked.symm.trans spins
    exact Function.update_of_ne other _ _
  | waitAck n first last =>
    by_cases acked : s.coresReady = BitVec.ofNat 32 (n + 1)
    · simp only [step_at place, stepAt, acked, ↓reduceIte, goto_self]
      refine ⟨?_, by simp [State.goto, State.put, acked], by simp [State.goto, State.put]⟩
      split_ifs <;> simp
    · simp [step_at place, stepAt, acked, place]
  | crt0 => simp [step_at place, stepAt, place]

theorem seen_main {l : Labels} {s : State} (inv : Inv l s) {t : SpinSlots.State}
    (seen : Seen s t) : Seen (step l s 0) t := by
  obtain ⟨begun, ready, slot⟩ := main_quiet inv
  apply seen_still seen
  · rw [if_neg begun]
    exact ready
  · intro c worker
    rw [step_other l s worker]
  · intro c worker spins
    rw [step_other l s worker] at spins
    exact ⟨spins, slot c spins⟩

theorem seen_worker {l : Labels} {s : State} (inv : Inv l s) {c : Fin 4} (worker : c ≠ 0)
    {t : SpinSlots.State} (seen : Seen s t) :
    Seen (step l s c) t ∨ Seen (step l s c) (SpinSlots.step t (.worker c)) := by
  obtain ⟨turn, -⟩ := worker_turn inv worker
  have cores := fun d other => @step_other l s c d other
  have main := cores 0 worker.symm
  have cases := worker_cases inv worker
  generalize step l s c = s' at turn cores main
  have apart : ∀ d : Fin 4, d ≠ c → (d : Nat) ≠ c := fun d other equal => other (Fin.ext equal)
  cases turn with
  | waits => exact Or.inl seen
  | moves _ before after ready slot =>
    left
    apply seen_still seen
    · rw [main, ready]
    · intro d _
      by_cases own : d = c
      · rw [own, moving_starting before, moving_starting after]
      · rw [cores d own]
    · intro d other spins
      rw [slot]
      by_cases own : d = c
      · have wrong := moving_starting after
        rw [← own, spins] at wrong
        cases wrong
      · rw [cores d own] at spins
        exact ⟨spins, rfl⟩
  | counts _ before after ready slot =>
    right
    obtain ⟨-, waits, early⟩ := (cases.resolve_left fun fresh => fresh_still fresh before).resolve_right
      fun arrived => arrived_still arrived before
    have count : t.coresReady = BitVec.ofNat 32 c := by
      rw [seen.coresReady, waits, if_neg (by simp), early]
    have next : SpinSlots.step t (.worker c) = { t with
        coresReady := t.coresReady + 1
        phase := Function.update t.phase c .clearing } := by
      have phase := seen.phase c worker
      rw [moving_starting before] at phase
      simp only [SpinSlots.step, SpinSlots.stepWorker, phase, count, c.isLt, and_self, ↓reduceIte]
    rw [next]
    have cleared : (s'.core c).place = .startIdleCoreSpin := by
      rcases after with ⟨place, _⟩ | ⟨_, empty⟩
      · exact place
      · rw [slot] at empty
        exact absurd (before.1.symm.trans empty) l.given
    refine ⟨?_, ?_, ?_⟩
    · rw [main, waits, if_neg (by simp), ready, count]
      exact (BitVec.ofNat_add _ _).symm
    · intro d other
      dsimp only
      by_cases own : d = c
      · rw [own, Function.update_self, cleared]
        rfl
      · rw [Function.update_of_ne (apart d own), cores d own]
        exact seen.phase d other
    · intro d other spins
      rw [slot]
      have own : d ≠ c := by
        rintro rfl
        cases cleared.symm.trans spins
      rw [cores d own] at spins
      exact seen.slot d other spins
  | clears _ before after ready slot =>
    right
    have next : SpinSlots.step t (.worker c) = { t with
        slot := Function.update t.slot c SpinSlots.cleared
        phase := Function.update t.phase c .spinning } := by
      have phase := seen.phase c worker
      rw [before] at phase
      simp only [SpinSlots.step, SpinSlots.stepWorker, phase, phaseOf]
    rw [next]
    refine ⟨?_, ?_, ?_⟩
    · rw [main, ready]
      exact seen.coresReady
    · intro d other
      dsimp only
      by_cases own : d = c
      · rw [own, Function.update_self, after]
        rfl
      · rw [Function.update_of_ne (apart d own), cores d own]
        exact seen.phase d other
    · intro d other spins
      dsimp only
      rw [slot]
      by_cases own : d = c
      · rw [own, Function.update_self, Function.update_self]
        rfl
      · rw [Function.update_of_ne (apart d own), Function.update_of_ne (apart d own)]
        rw [cores d own] at spins
        exact seen.slot d other spins

theorem run_seen {l : Labels} (as : List (Fin 4)) {s : State} {t : SpinSlots.State}
    (inv : Inv l s) (seen : Seen s t) :
    ∃ bs, (∀ b ∈ bs, SpinSlots.Working b) ∧
      Seen (run (step l) s as) (run SpinSlots.step t bs) := by
  induction as generalizing s t with
  | nil => exact ⟨[], by simp, seen⟩
  | cons c as ih =>
    have one : Seen (step l s c) t ∨ Seen (step l s c) (SpinSlots.step t (.worker c)) := by
      by_cases main : c = 0
      · subst main
        exact Or.inl (seen_main inv seen)
      · exact seen_worker inv main seen
    rcases one with same | next
    · exact ih (step_inv s c inv) same
    · obtain ⟨bs, working, final⟩ := ih (step_inv s c inv) next
      refine ⟨.worker c :: bs, ?_, final⟩
      intro b member
      rcases List.mem_cons.mp member with rfl | member
      · trivial
      · exact working b member

/-- To `CoreExecute` the cores look as if each counted itself in one step, and when core 0 gets to
    `_crt0` it may call any of them. -/
theorem start_refines (l : Labels) {s : State} (on : PoweredOn s) {t : SpinSlots.State}
    (booted : SpinSlots.Booted t) (as : List (Fin 4)) :
    ∃ bs, (∀ b ∈ bs, SpinSlots.Working b) ∧
      Seen (run (step l) s as) (run SpinSlots.step t bs) ∧
      (((run (step l) s as).core 0).place = .crt0 → ∀ core : BitVec 32, ∀ c : Fin 4, c ≠ 0 →
        core &&& 255 = BitVec.ofNat 32 c →
        SpinSlots.coreExecute (run SpinSlots.step t bs).coresReady core = some (c : Nat)) := by
  obtain ⟨bs, working, final⟩ := run_seen as (poweredOn_inv l on) (booted_seen on booted)
  refine ⟨bs, working, final, ?_⟩
  intro there core c worker named
  have ready := final.coresReady
  rw [if_neg (by simp [there]), ((inv_orderly (run_inv l on as)).last there).1] at ready
  unfold SpinSlots.coreExecute
  rw [ready, named]
  clear named
  revert c
  decide

def sampleTurns : List (Fin 4) := (List.replicate 31 [0, 1, 2, 3]).flatten

theorem start_refines_sample :
    ∃ bs, (∀ b ∈ bs, SpinSlots.Working b) ∧
      Seen (run (step sampleLabels) atReset sampleTurns) (run SpinSlots.step SpinSlots.bare bs) ∧
      (((run (step sampleLabels) atReset sampleTurns).core 0).place = .crt0 →
        ∀ core : BitVec 32, ∀ c : Fin 4, c ≠ 0 → core &&& 255 = BitVec.ofNat 32 c →
        SpinSlots.coreExecute (run SpinSlots.step SpinSlots.bare bs).coresReady core =
          some (c : Nat)) :=
  start_refines sampleLabels atReset_on SpinSlots.bare_booted sampleTurns

end Boot
