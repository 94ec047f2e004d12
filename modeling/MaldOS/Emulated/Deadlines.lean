import MaldOS.Emulated.InFlight
import Mathlib.Data.List.TakeWhile

/-!
Whether the timer registers still cover the next deadline after each of the four
calls that program them.
-/
namespace Emulated
open Arch ByteMemory Registers ArmTimers EmulatedTimers Runs

/-- `set_device_timer`, the timer branch of the FIQ handler, `setTIMER`, and the timer branch of
    the IRQ handler. -/
inductive Call where
  | device (microseconds : Nat) (dev : Dev)
  | fiq
  | timer (core : Fin 4) (microseconds : Nat)
  | irq (core : Fin 4)

def Call.run (s : System) : Call → System
  | .device microseconds dev => setDeviceTimer s microseconds dev.1.timer dev.2
  | .fiq => fiqTimer s
  | .timer core microseconds => setTIMER s core microseconds
  | .irq core => irqTimer s core

def Call.register (s : System) : Call → ArmTimer
  | .device _ _ => s.virtualTimer
  | .fiq => s.virtualTimer
  | .timer core _ => s.physicalTimers core
  | .irq core => s.physicalTimers core

/-- The deadline the register has to cover after the call: the first one in the queue, or the one
    scheduled for the core if it lies in the future. -/
def Call.deadline (s : System) : Call → Option Nat
  | .device _ _ => s.queue.entries.head?.map Timer.time
  | .fiq => s.queue.entries.head?.map Timer.time
  | .timer core _ =>
    if getTOD s.clock < s.scheduledPhysicalTimers core then some (s.scheduledPhysicalTimers core)
    else none
  | .irq core =>
    if getTOD s.clock < s.scheduledPhysicalTimers core then some (s.scheduledPhysicalTimers core)
    else none

/-- After the call the register is enabled and fires no later than the deadline. -/
def Call.Covers (s : System) (c : Call) : Prop :=
  ∀ time, c.deadline (c.run s) = some time →
    InTime (c.run s).clock (c.register (c.run s)) (time - getTOD (c.run s).clock)

def Call.coming (s : System) : Call → Option Nat
  | .device microseconds dev =>
    let time := u64 (getTOD s.clock + microseconds)
    some (((s.queue.entries.filter fun r =>
      decide ((r.type, r.code) ≠ (dev.1.timer, dev.2))).head?.map Timer.time).elim time (min time))
  | .fiq => (s.queue.entries.find? fun r => decide (getTOD s.clock ≤ r.time)).map Timer.time
  | .timer _ microseconds =>
    if getTOD s.clock < u64 (getTOD s.clock + microseconds) then
      some (u64 (getTOD s.clock + microseconds))
    else none
  | .irq core =>
    if getTOD s.clock < s.scheduledPhysicalTimers core then some (s.scheduledPhysicalTimers core)
    else none

def Call.Fires (s : System) : Call → Prop
  | .timer core _ => pendingEmulatedInterrupt (s.clearLine ilTimer core) = true
  | _ => False

/-- The interval to the deadline fits the register, or the register covers it already. -/
def Call.Fits (s : System) (c : Call) : Prop :=
  ∀ time, c.coming s = some time →
    c.Fires s ∨ ¬ Refused s.clock (time - getTOD s.clock) ∨
      InTime s.clock (c.register s) (time - getTOD s.clock)

theorem inTime_now {c : Counter} {t : ArmTimer} (now : InTime c t 0) (microseconds : Nat) :
    InTime c t microseconds := by
  obtain ⟨enabled, early⟩ := now
  refine ⟨enabled, early.trans ?_⟩
  rw [Nat.mul_zero]
  exact Nat.zero_le _

theorem zero_taken (c : Counter) : ¬ Refused c 0 := by
  unfold Refused u32
  simp

theorem setDeviceTimer_programs (s : System) (microseconds : Nat) (type : TimerType)
    (i : Fin maxDevices) :
    ∃ r rest,
      (s.queue.add (u64 (getTOD s.clock + microseconds)) type i).entries = r :: rest ∧
      setDeviceTimer s microseconds type i = { s with
        queue := s.queue.add (u64 (getTOD s.clock + microseconds)) type i
        virtualTimer := setVirtualTimer s.clock s.virtualTimer (r.time - getTOD s.clock) } := by
  have first := first_add s.queue (u64 (getTOD s.clock + microseconds)) type i
  rcases next_cases (s.queue.add (u64 (getTOD s.clock + microseconds)) type i) noTimer with
    ⟨none, _⟩ | ⟨r, rest, head, given⟩
  · rw [none] at first
    cases first
  · refine ⟨r, rest, head, ?_⟩
    simp only [setDeviceTimer, given, ↓reduceIte]
    by_cases ahead : getTOD s.clock < r.time
    · rw [if_pos ahead]
    · rw [if_neg ahead, Nat.sub_eq_zero_of_le (Nat.le_of_not_lt ahead)]

theorem device_covers_iff (s : System) (microseconds : Nat) (dev : Dev) :
    (Call.device microseconds dev).Covers s ↔ (Call.device microseconds dev).Fits s := by
  obtain ⟨r, rest, head, run⟩ :=
    setDeviceTimer_programs s microseconds dev.1.timer dev.2
  have coming : (Call.device microseconds dev).coming s = some r.time := by
    have first := first_add s.queue (u64 (getTOD s.clock + microseconds)) dev.1.timer dev.2
    rw [head] at first
    exact first.symm
  simp only [Call.Covers, Call.Fits, coming, Call.run, run, Call.deadline, head, List.head?_cons,
    Option.map_some, Option.some.injEq, forall_eq', Call.register, Call.Fires, false_or]
  exact setTimer_inTime_iff s.clock s.virtualTimer _

theorem drainLoop_leaves (now fuel : Nat) {s t : System} {next next' : Timer} {res : Int}
    (ends : drainLoop now fuel s next = some (res, next', t)) :
    t.clock = s.clock ∧ t.virtualTimer = s.virtualTimer ∧
      t.queue.entries.head? = s.queue.entries.find? (fun r => decide (now ≤ r.time)) ∧
      (res = 0 ∧ t.queue.entries.head? = some next' ∧ now ≤ next'.time ∨
        res ≠ 0 ∧ t.queue.entries.head? = none) := by
  induction fuel generalizing s next with
  | zero => cases ends
  | succ fuel ih =>
    obtain ⟨r₁, r, q, given, cases⟩ := nextPending_cases s.queue now next
    simp only [drainLoop, given] at ends
    rcases cases with ⟨sign, none, same⟩ | ⟨sign, head, past⟩ | ⟨sign, same, due, rest, head⟩
    · rw [if_neg (by omega)] at ends
      cases ends
      exact ⟨rfl, rfl, by simp [same, none], Or.inr ⟨by omega, by simp [same, none]⟩⟩
    · rw [if_pos sign] at ends
      obtain ⟨clock, virtualTimer, left, result⟩ := ih ends
      have quiet : (manageTimer { s with queue := q } r).clock = s.clock ∧
          (manageTimer { s with queue := q } r).virtualTimer = s.virtualTimer := by
        unfold manageTimer
        cases owner r with
        | none => exact ⟨rfl, rfl⟩
        | some dev =>
          have quiet := manage_quiet { s with queue := q } dev
          exact ⟨quiet.clock, quiet.virtualTimer⟩
      refine ⟨clock.trans quiet.1, virtualTimer.trans quiet.2, ?_, result⟩
      rw [left, manageTimer_queue, head, List.find?_cons_of_neg (by simpa using past)]
    · rw [if_neg (by omega)] at ends
      cases ends
      refine ⟨rfl, rfl, ?_, Or.inl ⟨sign, by simp [same, head], due⟩⟩
      rw [same, head, List.find?_cons_of_pos (by simpa using due)]
      rfl

theorem setTimer_congr (c : Counter) (t : ArmTimer) {a b : Nat} (same : u32 a = u32 b) :
    setTimer c t a = setTimer c t b := by
  simp only [setTimer, same]

theorem rearm_fields (s : System) (now : Nat) (res : Int) (next : Timer) :
    (rearm s now res next).queue = s.queue ∧ (rearm s now res next).clock = s.clock ∧
      (rearm s now res next).virtualTimer =
        if res = 0 then setVirtualTimer s.clock s.virtualTimer (u64 (next.time + 2 ^ 64 - now))
        else disableVirtualCounter s.virtualTimer := by
  unfold rearm
  generalize (if res = 0 then _ else disableVirtualCounter s.virtualTimer) = armed
  dsimp only
  split_ifs <;> exact ⟨rfl, rfl, rfl⟩

theorem fiq_covers_iff (s : System) : Call.fiq.Covers s ↔ Call.fiq.Fits s := by
  obtain ⟨res, next, t, ends, rearmed⟩ := fiqTimer_drains s
  obtain ⟨clock, virtualTimer, left, result⟩ := drainLoop_leaves _ _ ends
  obtain ⟨queue, clock', programmed⟩ := rearm_fields t (getTOD s.clock) res next
  rw [← rearmed] at queue clock' programmed
  have run : Call.fiq.run s = fiqTimer s := rfl
  have deadline : Call.fiq.deadline (fiqTimer s) = Call.fiq.coming s := by
    rw [Call.deadline, queue, left, Call.coming]
  unfold Call.Covers Call.Fits
  rw [run, deadline, clock', clock, Call.register, Call.register, programmed, clock, virtualTimer]
  rcases result with ⟨zero, head, due⟩ | ⟨_, none⟩
  · have coming : Call.fiq.coming s = some next.time := by
      rw [Call.coming, ← left, head]
      rfl
    have cut : u32 (u64 (next.time + 2 ^ 64 - getTOD s.clock)) =
        u32 (next.time - getTOD s.clock) := by
      unfold u32 u64
      omega
    rw [coming, if_pos zero, setVirtualTimer, setTimer_congr _ _ cut]
    simp only [Option.some.injEq, forall_eq', Call.Fires, false_or]
    exact setTimer_inTime_iff s.clock s.virtualTimer _
  · have coming : Call.fiq.coming s = Option.none := by
      rw [Call.coming, ← left, none]
      rfl
    simp [coming]

theorem timer_covers_iff (s : System) (core : Fin 4) (microseconds : Nat) :
    (Call.timer core microseconds).Covers s ↔ (Call.timer core microseconds).Fits s := by
  obtain ⟨t, cleared⟩ : ∃ t, t = (s.clearLine ilTimer core).schedule core
    (u64 (getTOD s.clock + microseconds)) := ⟨_, rfl⟩
  have pending : pendingEmulatedInterrupt t = pendingEmulatedInterrupt (s.clearLine ilTimer core) := by
    rw [cleared]
    rfl
  have set : ∀ interval, (t.setPhysical core interval).physicalTimers core =
      (setTimer s.clock (s.physicalTimers core) interval).2 ∧
      (t.setPhysical core interval).clock = s.clock ∧
      (t.setPhysical core interval).scheduledPhysicalTimers core =
        u64 (getTOD s.clock + microseconds) := by
    intro interval
    rw [cleared]
    simp [System.setPhysical, System.schedule, System.clearLine, setPhysicalTimer]
  by_cases ahead : getTOD s.clock < u64 (getTOD s.clock + microseconds)
  · by_cases fires : pendingEmulatedInterrupt (s.clearLine ilTimer core) = true
    · have run : setTIMER s core microseconds = t.setPhysical core 0 := by
        simp only [setTIMER, ← cleared, pending, fires, Bool.true_eq_false, and_false, ↓reduceIte]
      obtain ⟨timer, clock, scheduled⟩ := set 0
      simp only [Call.Covers, Call.Fits, Call.run, run, Call.deadline, Call.coming, Call.register,
        Call.Fires, fires, timer, clock, scheduled, true_or, implies_true, iff_true]
      intro time _
      exact inTime_now (setTimer_inTime (zero_taken s.clock) _) _
    · have run : setTIMER s core microseconds =
          t.setPhysical core (u64 (getTOD s.clock + microseconds) - getTOD s.clock) := by
        simp only [setTIMER, ← cleared, pending, ahead, true_and, fires, ↓reduceIte]
      obtain ⟨timer, clock, scheduled⟩ :=
        set (u64 (getTOD s.clock + microseconds) - getTOD s.clock)
      simp only [Call.Covers, Call.Fits, Call.run, run, Call.deadline, Call.coming, Call.register,
        Call.Fires, fires, timer, clock, scheduled, if_pos ahead, Option.some.injEq, forall_eq',
        Bool.false_eq_true, false_or]
      exact setTimer_inTime_iff s.clock (s.physicalTimers core) _
  · have run : setTIMER s core microseconds = t.setPhysical core 0 := by
      simp only [setTIMER, ← cleared, ahead, false_and, ↓reduceIte]
    obtain ⟨timer, clock, scheduled⟩ := set 0
    simp [Call.Covers, Call.Fits, Call.run, run, Call.deadline, Call.coming, clock, scheduled, ahead]

theorem irq_covers_iff (s : System) (core : Fin 4) :
    (Call.irq core).Covers s ↔ (Call.irq core).Fits s := by
  by_cases ahead : getTOD s.clock < s.scheduledPhysicalTimers core
  · have run : irqTimer s core =
        s.setPhysical core (s.scheduledPhysicalTimers core - getTOD s.clock) :=
      if_neg (Nat.not_le_of_lt ahead)
    have coming : (Call.irq core).coming s = some (s.scheduledPhysicalTimers core) := if_pos ahead
    have deadline : (Call.irq core).deadline ((Call.irq core).run s) =
        some (s.scheduledPhysicalTimers core) := by
      rw [Call.run, run]
      exact if_pos ahead
    unfold Call.Covers Call.Fits
    rw [deadline, coming]
    simp only [Option.some.injEq, forall_eq', Call.Fires, false_or, Call.run, run, Call.register,
      System.setPhysical, Function.update_self, setPhysicalTimer]
    exact setTimer_inTime_iff s.clock (s.physicalTimers core) _
  · have coming : (Call.irq core).coming s = none := if_neg ahead
    have deadline : (Call.irq core).deadline ((Call.irq core).run s) = none := by
      simp [Call.run, Call.deadline, irqTimer, Nat.le_of_not_lt ahead, System.schedule,
        System.raiseLine]
    simp [Call.Covers, Call.Fits, deadline, coming]

/-- The machine with the four calls among its actions. -/
inductive Event where
  | act (a : Act)
  | call (c : Call)

def happen (s : System) : Event → System
  | .act a => step s a
  | .call c => c.run s

theorem call_covers_iff (s : System) (c : Call) : c.Covers s ↔ c.Fits s := by
  cases c with
  | device microseconds dev => exact device_covers_iff s microseconds dev
  | fiq => exact fiq_covers_iff s
  | timer core microseconds => exact timer_covers_iff s core microseconds
  | irq core => exact irq_covers_iff s core

/-- In every run, from whatever state, each call leaves its deadline covered exactly when each
    interval to such a deadline fits the timer register or needs no new programming. -/
theorem deadlines_covered_iff (s : System) (es : List Event) :
    Along happen (fun s e => ∀ c, e = .call c → c.Covers s) s es ↔
      Along happen (fun s e => ∀ c, e = .call c → c.Fits s) s es :=
  along_congr (fun s _ => forall_congr' fun c => imp_congr_right fun _ => call_covers_iff s c) es s

/-- At 19.2 MHz, five minutes do not fit: the timer of core 0 stays disabled. -/
theorem five_minutes_stranded :
    Reachable bareSystem ∧ (Call.timer 0 300000000).deadline
        ((Call.timer 0 300000000).run bareSystem) = some 300000000 ∧
      ¬ (Call.timer 0 300000000).Covers bareSystem := by
  refine ⟨⟨bareBoot, false, bareSystem, [], bare_init, rfl⟩, by decide +kernel, ?_⟩
  intro covers
  obtain ⟨enabled, _⟩ := covers 300000000 (by decide +kernel)
  exact absurd enabled (by decide +kernel)

end Emulated
