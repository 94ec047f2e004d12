import MaldOS.Emulated.Drained
import MaldOS.Emulated.TimerLine

/-!
How long `getTOD` tells the time. It multiplies the count before it divides by
the frequency, in 64 bits, and so does the sum that makes a deadline.
-/
namespace Emulated
open Arch ByteMemory Registers ArmTimers EmulatedTimers Runs

def microseconds (c : Counter) : Nat := c.count * 1000000 / c.frequency

/-- A request made now for a deadline after `delay`, looked at when the counter has gone on to
    `later`: the readings are in order and right, and the deadline of a core and the timer of a
    device are reached when the delay has passed and not before. -/
structure KeepsTime (s : System) (delay later : Nat) : Prop where
  forward : getTOD s.clock ≤ getTOD (s.tick later).clock
  before : getTOD s.clock = microseconds s.clock
  after : getTOD (s.tick later).clock = microseconds (s.tick later).clock
  interval : ∀ core, TimerUp (irqTimer ((setTIMER s core delay).tick later) core) core ↔
    microseconds s.clock + delay ≤ microseconds (s.tick later).clock
  device : ∀ dev : Dev, (fiqTimer ((setDeviceTimer s delay dev.1.timer dev.2).tick later)).due dev =
    [] ↔ microseconds s.clock + delay < microseconds (s.tick later).clock

structure NoWrap (s : System) (delay later : Nat) : Prop where
  count : later * 1000000 < 2 ^ 64
  deadline : microseconds s.clock + delay < 2 ^ 64

theorem getTOD_exact_iff {c : Counter} (running : 0 < c.frequency) (word : c.frequency < 2 ^ 32) :
    getTOD c = microseconds c ↔ c.count * 1000000 < 2 ^ 64 := by
  have product : c.count * 1000 * 1000 = c.count * 1000000 := by omega
  unfold getTOD microseconds getarmclkfrq
  rw [u32_of_lt word, product]
  constructor
  · intro exact
    apply Nat.lt_of_not_le
    intro wrapped
    -- a wrapped product lacks 2 ^ 64, which is more than one microsecond
    have lost : u64 (c.count * 1000000) + c.frequency ≤ c.count * 1000000 := by
      unfold u64
      omega
    have apart := Nat.div_le_div_right (c := c.frequency) lost
    rw [Nat.add_div_right _ running] at apart
    omega
  · intro small
    rw [u64_of_lt small]

theorem microseconds_mono {c : Counter} {later : Nat} (order : c.count ≤ later) :
    microseconds c ≤ microseconds { c with count := later } :=
  Nat.div_le_div_right (Nat.mul_le_mul_right _ order)

theorem interval_up_iff (s : System) (core : Fin 4) (delay later : Nat) :
    TimerUp (irqTimer ((setTIMER s core delay).tick later) core) core ↔
      u64 (getTOD s.clock + delay) ≤ getTOD (s.tick later).clock := by
  obtain ⟨lines, scheduled, clock⟩ :
      (setTIMER s core delay).lines = (s.clearLine ilTimer core).lines ∧
      (setTIMER s core delay).scheduledPhysicalTimers core = u64 (getTOD s.clock + delay) ∧
      (setTIMER s core delay).clock = s.clock := by
    unfold setTIMER
    dsimp only
    split_ifs
    · exact ⟨rfl, Function.update_self _ _ _, rfl⟩
    · exact ⟨rfl, Function.update_self _ _ _, rfl⟩
  generalize setTIMER s core delay = t at lines scheduled clock ⊢
  have now : (t.tick later).clock = (s.tick later).clock := by
    rw [System.tick, System.tick, clock]
  have deadline : (t.tick later).scheduledPhysicalTimers core = u64 (getTOD s.clock + delay) :=
    scheduled
  have line : (t.tick later).lines = (s.clearLine ilTimer core).lines := lines
  generalize t.tick later = u at now deadline line ⊢
  rw [← deadline, ← now]
  unfold TimerUp
  constructor
  · intro up
    by_contra early
    rw [(irqTimer_early early).lines, line] at up
    simp [System.clearLine, bit_get] at up
  · intro reached
    rw [(irqTimer_reached reached).lines]
    simp [System.endInterval, System.raiseLine, System.schedule, bit_get]

theorem device_gone_iff (s : System) (dev : Dev) (delay later : Nat) :
    (fiqTimer ((setDeviceTimer s delay dev.1.timer dev.2).tick later)).due dev = [] ↔
      u64 (getTOD s.clock + delay) < getTOD (s.tick later).clock := by
  obtain ⟨virtualTimer, armed⟩ := @setDeviceTimer_eq s delay dev.1.timer dev.2
  have clock : ((setDeviceTimer s delay dev.1.timer dev.2).tick later).clock = (s.tick later).clock := by
    rw [armed]
    rfl
  have queue : ((setDeviceTimer s delay dev.1.timer dev.2).tick later).queue =
      s.queue.add (u64 (getTOD s.clock + delay)) dev.1.timer dev.2 := by
    rw [armed]
    rfl
  generalize (setDeviceTimer s delay dev.1.timer dev.2).tick later = t at clock queue ⊢
  have kept := due_add s.queue (u64 (getTOD s.clock + delay)) dev.1.timer dev.1.timer dev.2 dev.2
  rw [if_pos ⟨rfl, rfl⟩, ← queue, TimerQueue.due] at kept
  rw [System.due, TimerQueue.due, (fiqTimer_drains_expired t).left, pending, List.filter_comm, kept,
    List.filter_eq_nil_iff, clock]
  simp

theorem keepsTime_iff {s : System} {delay later : Nat} (running : 0 < s.clock.frequency)
    (word : s.clock.frequency < 2 ^ 32) (order : s.clock.count ≤ later) (request : delay < 2 ^ 64) :
    KeepsTime s delay later ↔ NoWrap s delay later := by
  have exact := getTOD_exact_iff running word
  have exact' := @getTOD_exact_iff (s.tick later).clock running word
  have grows : microseconds s.clock ≤ microseconds (s.tick later).clock := microseconds_mono order
  constructor
  · intro keeps
    have count := exact'.mp keeps.after
    refine ⟨count, Nat.lt_of_not_le fun wrapped => ?_⟩
    -- a deadline that wraps lies in the past of the request itself
    have up := keeps.interval 0
    rw [interval_up_iff, keeps.before, keeps.after] at up
    have small : microseconds (s.tick later).clock < 2 ^ 64 :=
      (Nat.div_le_self _ _).trans_lt count
    have early : u64 (microseconds s.clock + delay) ≤ microseconds (s.tick later).clock := by
      unfold u64
      omega
    have passed := up.mp early
    omega
  · intro fits
    have after := exact'.mpr fits.count
    have before := exact.mpr ((Nat.mul_le_mul_right _ order).trans_lt fits.count)
    constructor
    · rw [before, after]
      exact grows
    · exact before
    · exact after
    · intro core
      rw [interval_up_iff, before, after, u64_of_lt fits.deadline]
    · intro dev
      rw [device_gone_iff, before, after, u64_of_lt fits.deadline]

/-- One second asked for at the start, and looked at two seconds later. -/
theorem keepsTime_two_seconds : KeepsTime bareSystem 1000000 38400000 ↔
    NoWrap bareSystem 1000000 38400000 :=
  keepsTime_iff (by decide) (by decide) (by decide) (by decide)

/-- At 19.2 MHz the time goes back to zero after eleven days, and an interval of one second
    asked for just before is not over ten seconds later. -/
theorem time_wraps :
    (bareSystem.tick 18446744073709).clock.frequency = 19200000 ∧ 18446936073709 < 2 ^ 56 ∧
      getTOD (bareSystem.tick 18446744073710).clock < getTOD (bareSystem.tick 18446744073709).clock ∧
      ¬ TimerUp (irqTimer ((setTIMER (bareSystem.tick 18446744073709) 0 1000000).tick
        18446936073709) 0) 0 ∧
      ¬ KeepsTime (bareSystem.tick 18446744073709) 1000000 18446936073709 := by
  refine ⟨rfl, by decide, by decide, ?_, ?_⟩
  · rw [interval_up_iff]
    decide
  intro keeps
  exact absurd keeps.forward (by decide)

end Emulated
