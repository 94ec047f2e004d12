import MaldOS.Emulated.TimerLine

/-!
Whose timer the branch of `c_irq_handler` acts on. The word that decides is read
from the interrupt controller on core 0 alone; the other cores test what the
stack holds.
-/
namespace Emulated
open Arch ByteMemory Registers ArmTimers EmulatedTimers Runs

/-- The physical timer of a core asks for an interrupt, in the words that the controller has for
    the four cores. -/
def OwnSource (sources : Fin 4 → BitVec 32) (core : Fin 4) : Prop := sources core &&& 0x02 ≠ 0

/-- The state when the handler comes to its test; a local without a value has been met. -/
def System.looked (s : System) (core : Fin 4) : System :=
  if core = 0 then s else { s with met := s.met + 1 }

def closing (s : System) (core : Fin 4) : System :=
  cleanInterruptLines (if pendingEmulatedInterrupt s then s.setPhysical core 0 else s)

def remaining (s : System) (core : Fin 4) : Nat :=
  s.scheduledPhysicalTimers core - getTOD s.clock

/-- The handler acts on the timer of its core: on its interrupt, the line goes up if the deadline
    is reached, and the register is set to the rest of the interval if it is not. -/
structure ActsOnOwn (s : System) (core : Fin 4) (sources : Fin 4 → BitVec 32) : Prop where
  run : cIrqHandler s core (sources 0) = closing (if SeesTimer s core (sources 0) then
    irqTimer (s.looked core) core else s.looked core) core
  entered : SeesTimer s core (sources 0) ↔ OwnSource sources core
  raised : OwnSource sources core → s.scheduledPhysicalTimers core ≤ getTOD s.clock →
    TimerUp (irqTimer (s.looked core) core) core
  rearmed : OwnSource sources core → getTOD s.clock < s.scheduledPhysicalTimers core →
    (irqTimer (s.looked core) core).lines = s.lines ∧
      (irqTimer (s.looked core) core).physicalTimers core = wholeInterval s.clock (remaining s core)

/-- The stack happens to hold the bit of the core, and the rest of its interval fits. -/
structure LuckyStack (s : System) (core : Fin 4) (sources : Fin 4 → BitVec 32) : Prop where
  word : core ≠ 0 → (s.locals s.met &&& 0x02 ≠ 0 ↔ OwnSource sources core)
  interval : OwnSource sources core → getTOD s.clock < s.scheduledPhysicalTimers core →
    FitsRegister s.clock (s.physicalTimers core) (remaining s core)

theorem looked_same (s : System) (core : Fin 4) :
    (s.looked core).lines = s.lines ∧ (s.looked core).clock = s.clock ∧
      (s.looked core).scheduledPhysicalTimers = s.scheduledPhysicalTimers ∧
      (s.looked core).physicalTimers = s.physicalTimers := by
  unfold System.looked
  split_ifs <;> exact ⟨rfl, rfl, rfl, rfl⟩

theorem cIrqHandler_parts (s : System) (core : Fin 4) (source : BitVec 32) :
    cIrqHandler s core source = closing (if SeesTimer s core source then
      irqTimer (s.looked core) core else s.looked core) core := by
  by_cases first : core = 0
  · simp only [cIrqHandler, SeesTimer, System.looked, if_pos first]
    rfl
  · simp only [cIrqHandler, SeesTimer, System.looked, if_neg first]
    rfl

theorem seesTimer_iff (s : System) (core : Fin 4) (sources : Fin 4 → BitVec 32) :
    (SeesTimer s core (sources 0) ↔ OwnSource sources core) ↔
      (core ≠ 0 → (s.locals s.met &&& 0x02 ≠ 0 ↔ OwnSource sources core)) := by
  unfold SeesTimer
  by_cases first : core = 0
  · subst first
    simp [OwnSource]
  · rw [if_neg first]
    exact ⟨fun same _ => same, fun same => same first⟩

theorem raised_here {s : System} {core : Fin 4}
    (reached : s.scheduledPhysicalTimers core ≤ getTOD s.clock) :
    TimerUp (irqTimer (s.looked core) core) core := by
  obtain ⟨_, clock, scheduled, _⟩ := looked_same s core
  rw [← clock, ← scheduled] at reached
  unfold TimerUp
  rw [(irqTimer_reached reached).lines]
  simp [System.endInterval, System.raiseLine, System.schedule, bit_get]

theorem rearmed_iff {s : System} {core : Fin 4}
    (early : getTOD s.clock < s.scheduledPhysicalTimers core) :
    ((irqTimer (s.looked core) core).lines = s.lines ∧
        (irqTimer (s.looked core) core).physicalTimers core =
          wholeInterval s.clock (remaining s core)) ↔
      FitsRegister s.clock (s.physicalTimers core) (remaining s core) := by
  obtain ⟨lines, clock, scheduled, timers⟩ := looked_same s core
  have ahead : ¬ (s.looked core).scheduledPhysicalTimers core ≤ getTOD (s.looked core).clock := by
    rw [clock, scheduled]
    exact Nat.not_le_of_lt early
  have set : (irqTimer (s.looked core) core).physicalTimers core =
      (setTimer s.clock (s.physicalTimers core) (remaining s core)).2 := by
    unfold irqTimer
    dsimp only
    rw [if_neg ahead]
    simp only [System.setPhysical, Function.update_self, setPhysicalTimer, clock, scheduled, timers,
      remaining]
  rw [set, (irqTimer_early ahead).lines, lines, setTimer_whole_iff]
  simp

/-- On every core the handler acts on the timer of the core exactly if the stack happens to hold
    the bit that it should have read, and the rest of the interval fits the register. -/
theorem actsOnOwn_iff (s : System) (core : Fin 4) (sources : Fin 4 → BitVec 32) :
    ActsOnOwn s core sources ↔ LuckyStack s core sources := by
  constructor
  · intro acts
    refine ⟨(seesTimer_iff s core sources).mp acts.entered, ?_⟩
    exact fun own early => (rearmed_iff early).mp (acts.rearmed own early)
  · intro lucky
    refine ⟨cIrqHandler_parts s core (sources 0), (seesTimer_iff s core sources).mpr lucky.word, ?_, ?_⟩
    · exact fun _ reached => raised_here reached
    · exact fun own early => (rearmed_iff early).mpr (lucky.interval own early)

/-- Nothing interrupts core 1, and a word with the bit is on its stack: the handler ends an
    interval that nobody has asked for. -/
theorem stack_ends_interval :
    initSystem { bareBoot with locals := fun _ => 2 } false =
        some { bareSystem with locals := fun _ => 2 } ∧
      ¬ OwnSource (fun _ => 0) 1 ∧ SeesTimer { bareSystem with locals := fun _ => 2 } 1 0 ∧
      TimerUp (cIrqHandler { bareSystem with locals := fun _ => 2 } 1 0) 1 ∧
      ¬ ActsOnOwn { bareSystem with locals := fun _ => 2 } 1 (fun _ => 0) := by
  have sees : SeesTimer { bareSystem with locals := fun _ => 2 } 1 0 := by decide
  have silent : ¬ OwnSource (fun _ => 0) 1 := by
    unfold OwnSource
    decide
  refine ⟨rfl, silent, sees, ?_, ?_⟩
  · unfold TimerUp
    decide +kernel
  · exact fun acts => silent (acts.entered.mp sees)

end Emulated
