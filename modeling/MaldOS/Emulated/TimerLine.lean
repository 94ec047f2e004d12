import MaldOS.Emulated.Invocations

/-!
Which interrupts of a physical timer are taken for the end of an interval that a
core asked for with `setTIMER`.
-/
namespace Emulated
open Arch ByteMemory Registers ArmTimers EmulatedTimers Runs

/-- `tmp & 0x02` -/
def SeesTimer (s : System) (core : Fin 4) (source : BitVec 32) : Prop :=
  (if core = 0 then source else s.locals s.met) &&& 0x02 ≠ 0

def SetsTimer (s : System) (core : Fin 4) (source : BitVec 32) : Prop :=
  SeesTimer s core source ∧ s.scheduledPhysicalTimers core ≤ getTOD s.clock

instance (s : System) (core : Fin 4) (source : BitVec 32) : Decidable (SeesTimer s core source) :=
  inferInstanceAs (Decidable (_ ≠ _))

instance (s : System) (core : Fin 4) (source : BitVec 32) : Decidable (SetsTimer s core source) :=
  inferInstanceAs (Decidable (_ ∧ _))

def System.endInterval (s : System) (core : Fin 4) : System :=
  (s.raiseLine ilTimer core).schedule core 0

structure SameDeadlines (s s' : System) : Prop where
  lines : s'.lines = s.lines
  installed : s'.installed = s.installed
  scheduled : s'.scheduledPhysicalTimers = s.scheduledPhysicalTimers

theorem sameDeadlines_ite {c : Prop} [Decidable c] {s t t' : System} (yes : SameDeadlines s t)
    (no : SameDeadlines s t') : SameDeadlines s (if c then t else t') := by
  split_ifs
  · exact yes
  · exact no

theorem sameDeadlines_trans {s t u : System} (first : SameDeadlines s t)
    (second : SameDeadlines t u) : SameDeadlines s u :=
  ⟨second.lines.trans first.lines, second.installed.trans first.installed,
    second.scheduled.trans first.scheduled⟩

theorem clean_same {s t : System} (same : SameDeadlines s t) :
    SameDeadlines (cleanInterruptLines s) (cleanInterruptLines t) := by
  refine ⟨?_, same.installed, same.scheduled⟩
  unfold cleanInterruptLines
  rw [same.lines, same.installed]

theorem endInterval_same {s t : System} (same : SameDeadlines s t) (core : Fin 4) :
    SameDeadlines (s.endInterval core) (t.endInterval core) := by
  refine ⟨?_, same.installed, ?_⟩
  · unfold System.endInterval System.raiseLine System.schedule
    rw [same.lines]
  · unfold System.endInterval System.raiseLine System.schedule
    dsimp only
    rw [same.scheduled]

theorem irqTimer_reached {s : System} {core : Fin 4}
    (reached : s.scheduledPhysicalTimers core ≤ getTOD s.clock) :
    SameDeadlines (s.endInterval core) (irqTimer s core) := by
  unfold irqTimer
  dsimp only
  rw [if_pos reached]
  exact ⟨rfl, rfl, rfl⟩

theorem irqTimer_early {s : System} {core : Fin 4}
    (early : ¬ s.scheduledPhysicalTimers core ≤ getTOD s.clock) :
    SameDeadlines s (irqTimer s core) := by
  unfold irqTimer
  dsimp only
  rw [if_neg early]
  exact ⟨rfl, rfl, rfl⟩

theorem cIrqHandler_sets (s : System) (core : Fin 4) (source : BitVec 32) :
    SameDeadlines (cleanInterruptLines (if SetsTimer s core source then s.endInterval core else s))
      (cIrqHandler s core source) := by
  obtain ⟨t, read, same, clock⟩ : ∃ t,
      (if core = 0 then (source, s) else (s.locals s.met, { s with met := s.met + 1 })) =
        (if core = 0 then source else s.locals s.met, t) ∧ SameDeadlines s t ∧ t.clock = s.clock := by
    split_ifs
    · exact ⟨s, rfl, ⟨rfl, rfl, rfl⟩, rfl⟩
    · exact ⟨_, rfl, ⟨rfl, rfl, rfl⟩, rfl⟩
  have served : SameDeadlines (if SetsTimer s core source then s.endInterval core else s)
      (if (if core = 0 then source else s.locals s.met) &&& 0x02 ≠ 0 then irqTimer t core else t) := by
    by_cases sees : SeesTimer s core source
    · have bit : (if core = 0 then source else s.locals s.met) &&& 0x02 ≠ 0 := sees
      rw [if_pos bit]
      by_cases reached : s.scheduledPhysicalTimers core ≤ getTOD s.clock
      · rw [if_pos ⟨sees, reached⟩]
        rw [← same.scheduled, ← clock] at reached
        exact sameDeadlines_trans (endInterval_same same core) (irqTimer_reached reached)
      · rw [if_neg fun sets => reached sets.2]
        rw [← same.scheduled, ← clock] at reached
        exact sameDeadlines_trans same (irqTimer_early reached)
    · have bit : ¬ (if core = 0 then source else s.locals s.met) &&& 0x02 ≠ 0 := sees
      rw [if_neg bit, if_neg fun sets => sees sets.1]
      exact same
  unfold cIrqHandler
  rw [read]
  dsimp only
  generalize (if SetsTimer s core source then s.endInterval core else s) = u at served ⊢
  generalize (if (if core = 0 then source else s.locals s.met) &&& 0x02 ≠ 0 then _ else _) = v
    at served ⊢
  exact clean_same (sameDeadlines_ite ⟨served.lines, served.installed, served.scheduled⟩ served)

def TimerUp (s : System) (core : Fin 4) : Prop := (s.lines ilTimer).getLsbD core = true

theorem reachable_timers {s : System} (reachable : Reachable s) : s.installed ilTimer = 0x0F := by
  obtain ⟨b, sdOk, start, as, init, rfl⟩ := reachable
  obtain ⟨t, -, rfl⟩ := Option.map_eq_some_iff.mp init
  rw [run_installed]
  simp [initTimers]

theorem timerUp_iff {s : System} (reachable : Reachable s) (core : Fin 4) (source : BitVec 32) :
    TimerUp (cIrqHandler s core source) core ↔ SetsTimer s core source ∨ TimerUp s core := by
  have installed := reachable_timers reachable
  have fourCores : (0x0F#8).getLsbD core = true := by
    revert core
    decide
  unfold TimerUp
  rw [(cIrqHandler_sets s core source).lines]
  by_cases sets : SetsTimer s core source
  · simp [sets, cleanInterruptLines, System.endInterval, System.raiseLine, System.schedule,
      installed, fourCores, bit_get]
  · simp [sets, cleanInterruptLines, installed, fourCores]

/-- A run with the deadline that each core has asked for and not been told of yet. -/
def owing (p : System × (Fin 4 → Option Nat)) (e : Invocation) : System × (Fin 4 → Option Nat) :=
  (handle p.1 e,
    match e with
    | .timer core microseconds =>
      Function.update p.2 core (some (u64 (getTOD p.1.clock + microseconds)))
    | .irq core source => if SetsTimer p.1 core source then Function.update p.2 core none else p.2
    | _ => p.2)

/-- If the handler sets the bit, the core has asked for a deadline, which has been reached. -/
def Justified (p : System × (Fin 4 → Option Nat)) : Invocation → Prop
  | .irq core source =>
    SetsTimer p.1 core source → ∃ time, p.2 core = some time ∧ time ≤ getTOD p.1.clock
  | _ => True

/-- An interrupt of the timer is seen only by a core with a deadline to come or just reached. -/
def Expected (p : System × (Fin 4 → Option Nat)) : Invocation → Prop
  | .irq core source => SeesTimer p.1 core source → p.2 core ≠ none
  | _ => True

/-- `scheduled_physical_timers` has 0 for a core that asked for nothing. -/
def Scheduled (p : System × (Fin 4 → Option Nat)) : Prop :=
  ∀ core, p.1.scheduledPhysicalTimers core = (p.2 core).getD 0

theorem justified_iff {p : System × (Fin 4 → Option Nat)} (scheduled : Scheduled p)
    (e : Invocation) : Justified p e ↔ Expected p e := by
  cases e with
  | irq core source =>
    have here := scheduled core
    unfold Justified Expected SetsTimer
    dsimp only
    cases owed : p.2 core with
    | none =>
      rw [owed] at here
      simp [here]
    | some time =>
      rw [owed] at here
      simp [here]
  | _ => exact Iff.rfl

theorem step_scheduled {s : System} {a : Act} (drains : a.Drains) :
    (step s a).scheduledPhysicalTimers = s.scheduledPhysicalTimers := by
  cases a with
  | expire next =>
    rcases expire_cases s next with ⟨same, _⟩ | ⟨r, q, _, _, run⟩
    · rw [step, same]
    · rw [step, run]
      unfold manageTimer
      cases owner r with
      | none => rfl
      | some dev => exact (manage_own { s with queue := q } dev).scheduled
  | rearm res next =>
    simp only [step, rearm]
    generalize (if res = 0 then _ else disableVirtualCounter s.virtualTimer) = armed
    split_ifs <;> rfl
  | _ => exact absurd drains id

theorem fiqTimer_scheduled (s : System) :
    (fiqTimer s).scheduledPhysicalTimers = s.scheduledPhysicalTimers := by
  obtain ⟨as, drains, drained⟩ := fiqTimer_run s
  rw [drained]
  clear drained
  induction as generalizing s with
  | nil => rfl
  | cons a as ih =>
    rw [run, ih _ fun b member => drains b (List.mem_cons_of_mem a member)]
    exact step_scheduled (drains a List.mem_cons_self)

theorem fiq_scheduled (s : System) (source data : BitVec 32) (count : Nat) :
    (cFiqHandler s source data count).scheduledPhysicalTimers = s.scheduledPhysicalTimers := by
  have message : (fiqMailbox s data).scheduledPhysicalTimers = s.scheduledPhysicalTimers := by
    unfold fiqMailbox
    cases messageClass data with
    | none => rfl
    | some c => exact (mailbox_own s (c, messageNum data) (messageAddress data)).scheduled
  unfold cFiqHandler
  dsimp only
  have first : (if source &&& 0x10 ≠ 0 then fiqMailbox s data else s).scheduledPhysicalTimers =
      s.scheduledPhysicalTimers := by
    split_ifs
    · exact message
    · rfl
  generalize (if source &&& 0x10 ≠ 0 then fiqMailbox s data else s) = t at first ⊢
  rw [← first]
  split_ifs
  · exact fiqTimer_scheduled (t.tick count)
  · rfl

theorem scheduled_step {p : System × (Fin 4 → Option Nat)} (scheduled : Scheduled p)
    (e : Invocation) : Scheduled (owing p e) := by
  intro core
  have before := scheduled core
  cases e with
  | fiq source data elapsed =>
    simp only [owing, handle, fiq_scheduled]
    exact before
  | irq c source =>
    have sets := (cIrqHandler_sets p.1 c source).scheduled
    simp only [owing, handle, sets]
    by_cases ends : SetsTimer p.1 c source
    · simp only [if_pos ends]
      by_cases same : core = c
      · subst same
        simp [System.endInterval, System.schedule, cleanInterruptLines]
      · simp [System.endInterval, System.schedule, cleanInterruptLines, same, System.raiseLine, before]
    · simp only [if_neg ends]
      exact before
  | timer c microseconds =>
    have asked : (setTIMER p.1 c microseconds).scheduledPhysicalTimers =
        Function.update p.1.scheduledPhysicalTimers c (u64 (getTOD p.1.clock + microseconds)) := by
      unfold setTIMER
      dsimp only
      split_ifs
      · rfl
      · rfl
    simp only [owing, handle, asked]
    by_cases same : core = c
    · subst same
      simp
    · simp [same, before]
  | pause ram elapsed => exact before
  | setMask mask => exact before

/-- In every run of handlers the bit is set only for a deadline that a core asked for, that has
    been reached, and that it has not been told of, exactly if no core without such a deadline
    sees its physical timer. -/
theorem justified_run_iff {b : Boot} {sdOk : Bool} {start : System}
    (init : initSystem b sdOk = some start) (es : List Invocation) :
    Along owing Justified (start, fun _ => none) es ↔
      Along owing Expected (start, fun _ => none) es := by
  apply @along_same _ _ owing Scheduled
  · exact fun p e scheduled => justified_iff scheduled e
  · exact fun p e scheduled _ => scheduled_step scheduled e
  · exact fun core => congrFun (init_still init).2 core

theorem justified_run_iff_asked :
    Along owing Justified (bareSystem, fun _ => none) [.timer 0 400, .irq 0 2] ↔
      Along owing Expected (bareSystem, fun _ => none) [.timer 0 400, .irq 0 2] :=
  justified_run_iff bare_init [.timer 0 400, .irq 0 2]

/-- A client prints, and its printer is done: nobody calls `setTIMER`. -/
def printAwaited : List Invocation :=
  [.setMask 0xF0, .pause (storeReg (fun _ => 0) 0x10000 ⟨0, printChar, 0x41, 0, 0⟩) 0,
    .fiq 0x10 0x10000 0, .fiq 0x08 0 400]

/-- The physical timer fires for the line of the printer, and sets the one of the timers. -/
theorem device_sets_timer :
    initSystem bareBoot false = some bareSystem ∧
      InTime (run handle bareSystem printAwaited).clock
        ((run handle bareSystem printAwaited).physicalTimers 0) 0 ∧
      ¬ Along owing Justified (bareSystem, fun _ => none) (printAwaited ++ [.irq 0 2]) := by
  refine ⟨bare_init, (inTime_now_iff _ _).mpr (by decide +kernel), ?_⟩
  intro along
  obtain ⟨-, justified, -⟩ := (along_append owing Justified _ printAwaited [.irq 0 2]).mp along
  have sees : SeesTimer (run owing (bareSystem, fun _ => none) printAwaited).1 0 2 := by
    decide +kernel
  have reached : (run owing (bareSystem, fun _ => none) printAwaited).1.scheduledPhysicalTimers 0 ≤
      getTOD (run owing (bareSystem, fun _ => none) printAwaited).1.clock := by decide +kernel
  obtain ⟨time, asked, -⟩ := justified ⟨sees, reached⟩
  have none : (run owing (bareSystem, fun _ => none) printAwaited).2 0 = none := by decide +kernel
  rw [none] at asked
  cases asked

end Emulated
