import MaldOS.Emulated.Reachable

/-!
Commands in flight. In every run a busy device has one pending timer, set when
its command was accepted; what it takes for that command to be carried out.
-/
namespace Emulated
open Arch ByteMemory Registers ArmTimers EmulatedTimers Runs

instance (s : System) (dev : Dev) : Decidable (Busy s dev) :=
  inferInstanceAs (Decidable ((s.regs dev).status = deviceBusy))

/-- The time at which an action made the device busy, and the delay of its new command. -/
def acceptance (s : System) (a : Act) (dev : Dev) : Option (Nat × Nat) :=
  match a with
  | .request d _ r =>
    if d = dev ∧ ¬ Busy s dev ∧ Busy (step s a) dev then
      some (getTOD s.clock, delay s dev r.command)
    else none
  | _ => none

def traced (p : System × (Dev → Option (Nat × Nat))) (a : Act) :
    System × (Dev → Option (Nat × Nat)) :=
  (step p.1 a, fun dev => (acceptance p.1 a dev).or (p.2 dev))

structure Armed (accepted : Option (Nat × Nat)) (s : System) (dev : Dev) : Prop where
  delayed : Delayed dev.1 (s.regs dev).command
  block : s.block dev ≠ 0
  due : ∃ time wait, accepted = some (time, wait) ∧
    s.due dev = [⟨u64 (time + wait), dev.1.timer, dev.2⟩]

structure Untouched (dev : Dev) (s s' : System) : Prop where
  port : s'.ports dev = s.ports dev
  due : s'.due dev = s.due dev

/-- A message to the device, or the expiry of its timer. -/
def Concerns (s : System) (a : Act) (dev : Dev) : Prop :=
  (∃ block r, a = .request dev block r ∧ block ≠ 0) ∨ ((∃ next, a = .expire next) ∧ Expires s dev)

theorem timer_inj {c c' : DeviceClass} (same : c.timer = c'.timer) : c = c' := by
  cases c <;> cases c' <;> first | rfl | cases same

theorem due_add_other {dev other : Dev} (ne : dev ≠ other) (q : TimerQueue) (time : Nat) :
    (q.add time other.1.timer other.2).due dev.1.timer dev.2 = q.due dev.1.timer dev.2 := by
  rw [due_add, if_neg]
  rintro ⟨type, code⟩
  exact ne (Prod.ext (timer_inj type) code)

theorem due_add_self (dev : Dev) (q : TimerQueue) (time : Nat) :
    (q.add time dev.1.timer dev.2).due dev.1.timer dev.2 = [⟨time, dev.1.timer, dev.2⟩] := by
  rw [due_add, if_pos ⟨rfl, rfl⟩]

theorem quiet_untouched {dev other : Dev} {s s' : System} (quiet : Quiet other s s')
    (ne : dev ≠ other) : Untouched dev s s' := by
  refine ⟨quiet.ports dev ne, ?_⟩
  unfold System.due
  rw [quiet.queue]

theorem mailbox_untouched {dev other : Dev} (ne : dev ≠ other) (s : System) (block : BitVec 64) :
    Untouched dev s (mailbox s other block) := by
  by_cases given : block = 0
  · rw [given, mailbox_null]
    exact ⟨rfl, rfl⟩
  · cases mailbox_verdict s other given with
    | silent quiet => exact quiet_untouched quiet ne
    | kept quiet => exact quiet_untouched quiet ne
    | settled quiet => exact quiet_untouched quiet ne
    | started serves idle busy delayed block queue answered =>
      refine ⟨serves.ports dev ne, ?_⟩
      unfold System.due
      rw [queue, due_add_other ne]

theorem expire_untouched {dev : Dev} {s : System} (waits : ¬ Expires s dev) (next : Timer) :
    Untouched dev s (expire s next) := by
  rcases expire_cases s next with ⟨same, _⟩ | ⟨r, q, head, past, run⟩
  · rw [same]
    exact ⟨rfl, rfl⟩
  · have other : owner r ≠ some dev := fun own => waits ⟨r, _, head, past, own⟩
    have due : q.due dev.1.timer dev.2 = s.due dev := by
      rw [due_tail head, if_neg (fun same => other ((owner_iff r dev).mpr same))]
      rfl
    rw [run]
    unfold manageTimer
    cases own : owner r with
    | none => exact ⟨rfl, due⟩
    | some d =>
      have ne : dev ≠ d := by
        rintro rfl
        exact other own
      have untouched := quiet_untouched (manage_quiet { s with queue := q } d) ne
      exact ⟨untouched.port, untouched.due.trans due⟩

theorem step_untouched {s : System} {a : Act} {dev : Dev} (apart : ¬ Concerns s a dev) :
    Untouched dev s (step s a) := by
  by_cases serving : a.Serving
  · cases a with
    | request other block r =>
      by_cases ne : dev = other
      · subst ne
        have null : block = 0 := by
          by_contra given
          exact apart (Or.inl ⟨block, r, rfl, given⟩)
        rw [step, null, mailbox_null]
        exact ⟨rfl, rfl⟩
      · have untouched := mailbox_untouched ne { s with ram := storeReg s.ram block r } block
        exact ⟨untouched.port, untouched.due⟩
    | expire next => exact expire_untouched (fun expires => apart (Or.inr ⟨⟨next, rfl⟩, expires⟩)) next
    | _ => exact absurd serving id
  · have aside := step_aside s serving
    exact ⟨congrFun aside.ports dev, by unfold System.due; rw [aside.queue]⟩

theorem expire_own {s : System} {dev : Dev} (expires : Expires s dev) (next : Timer) :
    ∃ q, expire s next = manage { s with queue := q } dev := by
  obtain ⟨r, rest, head, past, own⟩ := expires
  rcases expire_cases s next with ⟨_, none⟩ | ⟨r', q, head', _, run⟩
  · exact absurd ⟨r, rest, head, past, own⟩ (none dev)
  · rw [head] at head'
    cases head'
    exact ⟨q, by rw [run, manageTimer_owner own]⟩

theorem expire_outcome {s : System} {dev : Dev} (expires : Expires s dev) (next : Timer) :
    ∃ q, step s (.expire next) = { s with queue := q } ∨
      Busy s dev ∧ Delayed dev.1 (s.regs dev).command ∧
        Completed dev { s with queue := q } (step s (.expire next)) := by
  obtain ⟨q, run⟩ := expire_own expires next
  refine ⟨q, ?_⟩
  rw [step, run]
  exact manage_cases { s with queue := q } dev

theorem installed_step {s : System} {dev : Dev} (installed : (s.regs dev).status ≠ deviceNotInstalled)
    (a : Act) : ((step s a).regs dev).status ≠ deviceNotInstalled := by
  by_cases concerns : Concerns s a dev
  · rcases concerns with ⟨block, r, rfl, given⟩ | ⟨⟨next, rfl⟩, expires⟩
    · cases mailbox_verdict { s with ram := storeReg s.ram block r } dev given with
      | silent quiet same => exact same.status ▸ installed
      | kept quiet same => exact same.status ▸ installed
      | settled quiet idle there => exact there
      | started serves idle busy => exact busy_installed busy
    · obtain ⟨q, same | ⟨-, -, completed⟩⟩ := expire_outcome expires next
      · rw [same]
        exact installed
      · rw [completed.status]
        exact (perform_status _ dev).2
  · rw [System.regs, (step_untouched concerns).port]
    exact installed

theorem untouched_busy {dev : Dev} {s s' : System} (untouched : Untouched dev s s') :
    Busy s' dev ↔ Busy s dev := by
  unfold Busy System.regs
  rw [untouched.port]

theorem unchanged_busy {dev : Dev} {s s' : System} (same : Unchanged dev s s') :
    Busy s' dev ↔ Busy s dev := by
  unfold Busy
  rw [same.status]

theorem armed_untouched {dev : Dev} {s s' : System} {accepted : Option (Nat × Nat)}
    (armed : Armed accepted s dev) (untouched : Untouched dev s s') : Armed accepted s' dev := by
  constructor
  · rw [System.regs, untouched.port]
    exact armed.delayed
  · rw [System.block, untouched.port]
    exact armed.block
  · rw [untouched.due]
    exact armed.due

theorem acceptance_none {s : System} {a : Act} {dev : Dev}
    (none : ¬ (¬ Busy s dev ∧ Busy (step s a) dev)) : acceptance s a dev = Option.none := by
  cases a with
  | request d block r => exact if_neg fun taken => none taken.2
  | _ => rfl

theorem expire_idle {s : System} {dev : Dev} (expires : Expires s dev) (next : Timer)
    (armed : Busy s dev → Delayed dev.1 (s.regs dev).command) : ¬ Busy (expire s next) dev := by
  obtain ⟨q, run⟩ := expire_own expires next
  rw [run]
  by_cases busy : Busy s dev
  · exact completed_idle (@manage_completes { s with queue := q } dev busy (armed busy))
  · rw [@manage_idle { s with queue := q } dev busy]
    exact busy

/-- A message to the device either leaves its command in flight as it is, ends it, or starts a
    new one. -/
theorem request_armed {s : System} {dev : Dev} {accepted : Option (Nat × Nat)}
    (before : Busy s dev → Armed accepted s dev) {block : BitVec 64} (given : block ≠ 0)
    (r : DevReg) (busy : Busy (step s (.request dev block r)) dev) :
    Armed ((acceptance s (.request dev block r) dev).or accepted) (step s (.request dev block r))
      dev := by
  obtain ⟨s₁, filled⟩ : ∃ s₁, s₁ = { s with ram := storeReg s.ram block r } := ⟨_, rfl⟩
  have message : loadReg s₁.ram block = r := by
    rw [filled]
    exact loadReg_storeReg s.ram block r
  have verdict := mailbox_verdict s₁ dev given
  rw [message] at verdict
  have run : step s (.request dev block r) = mailbox s₁ dev block := by rw [filled]; rfl
  have port : s₁.ports = s.ports := by rw [filled]
  have queue : s₁.queue = s.queue := by rw [filled]
  have idle_iff : Busy s₁ dev ↔ Busy s dev := by
    unfold Busy System.regs
    rw [port]
  have carried : ∀ (quiet : Quiet dev s₁ (mailbox s₁ dev block))
      (same : Unchanged dev s₁ (mailbox s₁ dev block)),
      Armed ((acceptance s (.request dev block r) dev).or accepted)
        (step s (.request dev block r)) dev := by
    intro quiet same
    have was : Busy s dev := by
      rw [run, unchanged_busy same, idle_iff] at busy
      exact busy
    have armed := before was
    rw [acceptance_none (fun h => h.1 was), Option.none_or, run]
    constructor
    · rw [same.command, System.regs, port]
      exact armed.delayed
    · rw [same.block, System.block, port]
      exact armed.block
    · unfold System.due
      rw [quiet.queue, queue]
      exact armed.due
  cases verdict with
  | silent quiet same => exact carried quiet same
  | kept quiet same => exact carried quiet same
  | settled quiet idle =>
    rw [run] at busy
    exact absurd busy idle
  | started serves idle _ delayed target added =>
    have taken : acceptance s (.request dev block r) dev =
        some (getTOD s.clock, delay s dev r.command) :=
      if_pos ⟨rfl, fun was => idle (idle_iff.mpr was), busy⟩
    rw [taken, Option.some_or, run]
    constructor
    · exact delayed
    · rw [target]
      exact given
    · refine ⟨_, _, rfl, ?_⟩
      unfold System.due
      rw [added, due_add_self, filled]
      cases dev with
      | mk c i => cases c <;> rfl

theorem armed_step (p : System × (Dev → Option (Nat × Nat))) (a : Act)
    (before : ∀ dev, Busy p.1 dev → Armed (p.2 dev) p.1 dev) (dev : Dev)
    (busy : Busy (traced p a).1 dev) : Armed ((traced p a).2 dev) (traced p a).1 dev := by
  by_cases concerns : Concerns p.1 a dev
  · rcases concerns with ⟨block, r, rfl, given⟩ | ⟨⟨next, rfl⟩, expires⟩
    · exact request_armed (before dev) given r busy
    · exact absurd busy (expire_idle expires next fun was => (before dev was).delayed)
  · have untouched := step_untouched concerns
    have was : Busy p.1 dev := (untouched_busy untouched).mp busy
    have none : acceptance p.1 a dev = none := acceptance_none fun h => h.1 was
    simp only [traced, none, Option.none_or]
    exact armed_untouched (before dev was) untouched

theorem traced_run (as : List Act) (p : System × (Dev → Option (Nat × Nat))) :
    (run traced p as).1 = run step p.1 as := run_fst (fun _ _ => rfl) as p

theorem armed_run {b : Boot} {sdOk : Bool} {start : System} (init : initSystem b sdOk = some start)
    (as : List Act) (dev : Dev)
    (busy : Busy (run traced (start, fun _ => none) as).1 dev) :
    Armed ((run traced (start, fun _ => none) as).2 dev) (run traced (start, fun _ => none) as).1
      dev := by
  have quiescent := (init_quiescent init).1
  exact @run_invariant _ _ traced (fun p => ∀ dev, Busy p.1 dev → Armed (p.2 dev) p.1 dev)
    armed_step as (start, fun _ => none) (fun dev busy => absurd busy (quiescent dev)) dev busy

/-- In every state of every run, a busy device waits for one of its delayed commands, knows the
    block to report to, and has exactly one timer, due when the delay of this command is over. -/
theorem busy_has_timer {b : Boot} {sdOk : Bool} {start : System}
    (init : initSystem b sdOk = some start) (as : List Act) (dev : Dev)
    (busy : Busy (run step start as) dev) :
    Delayed dev.1 ((run step start as).regs dev).command ∧ (run step start as).block dev ≠ 0 ∧
      ∃ time wait, (run traced (start, fun _ => none) as).2 dev = some (time, wait) ∧
        (run step start as).due dev = [⟨u64 (time + wait), dev.1.timer, dev.2⟩] := by
  have same := traced_run as (start, fun _ => none)
  rw [← same] at busy ⊢
  obtain ⟨delayed, block, due⟩ := armed_run init as dev busy
  exact ⟨delayed, block, due⟩

/-- A machine without a card: only the printers are there. -/
def bareBoot : Boot where
  ram := fun _ => 0
  card := ⟨fun _ => 0, fun _ => none, 0⟩
  clock := ⟨19200000, 0⟩
  virtualTimer := ⟨false, 0⟩
  physicalTimers := fun _ => ⟨false, 0⟩
  locals := fun _ => 0
  stack := fun _ => 0

def bareSystem : System := initTimers (initEmulatedPrinters bareBoot.start)

theorem bare_init : initSystem bareBoot false = some bareSystem := rfl

def printA : Act := .request (.printer, 0) 0x10000 ⟨0, printChar, 0x41, 0, 0⟩

theorem printA_busy : Busy (run step bareSystem [printA]) (.printer, 0) := by decide +kernel

theorem busy_has_timer_printA :
    Delayed .printer ((run step bareSystem [printA]).regs (.printer, 0)).command ∧
      (run step bareSystem [printA]).block (.printer, 0) ≠ 0 ∧
      ∃ time wait, (run traced (bareSystem, fun _ => none) [printA]).2 (.printer, 0) =
          some (time, wait) ∧
        (run step bareSystem [printA]).due (.printer, 0) = [⟨u64 (time + wait), .printer, 0⟩] :=
  busy_has_timer bare_init [printA] (.printer, 0) printA_busy

end Emulated
