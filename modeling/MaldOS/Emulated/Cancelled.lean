import MaldOS.Emulated.Announced
import MaldOS.Emulated.Apart

/-!
A RESET of a busy device. The timer of the cancelled command stays in the queue,
but nothing comes of it: it finds the device not busy, or is replaced by the timer
of the next command.
-/
namespace Emulated
open Arch ByteMemory Registers ArmTimers EmulatedTimers Runs

inductive Position where
  | printer (cursor : Int × Int)
  | tape (block : Nat)
  | disk (cylinder head sector : Nat)

def System.position (s : System) : Dev → Position
  | (.printer, i) => .printer (s.printers i).coordinates
  | (.tape, i) => .tape (s.tapes i).blockIndex
  | (.disk, i) =>
    .disk (s.disks i).currentCylinder (s.disks i).currentHead (s.disks i).currentSector

def System.origin (s : System) : Dev → Position
  | (.printer, i) => .printer (s.printers i).coordinates
  | (.tape, _) => .tape 0
  | (.disk, _) => .disk 0 0 0

theorem position_same {s s' : System} (same : SameUnits s s') (dev : Dev) :
    s'.position dev = s.position dev := by
  obtain ⟨c, i⟩ := dev
  cases c with
  | printer => simp only [System.position, same.printers]
  | tape => simp only [System.position, same.tapes]
  | disk => simp only [System.position, same.disks]

theorem position_elsewhere {s s' : System} {dev other : Dev} (elsewhere : Elsewhere other s s')
    (apart : dev ≠ other) : s'.position dev = s.position dev := by
  obtain ⟨c, i⟩ := dev
  cases c with
  | printer => simp only [System.position, elsewhere.printers i apart]
  | tape => simp only [System.position, elsewhere.tapes i apart]
  | disk => simp only [System.position, elsewhere.disks i apart]

theorem position_rewind (s : System) (dev : Dev) : (s.rewind dev).position dev = s.origin dev := by
  obtain ⟨c, i⟩ := dev
  cases c with
  | printer => rfl
  | tape => simp [System.position, System.rewind, System.origin, System.moveTape, System.setTape]
  | disk => simp [System.position, System.rewind, System.origin, System.setDisk]

theorem origin_stays {s₀ s : System} {dev : Dev} (here : s.position dev = s₀.origin dev) :
    s.origin dev = s₀.origin dev := by
  obtain ⟨c, i⟩ := dev
  cases c with
  | printer => exact here
  | tape => rfl
  | disk => rfl

theorem mailbox_position (s : System) (dev other : Dev) (registers : BitVec 64) :
    (mailbox s other registers).position dev = s.position dev ∨
      (mailbox s other registers).position dev = s.origin dev := by
  by_cases apart : dev = other
  · subst apart
    rcases mailbox_placed s dev registers with same | ⟨_, rewound⟩
    · exact Or.inl (position_same same dev)
    · right
      rw [position_same rewound dev]
      exact position_rewind s dev
  · exact Or.inl (position_elsewhere (mailbox_elsewhere s other registers) apart)

theorem aside_printers (s : System) {a : Act} (other : ¬ a.Serving) :
    (step s a).printers = s.printers := by
  cases a with
  | request dev block r => exact absurd trivial other
  | expire next => exact absurd trivial other
  | rearm res next =>
    simp only [step, rearm]
    generalize (if res = 0 then _ else disableVirtualCounter s.virtualTimer) = armed
    split_ifs <;> rfl
  | irq core source =>
    simp only [step, cIrqHandler, irqTimer]
    split_ifs <;> rfl
  | timer core microseconds =>
    simp only [step, setTIMER]
    split_ifs <;> rfl
  | _ => rfl

/-- Only the completion of a command of its own moves a device from where a RESET put it. -/
theorem position_step {s₀ s : System} {dev : Dev} {a : Act} (here : s.position dev = s₀.origin dev)
    (waits : ¬ (Busy s dev ∧ Ends dev s a)) : (step s a).position dev = s₀.origin dev := by
  by_cases serving : a.Serving
  · cases a with
    | request other block r =>
      rcases mailbox_position { s with ram := storeReg s.ram block r } dev other block with
        same | rewound
      · exact same.trans here
      · exact rewound.trans (origin_stays here)
    | expire next =>
      rcases expire_cases s next with ⟨same, _⟩ | ⟨r, q, head, past, run⟩
      · rw [step, same]
        exact here
      · rw [step, run]
        unfold manageTimer
        cases own : owner r with
        | none => exact here
        | some other =>
          by_cases apart : dev = other
          · subst apart
            have idle : ¬ Busy { s with queue := q } dev := by
              intro busy
              exact waits ⟨busy, ⟨next, rfl⟩, r, _, head, past, own⟩
            dsimp only
            rw [manage_idle idle]
            exact here
          · have elsewhere := manage_elsewhere { s with queue := q } other
            exact (position_elsewhere elsewhere apart).trans here
    | _ => exact absurd serving id
  · have aside := step_aside s serving
    have units : SameUnits s (step s a) := ⟨aside.tapes, aside.disks, aside_printers s serving⟩
    exact (position_same units dev).trans here

theorem position_run {s₀ : System} {dev : Dev} (as : List Act) {s : System}
    (here : s.position dev = s₀.origin dev)
    (waits : Along step (fun s a => ¬ (Busy s dev ∧ Ends dev s a)) s as) :
    (run step s as).position dev = s₀.origin dev :=
  @run_along _ _ step (fun s => s.position dev = s₀.origin dev) _
    (fun _ _ here waits => position_step here waits) as s here waits

/-- The command in flight has one timer, and ends when the counter has gone past it. -/
structure CarriedOutAt (dev : Dev) (time : Nat) (s : System) : Prop where
  due : s.due dev = [⟨time, dev.1.timer, dev.2⟩]
  ends : ∀ next, ¬ Busy (step s (.expire next)) dev →
    time < getTOD s.clock ∧ Done dev s (.expire next) (step s (.expire next))

/-- What is left of a command whose timer is in the queue of `s`, once its device was reset and the
    system is in `s₁`. -/
structure Cancelled (dev : Dev) (s s₁ : System) : Prop where
  /-- No command moves the device before a later one completes. -/
  position : ∀ as, Along step (fun s a => ¬ (Busy s dev ∧ Ends dev s a)) s₁ as →
    (run step s₁ as).position dev = s.origin dev
  /-- The expiry of its timer takes it from the queue and does nothing else. -/
  expiry : ∀ as next, ¬ Busy (run step s₁ as) dev → Expires (run step s₁ as) dev →
    ∃ q, step (run step s₁ as) (.expire next) = { run step s₁ as with queue := q }
  /-- The next command has its own timer only, and is carried out when that expires. -/
  later : ∀ as block r, ¬ Busy (run step s₁ as) dev →
    ∀ bs, Along step (fun s _ => Busy s dev) (step (run step s₁ as) (.request dev block r)) bs →
      Busy (run step (step (run step s₁ as) (.request dev block r)) bs) dev →
        CarriedOutAt dev (u64 (getTOD (run step s₁ as).clock + delay (run step s₁ as) dev r.command))
          (run step (step (run step s₁ as) (.request dev block r)) bs)

theorem traced_busy {dev : Dev} (as : List Act) {p : System × (Dev → Option (Nat × Nat))}
    (flies : Along step (fun s _ => Busy s dev) p.1 as) : (run traced p as).2 dev = p.2 dev := by
  induction as generalizing p with
  | nil => rfl
  | cons a as ih =>
    have same := ih (p := traced p a) flies.2
    rw [run, same]
    have none : acceptance p.1 a dev = none := acceptance_none fun taken => taken.1 flies.1
    simp only [traced, none, Option.none_or]

theorem accepted_carried {s : System} (reachable : Reachable s) {dev : Dev} {block : BitVec 64}
    {r : DevReg} (idle : ¬ Busy s dev) (bs : List Act)
    (flies : Along step (fun s _ => Busy s dev) (step s (.request dev block r)) bs)
    (busy : Busy (run step (step s (.request dev block r)) bs) dev) :
    CarriedOutAt dev (u64 (getTOD s.clock + delay s dev r.command))
      (run step (step s (.request dev block r)) bs) := by
  have accepted : Busy (step s (.request dev block r)) dev := by
    cases bs with
    | nil => exact busy
    | cons a bs => exact flies.1
  have flight := reachable_inFlight (reachable_run reachable (.request dev block r :: bs)) busy
  obtain ⟨b, sdOk, start, before, init, rfl⟩ := reachable
  have whole : run step (step (run step start before) (.request dev block r)) bs =
      run step start (before ++ .request dev block r :: bs) := by
    rw [run_append]
    rfl
  have reached := traced_run before (start, fun _ => none)
  have taken : (run traced (start, fun _ => none) (before ++ .request dev block r :: bs)).2 dev =
      some (getTOD (run step start before).clock, delay (run step start before) dev r.command) := by
    rw [run_append]
    generalize run traced (start, fun _ => none) before = p at reached ⊢
    dsimp only at reached
    rw [← reached] at idle accepted flies ⊢
    have first : acceptance p.1 (.request dev block r) dev =
        some (getTOD p.1.clock, delay p.1 dev r.command) := if_pos ⟨rfl, idle, accepted⟩
    rw [run, traced_busy bs flies]
    show (acceptance p.1 _ dev).or (p.2 dev) = _
    rw [first]
    rfl
  have due : (run step (step (run step start before) (.request dev block r)) bs).due dev =
      [⟨u64 (getTOD (run step start before).clock + delay (run step start before) dev r.command),
        dev.1.timer, dev.2⟩] := by
    rw [whole, ← traced_run _ (start, fun _ => none)] at busy ⊢
    obtain ⟨time, wait, same, due⟩ := (armed_run init _ dev busy).due
    rw [taken] at same
    cases same
    exact due
  refine ⟨due, ?_⟩
  intro next idle
  have ends := expiry_own busy idle
  refine ⟨?_, expiry_completes flight ends⟩
  obtain ⟨_, first, rest, head, past, own⟩ := ends
  obtain ⟨type, code⟩ := (owner_iff first dev).mp own
  have member : first ∈ (run step (step (run step start before) (.request dev block r)) bs).due dev := by
    apply List.mem_filter.mpr
    rw [head]
    simp [type, code]
  rw [due] at member
  cases List.mem_singleton.mp member
  exact past

/-- A RESET ends the command in flight, which then never takes effect; so it does with one that
    an undefined command has dropped, whose timer is still there. -/
theorem reset_cancels {s : System} (reachable : Reachable s) {dev : Dev}
    (there : (s.regs dev).status ≠ deviceNotInstalled) {block : BitVec 64} (given : block ≠ 0) {r : DevReg}
    (isReset : commandOf dev.1 r.command = reset) :
    ¬ Busy (step s (.request dev block r)) dev ∧
      Cancelled dev s (step s (.request dev block r)) := by
  have reached : Reachable (step s (.request dev block r)) :=
    reachable_run reachable [.request dev block r]
  obtain ⟨units, ready⟩ : SameUnits ({ s with ram := storeReg s.ram block r }.rewind dev)
      (step s (.request dev block r)) ∧
        ((step s (.request dev block r)).regs dev).status = deviceReady := by
    apply @reset_rewinds { s with ram := storeReg s.ram block r } dev block given there
    rw [loadReg_storeReg]
    exact isReset
  have stopped : ¬ Busy (step s (.request dev block r)) dev := by
    unfold Busy
    rw [ready]
    decide
  have here : (step s (.request dev block r)).position dev = s.origin dev :=
    (position_same units dev).trans (position_rewind _ dev)
  generalize step s (.request dev block r) = s₁ at reached stopped units here ⊢
  refine ⟨stopped, ?_, ?_, ?_⟩
  · exact fun as waits => position_run as here waits
  · intro as next idle expires
    obtain ⟨q, run⟩ := expire_own expires next
    refine ⟨q, ?_⟩
    rw [step, run]
    exact @manage_idle { Runs.run step s₁ as with queue := q } dev idle
  · intro as block' r' idle bs flies later
    exact accepted_carried (reachable_run reached as) idle bs flies later

theorem reset_cancels_printA :
    ¬ Busy (step (run step bareSystem [printA]) (.request (.printer, 0) 0x10000 ⟨0, reset, 0, 0, 0⟩))
        (.printer, 0) ∧
      Cancelled (.printer, 0) (run step bareSystem [printA])
        (step (run step bareSystem [printA]) (.request (.printer, 0) 0x10000 ⟨0, reset, 0, 0, 0⟩)) :=
  reset_cancels printA_reachable (busy_installed printA_busy) (by decide) (by decide)

end Emulated
