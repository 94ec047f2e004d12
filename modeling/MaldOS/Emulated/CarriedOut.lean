import MaldOS.Emulated.InFlight

/-!
What becomes of an accepted command: it stays as it is until its timer expires,
and is then carried out, unless a message resets it or has an undefined command.
-/
namespace Emulated
open Arch ByteMemory Registers ArmTimers EmulatedTimers Runs

/-- The action takes the device's timer from the queue. -/
def Ends (dev : Dev) (s : System) (a : Act) : Prop := (∃ next, a = .expire next) ∧ Expires s dev

def Kept (dev : Dev) (s : System) (_ : Act) (s' : System) : Prop := Unchanged dev s s'

def Done (dev : Dev) (s : System) (_ : Act) (s' : System) : Prop :=
  ∃ r q, s.queue.entries = r :: q.entries ∧ Completed dev { s with queue := q } s'

def Resets (dev : Dev) (a : Act) : Prop :=
  ∃ block r, a = .request dev block r ∧ commandOf dev.1 r.command = reset

def Misleads (dev : Dev) (a : Act) : Prop :=
  ∃ block r, a = .request dev block r ∧ block ≠ 0 ∧ ¬ Defined dev.1 r.command

/-- What holds of a busy device in every reachable state. -/
structure InFlight (dev : Dev) (s : System) : Prop where
  busy : Busy s dev
  delayed : Delayed dev.1 (s.regs dev).command

theorem reachable_inFlight {s : System} (reachable : Reachable s) {dev : Dev} (busy : Busy s dev) :
    InFlight dev s := by
  obtain ⟨b, sdOk, start, as, init, rfl⟩ := reachable
  have same := traced_run as (start, fun _ => none)
  rw [← same] at busy ⊢
  exact ⟨busy, (armed_run init as dev busy).delayed⟩

theorem inFlight_unchanged {dev : Dev} {s s' : System} (flight : InFlight dev s)
    (same : Unchanged dev s s') : InFlight dev s' := by
  constructor
  · exact (unchanged_busy same).mpr flight.busy
  · rw [same.command]
    exact flight.delayed

theorem untouched_unchanged {dev : Dev} {s s' : System} (untouched : Untouched dev s s') :
    Unchanged dev s s' := by
  constructor <;> simp only [System.regs, System.block, untouched.port]

theorem expiry_completes {dev : Dev} {s : System} (flight : InFlight dev s) {a : Act}
    (ends : Ends dev s a) : Done dev s a (step s a) := by
  obtain ⟨⟨next, rfl⟩, r, rest, head, past, own⟩ := ends
  rcases expire_cases s next with ⟨_, none⟩ | ⟨r', q, head', _, run⟩
  · exact absurd ⟨r, rest, head, past, own⟩ (none dev)
  · rw [head] at head'
    cases head'
    refine ⟨r, q, head, ?_⟩
    rw [step, run, manageTimer_owner own]
    exact @manage_completes { s with queue := q } dev flight.busy flight.delayed

/-- The verdict on a message sent to a busy device, in terms of the state before it was filled in. -/
theorem request_busy {dev : Dev} {s : System} (busy : Busy s dev) {block : BitVec 64}
    (given : block ≠ 0) (r : DevReg) :
    (Unchanged dev s (step s (.request dev block r)) ∧ Defined dev.1 r.command) ∨
      (¬ Busy (step s (.request dev block r)) dev ∧
        (commandOf dev.1 r.command = reset ∨ ¬ Defined dev.1 r.command)) := by
  obtain ⟨s₁, filled⟩ : ∃ s₁, s₁ = { s with ram := storeReg s.ram block r } := ⟨_, rfl⟩
  have port : s₁.ports = s.ports := by rw [filled]
  have busy₁ : Busy s₁ dev := by
    unfold Busy System.regs
    rw [port]
    exact busy
  have verdict := mailbox_verdict s₁ dev given
  have message : loadReg s₁.ram block = r := by
    rw [filled]
    exact loadReg_storeReg s.ram block r
  have run : step s (.request dev block r) = mailbox s₁ dev block := by rw [filled]; rfl
  have moved : Unchanged dev s₁ (mailbox s₁ dev block) →
      Unchanged dev s (step s (.request dev block r)) := by
    intro same
    rw [run]
    refine ⟨same.status.trans ?_, same.command.trans ?_, same.data0.trans ?_, same.block.trans ?_⟩
    all_goals simp only [System.regs, System.block, port]
  rw [message] at verdict
  cases verdict with
  | silent quiet same ram cause =>
    refine Or.inl ⟨moved same, ?_⟩
    rcases cause with ⟨isDisk, isAck, _⟩ | ⟨_, absent⟩
    · refine Or.inr (Or.inl ?_)
      rw [isDisk]
      exact isAck
    · exact absurd absent (busy_installed busy₁)
  | kept quiet same known =>
    exact Or.inl ⟨moved same, known.resolve_right (busy_installed busy₁)⟩
  | settled quiet idle installed cause =>
    rw [run]
    refine Or.inr ⟨idle, ?_⟩
    rcases cause busy₁ with isReset | ⟨undefined, _⟩
    · exact Or.inl isReset
    · exact Or.inr undefined
  | started serves idle => exact absurd busy₁ idle

/-- An accepted command lasts until its timer expires, and is then executed and reported,
    exactly when no message with an undefined command comes before. -/
theorem accepted_until_iff {s : System} (reachable : Reachable s) {dev : Dev} (busy : Busy s dev)
    (as : List Act) (noReset : ∀ a ∈ as, ¬ Resets dev a) :
    Until step (Ends dev) (Kept dev) (Done dev) s as ↔
      Spared step (Ends dev) (Misleads dev) s as := by
  apply @until_iff_spared _ _ _ _ _ _ _ (fun a => ¬ Resets dev a) (InFlight dev)
  · intro s a flight _ ends
    exact expiry_completes flight ends
  · intro s a flight gentle goes clear
    have same : Unchanged dev s (step s a) := by
      by_cases concerns : Concerns s a dev
      · rcases concerns with ⟨block, r, rfl, given⟩ | ends
        · rcases request_busy flight.busy given r with ⟨same, _⟩ | ⟨_, isReset | undefined⟩
          · exact same
          · exact absurd ⟨block, r, rfl, isReset⟩ gentle
          · exact absurd ⟨block, r, rfl, given, undefined⟩ clear
        · exact absurd ends goes
      · exact untouched_unchanged (step_untouched concerns)
    exact ⟨same, inFlight_unchanged flight same⟩
  · rintro s a flight _ _ ⟨block, r, rfl, given, undefined⟩ same
    rcases request_busy flight.busy given r with ⟨_, defined⟩ | ⟨idle, _⟩
    · exact undefined defined
    · exact idle ((unchanged_busy same).mpr flight.busy)
  · exact reachable_inFlight reachable busy
  · exact noReset

theorem printA_reachable : Reachable (run step bareSystem [printA]) :=
  ⟨bareBoot, false, bareSystem, [printA], bare_init, rfl⟩

theorem accepted_until_printA :
    Until step (Ends (.printer, 0)) (Kept (.printer, 0)) (Done (.printer, 0))
        (run step bareSystem [printA]) [.tick 400, .expire noTimer] ↔
      Spared step (Ends (.printer, 0)) (Misleads (.printer, 0)) (run step bareSystem [printA])
        [.tick 400, .expire noTimer] := by
  refine accepted_until_iff printA_reachable printA_busy _ ?_
  simp [Resets]

def misled : Act := .request (.printer, 0) 0x10020 ⟨0, 7, 0, 0, 0⟩

/-- The status of the busy printer is overwritten, and its character is never printed. -/
theorem misled_drops_command :
    Reachable (run step bareSystem [printA]) ∧ Busy (run step bareSystem [printA]) (.printer, 0) ∧
      ¬ Resets (.printer, 0) misled ∧
      ¬ Until step (Ends (.printer, 0)) (Kept (.printer, 0)) (Done (.printer, 0))
        (run step bareSystem [printA]) [misled] ∧
      (run step bareSystem [printA, misled, .tick 400, .expire noTimer]).screen = [] := by
  refine ⟨printA_reachable, printA_busy, ?_, ?_, by decide +kernel⟩
  · rintro ⟨block, r, sent, isReset⟩
    cases sent
    exact absurd isReset (by decide)
  · intro lasts
    have goes : ¬ Ends (.printer, 0) (run step bareSystem [printA]) misled := by
      rintro ⟨⟨next, wrong⟩, _⟩
      cases wrong
    have kept := (lasts.2 goes).1.status
    exact absurd kept (by decide +kernel)

end Emulated
