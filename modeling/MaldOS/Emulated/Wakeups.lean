import MaldOS.Emulated.Invocations

/-!
Whether an unmasked line makes core 0 take an interrupt: the line is a level, and
the physical timer that stands for it has to be armed again by every handler.
-/
namespace Emulated
open Arch ByteMemory Registers ArmTimers EmulatedTimers Runs

/-- As long as an unmasked line is up, the timer of core 0 is enabled and has run out. -/
def Awake (s : System) : Prop :=
  pendingEmulatedInterrupt s = true → InTime s.clock (s.physicalTimers 0) 0

/-- The call is made on core 0, and the mask stays as it is. -/
def OnCore0 : Invocation → Prop
  | .irq core _ => core = 0
  | .timer core _ => core = 0
  | .setMask _ => False
  | _ => True

/-- A FIQ for a message only, which resets a tape or a disk whose line is not masked. -/
def Rouses (s : System) : Invocation → Prop
  | .fiq source data _ =>
    source &&& 0x10 ≠ 0 ∧ source &&& 0x08 = 0 ∧ messageAddress data ≠ 0 ∧
      ∃ c, messageClass data = some c ∧
        Rewinds s (c, messageNum data) (loadReg s.ram (messageAddress data)).command ∧
        s.mask &&& bit c.line = 0
  | _ => False

/-- Such a FIQ comes only while the timer has run out anyway. -/
def Rearmed (s : System) (e : Invocation) : Prop :=
  Rouses s e → InTime s.clock (s.physicalTimers 0) 0

theorem setPhysical_awake (s : System) : Awake (s.setPhysical 0 0) := by
  intro _
  simp only [System.setPhysical, Function.update_self]
  exact setTimer_inTime (zero_taken s.clock) _

theorem rearmed_awake (s : System) :
    Awake (if pendingEmulatedInterrupt s = true then s.setPhysical 0 0 else s) := by
  split_ifs with pending
  · exact setPhysical_awake s
  · exact fun wrong => absurd wrong pending

theorem clean_awake {s : System} (awake : Awake s) : Awake (cleanInterruptLines s) :=
  fun pending => awake (pending_clean pending)

theorem rearm_awake (s : System) (currentTime : Nat) (res : Int) (next : Timer) :
    Awake (rearm s currentTime res next) := rearmed_awake _

theorem irq_awake (s : System) (source : BitVec 32) : Awake (cIrqHandler s 0 source) := by
  unfold cIrqHandler
  exact clean_awake (rearmed_awake _)

theorem timer_awake (s : System) (microseconds : Nat) : Awake (setTIMER s 0 microseconds) := by
  unfold setTIMER
  dsimp only
  split_ifs with quiet
  · intro pending
    rw [← Bool.not_eq_true] at quiet
    exact absurd pending quiet.2
  · exact setPhysical_awake _

theorem pause_awake {s : System} (awake : Awake s) (ram : Memory 64) (elapsed : Nat) :
    Awake (handle s (.pause ram elapsed)) := by
  intro pending
  obtain ⟨enabled, early⟩ := (inTime_now_iff _ _).mp (awake pending)
  apply (inTime_now_iff _ _).mpr
  exact ⟨enabled, Nat.le_add_right_of_le early⟩

theorem fiqTimer_awake (s : System) : Awake (fiqTimer s) := by
  obtain ⟨res, next, t, _, rearmed⟩ := fiqTimer_drains s
  rw [rearmed]
  exact rearm_awake t _ res next

theorem mailbox_clock (s : System) (dev : Dev) (registers : BitVec 64) :
    (mailbox s dev registers).clock = s.clock := by
  by_cases given : registers = 0
  · rw [given, mailbox_null]
  · cases mailbox_verdict s dev given with
    | silent quiet => exact quiet.clock
    | kept quiet => exact quiet.clock
    | settled quiet => exact quiet.clock
    | started serves => exact serves.clock

theorem rewinds_raises {s : System} {dev : Dev} {registers : BitVec 64} (given : registers ≠ 0)
    (rewinds : Rewinds s dev (loadReg s.ram registers).command) :
    (mailbox s dev registers).lines = (s.raiseLine dev.1.line dev.2).lines := by
  obtain ⟨other, isReset, there⟩ := rewinds
  obtain ⟨c, i⟩ := dev
  cases c with
  | printer => exact absurd rfl other
  | tape =>
    obtain ⟨t, _, _, lines, run⟩ := tape_reset given there isReset
    have head := (updateTapeHead_lines t i).lines
    rw [mailbox, run]
    unfold System.raiseLine
    rw [← lines, ← head]
    rfl
  | disk => exact (disk_reset given there isReset).2.2

theorem lineUp_pending {s : System} {dev : Dev} (up : LineUp s dev)
    (unmasked : s.mask &&& bit dev.1.line = 0) : pendingEmulatedInterrupt s = true := by
  apply (pending_iff s).mpr
  refine ⟨dev.1.line, ?_, unmasked⟩
  intro none
  unfold LineUp at up
  rw [none] at up
  simp at up

/-- A message alone leaves core 0 awake unless it raises a line that is not masked. -/
theorem message_awake {s : System} (awake : Awake s) {dev : Dev} {registers : BitVec 64}
    (rearmed : registers ≠ 0 → Rewinds s dev (loadReg s.ram registers).command →
      s.mask &&& bit dev.1.line = 0 → InTime s.clock (s.physicalTimers 0) 0) :
    Awake (mailbox s dev registers) := by
  have own := mailbox_own s dev registers
  intro pending
  rw [mailbox_clock, own.physicalTimers]
  by_cases before : pendingEmulatedInterrupt s = true
  · exact awake before
  · obtain ⟨line, up, unmasked⟩ := (pending_iff _).mp pending
    rw [own.mask] at unmasked
    have down : s.lines line = 0 := by
      by_contra up
      exact before ((pending_iff s).mpr ⟨line, up, unmasked⟩)
    rcases own.lines with same | ⟨rewinds, raised⟩ | ⟨_, cleared⟩
    · rw [same] at up
      exact absurd down up
    · have given : registers ≠ 0 := by
        rintro rfl
        rw [mailbox_null] at up
        exact up down
      have here : line = dev.1.line := by
        by_contra apart
        rw [raised] at up
        simp only [System.raiseLine, Function.update_of_ne apart] at up
        exact up down
      subst here
      exact rearmed given rewinds unmasked
    · exfalso
      apply up
      rw [cleared]
      unfold System.clearLine
      by_cases here : line = dev.1.line
      · subst here
        simp [down]
      · simp [here, down]

theorem rousing_asleep {s : System} (reachable : Reachable s) {dev : Dev} {registers : BitVec 64}
    (given : registers ≠ 0) (rewinds : Rewinds s dev (loadReg s.ram registers).command)
    (unmasked : s.mask &&& bit dev.1.line = 0)
    (awake : Awake (cleanInterruptLines (mailbox s dev registers))) :
    InTime s.clock (s.physicalTimers 0) 0 := by
  have own := mailbox_own s dev registers
  have installed : Installed (mailbox s dev registers) dev := by
    unfold Installed
    rw [own.installed]
    exact reachable_backed reachable dev rewinds.2.2
  have up : LineUp (mailbox s dev registers) dev := by
    unfold LineUp
    rw [rewinds_raises given rewinds]
    exact lineUp_raised s dev
  have unmasked' : (cleanInterruptLines (mailbox s dev registers)).mask &&& bit dev.1.line = 0 := by
    show (mailbox s dev registers).mask &&& bit dev.1.line = 0
    rw [own.mask]
    exact unmasked
  have ended := awake (lineUp_pending (lineUp_clean up installed) unmasked')
  have clock : (cleanInterruptLines (mailbox s dev registers)).clock = s.clock :=
    mailbox_clock s dev registers
  have timers : (cleanInterruptLines (mailbox s dev registers)).physicalTimers = s.physicalTimers :=
    own.physicalTimers
  rw [clock, timers] at ended
  exact ended

theorem fiq_awake_iff {s : System} (reachable : Reachable s) (awake : Awake s)
    (source data : BitVec 32) (elapsed : Nat) :
    Awake (handle s (.fiq source data elapsed)) ↔ Rearmed s (.fiq source data elapsed) := by
  unfold handle cFiqHandler
  dsimp only
  by_cases isTimer : source &&& 0x08 ≠ 0
  · rw [if_pos isTimer]
    constructor
    · exact fun _ rouses => absurd rouses.2.1 isTimer
    · exact fun _ => clean_awake (fiqTimer_awake _)
  rw [if_neg isTimer]
  by_cases isMessage : source &&& 0x10 ≠ 0
  · rw [if_pos isMessage]
    unfold fiqMailbox
    cases sent : messageClass data with
    | none =>
      constructor
      · rintro _ ⟨_, _, _, c, same, _⟩
        rw [sent] at same
        cases same
      · exact fun _ => clean_awake awake
    | some c =>
      constructor
      · rintro after ⟨_, _, given, c', same, rewinds, unmasked⟩
        rw [sent] at same
        cases same
        exact rousing_asleep reachable given rewinds unmasked after
      · intro rearmed
        apply clean_awake
        apply message_awake awake
        intro given rewinds unmasked
        exact rearmed ⟨isMessage, not_not.mp isTimer, given, c, sent, rewinds, unmasked⟩
  · rw [if_neg isMessage]
    constructor
    · exact fun _ rouses => absurd rouses.1 isMessage
    · exact fun _ => clean_awake awake

theorem handle_awake_iff {s : System} (reachable : Reachable s) (awake : Awake s) {e : Invocation}
    (here : OnCore0 e) : Awake (handle s e) ↔ Rearmed s e := by
  cases e with
  | fiq source data elapsed => exact fiq_awake_iff reachable awake source data elapsed
  | irq core source =>
    cases here
    exact ⟨fun _ => False.elim, fun _ => irq_awake s source⟩
  | timer core microseconds =>
    cases here
    exact ⟨fun _ => False.elim, fun _ => timer_awake s microseconds⟩
  | pause ram elapsed => exact ⟨fun _ => False.elim, fun _ => pause_awake awake ram elapsed⟩
  | setMask mask => exact absurd here id

/-- In a run of handlers on core 0 with one mask, the timer stands for the pending lines after
    every call exactly if no RESET in a FIQ without the timer raises an unmasked line. -/
theorem awake_iff {b : Boot} {sdOk : Bool} {start : System} (init : initSystem b sdOk = some start)
    (mask : Byte) (es : List Invocation) (here : ∀ e ∈ es, OnCore0 e) :
    Along handle (fun s e => Awake (handle s e)) { start with mask := mask } es ↔
      Along handle Rearmed { start with mask := mask } es := by
  apply @along_iff _ _ handle (fun s => Reachable s ∧ Awake s) _ _ OnCore0
  · exact fun s e kept here => handle_awake_iff kept.1 kept.2 here
  · exact fun s e kept _ after => ⟨handle_reachable kept.1 e, after⟩
  · constructor
    · exact ⟨b, sdOk, start, [.write start.ram mask], init, rfl⟩
    · intro pending
      obtain ⟨line, up, _⟩ := (pending_iff _).mp pending
      exact absurd (congrFun (init_still init).1 line) up
  · exact here

def resetDisk : List Invocation :=
  [.pause (storeReg (fun _ => 0) 0x10000 ⟨0, reset, 0, 0, 0⟩) 0, .fiq 0x10 0x10008 0]

theorem resetDisk_here : ∀ e ∈ resetDisk, OnCore0 e := by simp [resetDisk, OnCore0]

theorem awake_iff_resetDisk :
    Along handle (fun s e => Awake (handle s e)) { diskSystem with mask := 0xF8 } resetDisk ↔
      Along handle Rearmed { diskSystem with mask := 0xF8 } resetDisk :=
  awake_iff disk_init 0xF8 resetDisk resetDisk_here

/-- The line of the disk is up and not masked, and the timer of core 0 stays disabled. -/
theorem reset_sleeps :
    initSystem diskBoot true = some diskSystem ∧ (∀ e ∈ resetDisk, OnCore0 e) ∧
      ¬ Along handle (fun s e => Awake (handle s e)) { diskSystem with mask := 0xF8 } resetDisk := by
  refine ⟨disk_init, resetDisk_here, ?_⟩
  rintro ⟨_, awake, _⟩
  obtain ⟨enabled, _⟩ := awake (by decide +kernel)
  exact absurd enabled (by decide +kernel)

end Emulated
