import MaldOS.Emulated.Announced

/-!
Clients that wait for a tape or a disk: each polls the status in its own block,
and only the block of the accepted command is written again when the timer expires.
-/
namespace Emulated
open Arch ByteMemory Registers ArmTimers EmulatedTimers Runs

instance (c : DeviceClass) (command : BitVec 32) : Decidable (Delayed c command) := by
  cases c <;> (unfold Delayed; infer_instance)

def Told (dev : Dev) (registers : BitVec 64) (s : System) : Prop :=
  loadReg s.ram registers = s.regs dev

section
variable {dev : Dev} {registers : BitVec 64}

theorem told_answer (s : System) : Told dev registers (s.answer dev registers) :=
  loadReg_storeReg s.ram registers (s.regs dev)

theorem told_ite {c : Prop} [Decidable c] {s s' : System} (yes : c → Told dev registers s)
    (no : ¬ c → Told dev registers s') : Told dev registers (if c then s else s') := by
  split_ifs with h
  · exact yes h
  · exact no h

end

theorem told_startTape (s : System) (i : Fin maxDevices) (registers : BitVec 64)
    (command data0 : BitVec 32) :
    Told (.tape, i) registers (s.startTape i registers command data0) := by
  unfold System.startTape
  obtain ⟨virtualTimer, armed⟩ := setDeviceTimer_eq ((s.setPort (.tape, i) ⟨registers,
    { s.regs (.tape, i) with command := command, data0 := data0, status := deviceBusy }⟩).answer
      (.tape, i) registers) 1000 .tape i
  dsimp only
  rw [armed]
  exact told_answer (s.setPort (.tape, i) ⟨registers,
    { s.regs (.tape, i) with command := command, data0 := data0, status := deviceBusy }⟩)

theorem tapeMailbox_told (s : System) (i : Fin maxDevices) {registers : BitVec 64}
    (given : registers ≠ 0) : Told (.tape, i) registers (emulatedTapeMailbox s i registers) := by
  unfold emulatedTapeMailbox
  apply told_ite
  · exact fun null => absurd null given
  intro _
  apply told_ite
  · exact fun _ => told_answer _
  intro _
  apply told_ite
  · exact fun _ => told_answer _
  intro _
  apply told_ite
  · exact fun _ => told_answer _
  intro _
  apply told_ite
  · exact fun _ => told_answer _
  intro _
  apply told_ite
  · exact fun _ => told_ite (fun _ => told_startTape _ i registers _ _) fun _ => told_answer _
  intro _
  apply told_ite
  · exact fun _ => told_ite (fun _ => told_startTape _ i registers _ _) fun _ => told_answer _
  intro _
  apply told_ite
  · intro _
    apply told_ite
    · exact fun _ => told_ite (fun _ => told_answer _) fun _ => told_startTape _ i registers _ _
    · exact fun _ => told_answer _
  · exact fun _ => told_answer _

theorem diskMailbox_told (s : System) (i : Fin maxDevices) {registers : BitVec 64}
    (given : registers ≠ 0)
    (spoken : ¬ (getCommand (loadReg s.ram registers).command = ack ∧ Busy s (.disk, i))) :
    Told (.disk, i) registers (emulatedDiskMailbox s i registers) := by
  have regs : ((s.setRegs (.disk, i) fun r => { r with mailbox := 1 }).regs (.disk, i)).status =
      (s.regs (.disk, i)).status := by simp [System.regs]
  unfold emulatedDiskMailbox
  apply told_ite
  · exact fun null => absurd null given
  intro _
  apply told_ite
  · exact fun _ => told_answer _
  intro _
  apply told_ite
  · exact fun _ => told_answer _
  intro _
  apply told_ite
  · intro isAck
    apply told_ite
    · exact fun _ => told_answer _
    · rw [regs]
      exact fun busy => absurd ⟨isAck, not_not.mp busy⟩ spoken
  intro _
  apply told_ite
  · exact fun _ => told_answer _
  intro _
  apply told_ite
  · exact fun _ => told_answer _
  intro _
  apply told_ite
  · exact fun _ => told_answer _
  · exact fun _ => told_answer _

theorem mailbox_told {s : System} {dev : Dev} {registers : BitVec 64} (other : dev.1 ≠ .printer)
    (given : registers ≠ 0)
    (spoken : ¬ (dev.1 = .disk ∧ getCommand (loadReg s.ram registers).command = ack ∧ Busy s dev)) :
    Told dev registers (mailbox s dev registers) := by
  obtain ⟨c, i⟩ := dev
  cases c with
  | printer => exact absurd rfl other
  | tape => exact tapeMailbox_told s i given
  | disk => exact diskMailbox_told s i given fun silent => spoken ⟨rfl, silent⟩

/-- Of each block: whether its last message was a command that waits, and the status in the
    driver's last copy. -/
structure Ledger where
  asked : BitVec 64 → Bool
  told : BitVec 64 → Option (BitVec 32)

def noClients : Ledger := ⟨fun _ => false, fun _ => none⟩

def asks (dev : Dev) : Act → Option (BitVec 64 × Bool)
  | .request d block r =>
    if d = dev ∧ block ≠ 0 then some (block, decide (Delayed dev.1 (commandOf dev.1 r.command)))
    else none
  | _ => none

def copies (dev : Dev) (s : System) (a : Act) : Option (BitVec 64) :=
  match a with
  | .request d block r =>
    if d = dev ∧ block ≠ 0 ∧ ¬ (dev.1 = .disk ∧ getCommand r.command = ack ∧ Busy s dev) then
      some block
    else none
  | .expire _ => if Busy s dev ∧ ¬ Busy (step s a) dev then some (s.block dev) else none
  | _ => none

def recorded (dev : Dev) (p : System × Ledger) (a : Act) : System × Ledger :=
  (step p.1 a, {
    asked :=
      match asks dev a with
      | some (block, waits) => Function.update p.2.asked block waits
      | none => p.2.asked
    told :=
      match copies dev p.1 a with
      | some block =>
        Function.update p.2.told block (some (loadReg (step p.1 a).ram block).status)
      | none => p.2.told })

/-- The client of the block still polls a status that says busy. -/
def Waits (l : Ledger) (block : BitVec 64) : Prop :=
  l.asked block = true ∧ l.told block = some deviceBusy

/-- While the device is busy, others than the client of its command only acknowledge or read. -/
def Alone (dev : Dev) (s : System) (a : Act) : Prop :=
  ∀ block r, a = .request dev block r → block ≠ 0 → Busy s dev → block ≠ s.block dev →
    commandOf dev.1 r.command = ack ∨ commandOf dev.1 r.command = readRegisters

def Owned (dev : Dev) (p : System × Ledger) : Prop :=
  ∀ block, Waits p.2 block → Busy p.1 dev ∧ p.1.block dev = block

theorem ack_defined {c : DeviceClass} {command : BitVec 32} (isAck : commandOf c command = ack) :
    Defined c command ∧ commandOf c command ≠ reset ∧ ¬ Delayed c (commandOf c command) := by
  refine ⟨Or.inr (Or.inl isAck), ?_, ?_⟩
  · rw [isAck]
    decide
  · rw [isAck]
    cases c <;> decide

theorem read_defined {c : DeviceClass} {command : BitVec 32}
    (isRead : commandOf c command = readRegisters) :
    Defined c command ∧ commandOf c command ≠ reset ∧ ¬ Delayed c (commandOf c command) := by
  refine ⟨Or.inr (Or.inr (Or.inl isRead)), ?_, ?_⟩
  · rw [isRead]
    decide
  · rw [isRead]
    cases c <;> decide

theorem waits_elsewhere {dev : Dev} {p : System × Ledger} {a : Act} {block : BitVec 64}
    (silent : ∀ w, asks dev a ≠ some (block, w)) (kept : copies dev p.1 a ≠ some block)
    (waits : Waits (recorded dev p a).2 block) : Waits p.2 block := by
  obtain ⟨asked, told⟩ := waits
  unfold recorded at asked told
  constructor
  · cases given : asks dev a with
    | none =>
      rw [given] at asked
      exact asked
    | some entry =>
      have apart : block ≠ entry.1 := by
        intro same
        apply silent entry.2
        rw [given, same]
      rw [given] at asked
      dsimp only at asked
      rw [Function.update_of_ne apart] at asked
      exact asked
  · cases given : copies dev p.1 a with
    | none =>
      rw [given] at told
      exact told
    | some target =>
      have apart : block ≠ target := by
        intro same
        apply kept
        rw [given, same]
      rw [given] at told
      dsimp only at told
      rw [Function.update_of_ne apart] at told
      exact told

theorem asks_request {dev : Dev} {block : BitVec 64} (given : block ≠ 0) (r : DevReg) :
    asks dev (.request dev block r) =
      some (block, decide (Delayed dev.1 (commandOf dev.1 r.command))) :=
  if_pos ⟨rfl, given⟩

theorem waits_asked {dev : Dev} {p : System × Ledger} {block : BitVec 64} (given : block ≠ 0)
    {r : DevReg} (waits : Waits (recorded dev p (.request dev block r)).2 block) :
    Delayed dev.1 (commandOf dev.1 r.command) := by
  obtain ⟨asked, _⟩ := waits
  unfold recorded at asked
  rw [asks_request given] at asked
  dsimp only at asked
  rw [Function.update_self] at asked
  exact of_decide_eq_true asked

theorem waits_copied {dev : Dev} {p : System × Ledger} {a : Act} {block : BitVec 64}
    (copied : copies dev p.1 a = some block) (told : Told dev block (step p.1 a))
    (waits : Waits (recorded dev p a).2 block) : Busy (step p.1 a) dev := by
  obtain ⟨_, last⟩ := waits
  unfold recorded at last
  rw [copied] at last
  dsimp only at last
  rw [Function.update_self, told] at last
  exact Option.some.inj last

theorem request_told {dev : Dev} {s : System} (other : dev.1 ≠ .printer) {block : BitVec 64}
    (given : block ≠ 0) {r : DevReg}
    (spoken : ¬ (dev.1 = .disk ∧ getCommand r.command = ack ∧ Busy s dev)) :
    copies dev s (.request dev block r) = some block ∧
      Told dev block (step s (.request dev block r)) := by
  constructor
  · exact if_pos ⟨rfl, given, spoken⟩
  · apply @mailbox_told { s with ram := storeReg s.ram block r } dev block other given
    rw [loadReg_storeReg]
    exact spoken

theorem copies_request {dev : Dev} {s : System} {block b : BitVec 64} {r : DevReg}
    (copied : copies dev s (.request dev block r) = some b) : b = block := by
  simp only [copies] at copied
  split_ifs at copied
  exact (Option.some.inj copied).symm

theorem owned_kept {dev : Dev} {p : System × Ledger} {a : Act} (owned : Owned dev p)
    (same : Busy p.1 dev → Unchanged dev p.1 (step p.1 a)) {block : BitVec 64}
    (waits : Waits p.2 block) : Busy (step p.1 a) dev ∧ (step p.1 a).block dev = block := by
  obtain ⟨busy, target⟩ := owned block waits
  have unchanged := same busy
  exact ⟨(unchanged_busy unchanged).mpr busy, unchanged.block.trans target⟩

/-- What the client of another block may send leaves the command in flight as it is. -/
theorem gentle_unchanged {dev : Dev} {s : System} {block : BitVec 64} {r : DevReg}
    (busy : Busy s dev) (given : block ≠ 0)
    (gentle : commandOf dev.1 r.command = ack ∨ commandOf dev.1 r.command = readRegisters) :
    Unchanged dev s (step s (.request dev block r)) ∧
      ¬ Delayed dev.1 (commandOf dev.1 r.command) := by
  obtain ⟨defined, noReset, undelayed⟩ := gentle.elim ack_defined read_defined
  rcases request_busy busy given r with ⟨same, _⟩ | ⟨_, isReset | undefined⟩
  · exact ⟨same, undelayed⟩
  · exact absurd isReset noReset
  · exact absurd defined undefined

theorem owned_request {dev : Dev} {p : System × Ledger} (other : dev.1 ≠ .printer)
    (reachable : Reachable p.1) (owned : Owned dev p) {block : BitVec 64} {r : DevReg}
    (given : block ≠ 0) (alone : Alone dev p.1 (.request dev block r)) :
    Owned dev (recorded dev p (.request dev block r)) := by
  intro b waits
  by_cases here : b = block
  · subst here
    have delayed := waits_asked given waits
    have spoken : ¬ (dev.1 = .disk ∧ getCommand r.command = ack ∧ Busy p.1 dev) := by
      rintro ⟨isDisk, isAck, _⟩
      obtain ⟨c, i⟩ := dev
      cases isDisk
      exact (ack_defined (c := .disk) isAck).2.2 delayed
    obtain ⟨copied, told⟩ := request_told other given spoken
    have after := waits_copied copied told waits
    refine ⟨after, ?_⟩
    by_cases busy : Busy p.1 dev
    · have same := busy_unchanged (reachable_inFlight reachable busy) after
      by_contra apart
      have stranger : b ≠ p.1.block dev := fun same' => apart (same.block.trans same'.symm)
      exact (gentle_unchanged busy given (alone b r rfl given busy stranger)).2 delayed
    · exact request_accepted busy after
  · have before : Waits p.2 b := by
      apply waits_elsewhere _ _ waits
      · intro w
        rw [asks_request given]
        intro same
        cases same
        exact here rfl
      · exact fun copied => here (copies_request copied)
    obtain ⟨busy, target⟩ := owned b before
    have stranger : block ≠ p.1.block dev := by
      rw [target]
      exact fun same => here same.symm
    have same := (gentle_unchanged busy given (alone block r rfl given busy stranger)).1
    exact owned_kept owned (fun _ => same) before

theorem owned_expire {dev : Dev} {p : System × Ledger} (reachable : Reachable p.1)
    (owned : Owned dev p) (next : Timer) : Owned dev (recorded dev p (.expire next)) := by
  intro b waits
  by_cases ends : Busy p.1 dev ∧ ¬ Busy (step p.1 (.expire next)) dev
  · have copied : copies dev p.1 (.expire next) = some (p.1.block dev) := if_pos ends
    have told : Told dev (p.1.block dev) (step p.1 (.expire next)) := by
      obtain ⟨r, q, _, completed⟩ := expiry_completes (reachable_inFlight reachable ends.1)
        (expiry_own ends.1 ends.2)
      exact completed.copied
    by_cases here : b = p.1.block dev
    · subst here
      exact absurd (waits_copied copied told waits) ends.2
    · have before : Waits p.2 b := by
        apply waits_elsewhere _ _ waits
        · exact fun w => by simp [asks]
        · rw [copied]
          exact fun same => here (Option.some.inj same).symm
      exact absurd (owned b before).2.symm here
  · have kept : copies dev p.1 (.expire next) = none := if_neg ends
    have before : Waits p.2 b := by
      apply waits_elsewhere _ _ waits
      · exact fun w => by simp [asks]
      · rw [kept]
        simp
    apply owned_kept owned _ before
    intro busy
    have still : Busy (step p.1 (.expire next)) dev := by
      by_contra ended
      exact ends ⟨busy, ended⟩
    exact busy_unchanged (reachable_inFlight reachable busy) still

theorem owned_other {dev : Dev} {p : System × Ledger} {a : Act} (owned : Owned dev p)
    (silent : asks dev a = none) (kept : copies dev p.1 a = none) (apart : ¬ Concerns p.1 a dev) :
    Owned dev (recorded dev p a) := by
  intro b waits
  have before : Waits p.2 b := by
    apply waits_elsewhere _ _ waits
    · simp [silent]
    · simp [kept]
  exact owned_kept owned (fun _ => untouched_unchanged (step_untouched apart)) before

theorem owned_step {dev : Dev} {p : System × Ledger} (other : dev.1 ≠ .printer)
    (reachable : Reachable p.1) (owned : Owned dev p) {a : Act} (alone : Alone dev p.1 a) :
    Owned dev (recorded dev p a) := by
  cases a with
  | request d block r =>
    by_cases mine : d = dev ∧ block ≠ 0
    · obtain ⟨rfl, given⟩ := mine
      exact owned_request other reachable owned given alone
    · apply owned_other owned
      · exact if_neg mine
      · exact if_neg fun sent => mine ⟨sent.1, sent.2.1⟩
      · rintro (⟨b, r', same, given⟩ | ⟨⟨next, wrong⟩, _⟩)
        · cases same
          exact mine ⟨rfl, given⟩
        · cases wrong
  | expire next => exact owned_expire reachable owned next
  | _ => exact owned_other owned rfl rfl (by simp [Concerns])

/-- As long as a busy device gets nothing but acknowledgements and reads from others than the
    client of its command, no client is left waiting once it is not busy. -/
theorem nobody_waits {b : Boot} {sdOk : Bool} {start : System} (init : initSystem b sdOk = some start)
    {dev : Dev} (other : dev.1 ≠ .printer) (as : List Act)
    (alone : Along (recorded dev) (fun p a => Alone dev p.1 a) (start, noClients) as)
    (idle : ¬ Busy (run (recorded dev) (start, noClients) as).1 dev) (block : BitVec 64) :
    ¬ Waits (run (recorded dev) (start, noClients) as).2 block := by
  have kept : Reachable (run (recorded dev) (start, noClients) as).1 ∧
      Owned dev (run (recorded dev) (start, noClients) as) := by
    apply @run_along _ _ _ (fun p => Reachable p.1 ∧ Owned dev p) _ _ as _ _ alone
    · rintro p a ⟨reachable, owned⟩ alone
      exact ⟨reachable_run reachable [a], owned_step other reachable owned alone⟩
    · refine ⟨⟨b, sdOk, start, [], init, rfl⟩, ?_⟩
      rintro block ⟨asked, _⟩
      cases asked
  exact fun waits => idle (kept.2 block waits).1

theorem recorded_run (dev : Dev) (as : List Act) (p : System × Ledger) :
    (run (recorded dev) p as).1 = run step p.1 as := run_fst (fun _ _ => rfl) as p

def seekFrom (block : BitVec 64) : Act := .request (.disk, 0) block ⟨0, seekcyl, 0, 0, 0⟩

def seekAlone : List Act :=
  [seekFrom 0x10000, .tick 10000, .expire noTimer,
    .request (.disk, 0) 0x10000 ⟨0, ack, 0, 0, 0⟩]

theorem nobody_waits_seek :
    ¬ Waits (run (recorded (.disk, 0)) (diskSystem, noClients) seekAlone).2 0x10000 := by
  apply nobody_waits disk_init
  · decide
  · refine ⟨?_, ?_, ?_, ?_, trivial⟩
    · intro b r _ _ busy
      exact absurd busy (by decide +kernel)
    · simp [Alone]
    · simp [Alone]
    · intro b r sent
      cases sent
      exact fun _ _ _ => Or.inl rfl
  · rw [recorded_run]
    decide +kernel

/-- Another client's command is refused with a status that nothing ever corrects; and a reset by
    another client leaves the client of the command in flight with one. -/
theorem clients_left_waiting :
    initSystem diskBoot true = some diskSystem ∧
      (¬ Busy (run (recorded (.disk, 0)) (diskSystem, noClients)
          [seekFrom 0x10000, seekFrom 0x10020, .tick 10000, .expire noTimer]).1 (.disk, 0) ∧
        Waits (run (recorded (.disk, 0)) (diskSystem, noClients)
          [seekFrom 0x10000, seekFrom 0x10020, .tick 10000, .expire noTimer]).2 0x10020) ∧
      (¬ Busy (run (recorded (.disk, 0)) (diskSystem, noClients)
          [seekFrom 0x10000, .request (.disk, 0) 0x10020 ⟨0, reset, 0, 0, 0⟩]).1 (.disk, 0) ∧
        Waits (run (recorded (.disk, 0)) (diskSystem, noClients)
          [seekFrom 0x10000, .request (.disk, 0) 0x10020 ⟨0, reset, 0, 0, 0⟩]).2 0x10000) := by
  refine ⟨disk_init, ⟨?_, ?_⟩, ?_, ?_⟩
  · decide +kernel
  · constructor <;> decide +kernel
  · decide +kernel
  · constructor <;> decide +kernel

end Emulated
