import MaldOS.Emulated.Disks
import MaldOS.Emulated.Printers
import MaldOS.Emulated.Tapes

/-!
The three device classes as one: what a message to a device and the expiry of
its timer do to its registers, and what they leave alone.
-/
namespace Emulated
open Arch ByteMemory Registers ArmTimers EmulatedTimers

def mailbox (s : System) : Dev → BitVec 64 → System
  | (.printer, i), registers => emulatedPrinterMailbox s i registers
  | (.tape, i), registers => emulatedTapeMailbox s i registers
  | (.disk, i), registers => emulatedDiskMailbox s i registers

def manage (s : System) : Dev → System
  | (.printer, i) => manageEmulatedPrinter s i
  | (.tape, i) => manageEmulatedTape s i
  | (.disk, i) => manageEmulatedDisk s i

/-- What serving `dev` leaves alone. -/
structure Serves (dev : Dev) (s s' : System) : Prop where
  ports : ∀ other, other ≠ dev → s'.ports other = s.ports other
  tapes : ∀ i, (s'.tapes i).fat32Cluster = (s.tapes i).fat32Cluster
  disks : ∀ i, (s'.disks i).fat32Cluster = (s.disks i).fat32Cluster
  clock : s'.clock = s.clock

structure Quiet (dev : Dev) (s s' : System) : Prop extends Serves dev s s' where
  queue : s'.queue = s.queue
  virtualTimer : s'.virtualTimer = s.virtualTimer

/-- What a client sees of its command, and where the answer will go. -/
structure Unchanged (dev : Dev) (s s' : System) : Prop where
  status : (s'.regs dev).status = (s.regs dev).status
  command : (s'.regs dev).command = (s.regs dev).command
  data0 : (s'.regs dev).data0 = (s.regs dev).data0
  block : s'.block dev = s.block dev

def Busy (s : System) (dev : Dev) : Prop := (s.regs dev).status = deviceBusy

/-- The part of a command word that the driver of a class looks at. -/
def commandOf : DeviceClass → BitVec 32 → BitVec 32
  | .tape, command => command
  | _, command => getCommand command

/-- The commands that wait for a timer, as a driver stores them. -/
def Delayed (c : DeviceClass) (command : BitVec 32) : Prop :=
  match c with
  | .printer => command = printChar
  | .tape => command = skipblk ∨ command = backblk ∨ command = readblk
  | .disk => getCommand command = seekcyl ∨ getCommand command = readblk ∨
      getCommand command = writeblk

def Defined (c : DeviceClass) (command : BitVec 32) : Prop :=
  commandOf c command = reset ∨ commandOf c command = ack ∨
    commandOf c command = readRegisters ∨ Delayed c (commandOf c command)

def delay (s : System) (dev : Dev) (command : BitVec 32) : Nat :=
  match dev with
  | (.printer, _) => 8
  | (.tape, _) => 1000
  | (.disk, i) =>
    if getCommand command = seekcyl then
      timeToDestination (s.disks i) (getCommandCylnum command).toNat (s.disks i).currentSector
    else
      timeToDestination (s.disks i) (s.disks i).currentCylinder (getCommandSectnum command).toNat

def Answered (s : System) (registers : BitVec 64) : Prop :=
  (loadReg s.ram registers).mailbox ≠ 0

inductive Verdict (dev : Dev) (s : System) (registers : BitVec 64) (message : DevReg)
    (s' : System) : Prop where
  | silent (quiet : Quiet dev s s') (same : Unchanged dev s s') (ram : s'.ram = s.ram)
      (cause : (dev.1 = .disk ∧ getCommand message.command = ack ∧ Busy s dev) ∨
        (dev.1 = .printer ∧ (s.regs dev).status = deviceNotInstalled))
  | kept (quiet : Quiet dev s s') (same : Unchanged dev s s')
      (known : Defined dev.1 message.command ∨ (s.regs dev).status = deviceNotInstalled)
      (answered : Answered s' registers)
  | settled (quiet : Quiet dev s s') (idle : ¬ Busy s' dev)
      (installed : (s'.regs dev).status ≠ deviceNotInstalled)
      (cause : Busy s dev → commandOf dev.1 message.command = reset ∨
        ¬ Defined dev.1 message.command ∧ (s'.regs dev).status = illegalOperation)
      (answered : Answered s' registers)
  | started (serves : Serves dev s s') (idle : ¬ Busy s dev) (busy : Busy s' dev)
      (delayed : Delayed dev.1 (s'.regs dev).command) (block : s'.block dev = registers)
      (queue : s'.queue = s.queue.add (u64 (getTOD s.clock + delay s dev message.command))
        dev.1.timer dev.2)
      (answered : Answered s' registers)

section
variable {dev : Dev} {s s' s'' : System}

theorem Serves.trans (h : Serves dev s s') (h' : Serves dev s' s'') : Serves dev s s'' where
  ports other ne := (h'.ports other ne).trans (h.ports other ne)
  tapes i := (h'.tapes i).trans (h.tapes i)
  disks i := (h'.disks i).trans (h.disks i)
  clock := h'.clock.trans h.clock

theorem Quiet.trans (h : Quiet dev s s') (h' : Quiet dev s' s'') : Quiet dev s s'' where
  toServes := h.toServes.trans h'.toServes
  queue := h'.queue.trans h.queue
  virtualTimer := h'.virtualTimer.trans h.virtualTimer

end

section
variable (dev : Dev) (s : System)

theorem quiet_outside (ram : Memory 64) (lines : Fin ilLines → Byte) (fat : Fat.Volume)
    (screen : List (Int × Int × Byte)) (met : Nat) :
    Quiet dev s { s with ram := ram, lines := lines, fat := fat, screen := screen, met := met } :=
  ⟨⟨fun _ _ => rfl, fun _ => rfl, fun _ => rfl, rfl⟩, rfl, rfl⟩

theorem quiet_setPort (p : Port) : Quiet dev s (s.setPort dev p) :=
  ⟨⟨fun _ ne => Function.update_of_ne ne _ _, fun _ => rfl, fun _ => rfl, rfl⟩, rfl, rfl⟩

theorem quiet_setRegs (f : DevReg → DevReg) : Quiet dev s (s.setRegs dev f) :=
  quiet_setPort dev s _

theorem quiet_setTape (i : Fin maxDevices) (t : Tape)
    (same : t.fat32Cluster = (s.tapes i).fat32Cluster) : Quiet dev s (s.setTape i t) := by
  refine ⟨⟨fun _ _ => rfl, ?_, fun _ => rfl, rfl⟩, rfl, rfl⟩
  intro j
  by_cases here : j = i
  · subst here
    simp [System.setTape, same]
  · simp [System.setTape, here]

theorem quiet_setDisk (i : Fin maxDevices) (d : Disk)
    (same : d.fat32Cluster = (s.disks i).fat32Cluster) : Quiet dev s (s.setDisk i d) := by
  refine ⟨⟨fun _ _ => rfl, fun _ => rfl, ?_, rfl⟩, rfl, rfl⟩
  intro j
  by_cases here : j = i
  · subst here
    simp [System.setDisk, same]
  · simp [System.setDisk, here]

theorem quiet_setPrinter (i : Fin maxDevices) (p : Printer) : Quiet dev s (s.setPrinter i p) :=
  ⟨⟨fun _ _ => rfl, fun _ => rfl, fun _ => rfl, rfl⟩, rfl, rfl⟩

@[simp] theorem setPort_ports (p : Port) : (s.setPort dev p).ports dev = p :=
  Function.update_self _ _ _

@[simp] theorem setRegs_ports (f : DevReg → DevReg) :
    (s.setRegs dev f).ports dev = ⟨s.block dev, f (s.regs dev)⟩ := setPort_ports dev s _

@[simp] theorem raiseLine_ports (line : Fin ilLines) (i : Fin maxDevices) :
    (s.raiseLine line i).ports = s.ports := rfl

@[simp] theorem clearLine_ports (line : Fin ilLines) (i : Fin maxDevices) :
    (s.clearLine line i).ports = s.ports := rfl

@[simp] theorem answer_ports (registers : BitVec 64) :
    (s.answer dev registers).ports = s.ports := rfl

@[simp] theorem setDisk_ports (i : Fin maxDevices) (d : Disk) : (s.setDisk i d).ports = s.ports := rfl

@[simp] theorem refuse_ports (registers : BitVec 64) : (s.refuse registers).ports = s.ports := rfl

/-- Arming a timer touches the queue and the virtual timer. -/
theorem setDeviceTimer_eq (microseconds : Nat) (type : TimerType) (i : Fin maxDevices) :
    ∃ virtualTimer, setDeviceTimer s microseconds type i = { s with
      queue := s.queue.add (u64 (getTOD s.clock + microseconds)) type i
      virtualTimer := virtualTimer } := by
  unfold setDeviceTimer
  dsimp only
  split_ifs
  · exact ⟨_, rfl⟩
  · exact ⟨_, rfl⟩
  · exact ⟨_, rfl⟩

end

theorem answered_store (m : Memory 64) (registers : BitVec 64) (r : DevReg) {s : System}
    (stored : s.ram = storeReg m registers r) (set : r.mailbox ≠ 0) : Answered s registers := by
  unfold Answered
  rw [stored, loadReg_storeReg]
  exact set

theorem updateTapeHead_spec (s : System) (i : Fin maxDevices) :
    Quiet (.tape, i) s (updateTapeHead s i).2 ∧ ∃ data1, (updateTapeHead s i).2.ports (.tape, i) =
      ⟨s.block (.tape, i), { s.regs (.tape, i) with data1 := data1 }⟩ := by
  unfold updateTapeHead
  dsimp only
  split_ifs <;> dsimp only
  · exact ⟨quiet_setRegs (.tape, i) s _, ts, setRegs_ports (.tape, i) s _⟩
  · exact ⟨quiet_outside _ _ _ _ _ _ _, _, rfl⟩
  · exact ⟨(quiet_outside (.tape, i) s _ _ _ _ _).trans (quiet_setRegs (.tape, i) _ _), _,
      setRegs_ports (.tape, i) _ _⟩

/-! The three ways a driver ends: an answer that changes nothing, one that ends the command,
and the start of a command. `t` is the state before the answer. -/

section
variable {dev : Dev} {s t : System} {registers : BitVec 64} {message : DevReg}
  (quiet : Quiet dev s t)
include quiet

theorem verdict_answer
    (port : t.ports dev = ⟨s.block dev, { s.regs dev with mailbox := 1 }⟩)
    (known : Defined dev.1 message.command ∨ (s.regs dev).status = deviceNotInstalled) :
    Verdict dev s registers message (t.answer dev registers) := by
  refine .kept (quiet.trans (quiet_outside _ _ _ _ _ _ _)) ?_ known (answered_store _ _ _ rfl ?_)
  · constructor <;> simp [System.regs, System.block, System.answer, port]
  · simp [System.regs, port]

theorem verdict_refuse
    (port : t.ports dev = ⟨s.block dev, { s.regs dev with mailbox := 1 }⟩)
    (known : Defined dev.1 message.command ∨ (s.regs dev).status = deviceNotInstalled) :
    Verdict dev s registers message (t.refuse registers) := by
  refine .kept (quiet.trans (quiet_outside _ _ _ _ _ _ _)) ?_ known (answered_store _ _ _ rfl ?_)
  · constructor <;> simp [System.regs, System.block, System.refuse, port]
  · simp

theorem verdict_settled (idle : (t.regs dev).status ≠ deviceBusy)
    (installed : (t.regs dev).status ≠ deviceNotInstalled) (mark : (t.regs dev).mailbox = 1)
    (cause : Busy s dev → commandOf dev.1 message.command = reset ∨
      ¬ Defined dev.1 message.command ∧ (t.regs dev).status = illegalOperation) :
    Verdict dev s registers message (t.answer dev registers) := by
  refine .settled (quiet.trans (quiet_outside _ _ _ _ _ _ _)) idle installed cause
    (answered_store _ _ _ rfl ?_)
  rw [mark]
  decide

theorem verdict_started {r : DevReg} (idle : ¬ Busy s dev) (port : t.ports dev = ⟨registers, r⟩)
    (busy : r.status = deviceBusy) (delayed : Delayed dev.1 r.command) (mark : r.mailbox = 1)
    (virtualTimer : ArmTimer) :
    Verdict dev s registers message { t.answer dev registers with
      queue := t.queue.add (u64 (getTOD t.clock + delay s dev message.command)) dev.1.timer dev.2
      virtualTimer := virtualTimer } := by
  have after : (t.answer dev registers).regs dev = r := by simp [System.regs, System.answer, port]
  refine .started ⟨quiet.ports, quiet.tapes, quiet.disks, quiet.clock⟩ idle ?_ ?_ ?_ ?_
    (answered_store _ _ _ rfl ?_)
  · exact (congrArg DevReg.status after).trans busy
  · exact (congrArg DevReg.command after).symm ▸ delayed
  · simp [System.block, System.answer, port]
  · rw [← quiet.queue, ← quiet.clock]
  · simp [System.regs, port, mark]

end

theorem marked_spec (s : System) (dev : Dev) :
    ∃ t, t = s.setRegs dev (fun r => { r with mailbox := 1 }) ∧ Quiet dev s t ∧
      t.ports dev = ⟨s.block dev, { s.regs dev with mailbox := 1 }⟩ ∧ t.ram = s.ram ∧
      t.disks = s.disks :=
  ⟨_, rfl, quiet_setRegs _ _ _, setRegs_ports _ _ _, rfl, rfl⟩

theorem quiet_moveTape (s : System) (i : Fin maxDevices) (blockIndex : Nat) :
    Quiet (.tape, i) s (s.moveTape i blockIndex) := quiet_setTape (.tape, i) s i _ rfl

@[simp] theorem moveTape_ports (s : System) (i : Fin maxDevices) (blockIndex : Nat) :
    (s.moveTape i blockIndex).ports = s.ports := rfl

/-- A tape command that starts: the answer is copied before the timer is set. -/
theorem startTape_verdict {s t : System} {i : Fin maxDevices} {registers : BitVec 64}
    {message : DevReg} (quiet : Quiet (.tape, i) s t)
    (port : t.ports (.tape, i) = ⟨s.block (.tape, i), { s.regs (.tape, i) with mailbox := 1 }⟩)
    (idle : ¬ Busy s (.tape, i)) {command : BitVec 32} (delayed : Delayed .tape command)
    (data0 : BitVec 32) :
    Verdict (.tape, i) s registers message (t.startTape i registers command data0) := by
  obtain ⟨virtualTimer, armed⟩ := setDeviceTimer_eq ((t.setPort (.tape, i) ⟨registers,
    { t.regs (.tape, i) with command := command, data0 := data0, status := deviceBusy }⟩).answer
      (.tape, i) registers) 1000 .tape i
  rw [System.startTape, armed]
  refine verdict_started (quiet.trans (quiet_setPort _ _ _)) idle (setPort_ports _ _ _) rfl delayed
    ?_ virtualTimer
  simp [System.regs, port]

theorem resetTape_verdict {s t : System} {i : Fin maxDevices} {registers : BitVec 64}
    {message : DevReg} (quiet : Quiet (.tape, i) s t)
    (ready : (t.regs (.tape, i)).status = deviceReady) (mark : (t.regs (.tape, i)).mailbox = 1)
    (isReset : message.command = reset) :
    Verdict (.tape, i) s registers message
      (((updateTapeHead t i).2.raiseLine DeviceClass.tape.line i).answer (.tape, i) registers) := by
  obtain ⟨rewound, data1, head⟩ := updateTapeHead_spec t i
  have after : ((updateTapeHead t i).2.raiseLine DeviceClass.tape.line i).regs (.tape, i) =
      { t.regs (.tape, i) with data1 := data1 } := congrArg Port.internalRegisters head
  refine verdict_settled (quiet.trans (rewound.trans (quiet_outside _ _ _ _ _ _ _))) ?_ ?_ ?_
    (fun _ => Or.inl isReset)
  · rw [after, ready]
    decide
  · rw [after, ready]
    decide
  · rw [after, mark]

theorem tape_verdict (s : System) (i : Fin maxDevices) {registers : BitVec 64}
    (given : registers ≠ 0) :
    Verdict (.tape, i) s registers (loadReg s.ram registers)
      (emulatedTapeMailbox s i registers) := by
  obtain ⟨t, marked, quiet, port, ram, -⟩ := marked_spec s (.tape, i)
  have regs : t.regs (.tape, i) = { s.regs (.tape, i) with mailbox := 1 } :=
    congrArg Port.internalRegisters port
  unfold emulatedTapeMailbox
  rw [if_neg given]
  simp only [← marked, ram, regs]
  generalize loadReg s.ram registers = message
  by_cases absent : (s.regs (.tape, i)).status = deviceNotInstalled ∧ message.command ≠ readRegisters
  · rw [if_pos absent]
    exact verdict_answer quiet port (Or.inr absent.1)
  rw [if_neg absent]
  by_cases isReset : message.command = reset
  · rw [if_pos isReset]
    exact resetTape_verdict ((quiet.trans (quiet_setRegs _ _ _)).trans (quiet_moveTape _ _ _))
      (by simp [System.regs]) (by simp [System.regs, port]) isReset
  rw [if_neg isReset]
  by_cases isAck : message.command = ack
  · rw [if_pos isAck]
    by_cases idle : (s.regs (.tape, i)).status ≠ deviceBusy
    · rw [if_pos idle]
      exact verdict_settled ((quiet.trans (quiet_setRegs _ _ _)).trans (quiet_outside _ _ _ _ _ _ _))
        (by simp [System.regs]) (by simp [System.regs]) (by simp [System.regs, port])
        (fun busy => absurd busy idle)
    · rw [if_neg idle]
      exact verdict_answer quiet port (Or.inl (Or.inr (Or.inl isAck)))
  rw [if_neg isAck]
  by_cases isRead : message.command = readRegisters
  · rw [if_pos isRead]
    exact verdict_answer quiet port (Or.inl (Or.inr (Or.inr (Or.inl isRead))))
  rw [if_neg isRead]
  by_cases isSkip : message.command = skipblk
  · rw [if_pos isSkip]
    by_cases idle : (s.regs (.tape, i)).status ≠ deviceBusy
    · rw [if_pos idle]
      exact startTape_verdict quiet port idle (by simp [Delayed]) _
    · rw [if_neg idle]
      exact verdict_answer quiet port (Or.inl (Or.inr (Or.inr (Or.inr (Or.inl isSkip)))))
  rw [if_neg isSkip]
  by_cases isBack : message.command = backblk
  · rw [if_pos isBack]
    by_cases idle : (s.regs (.tape, i)).status ≠ deviceBusy
    · rw [if_pos idle]
      exact startTape_verdict quiet port idle (by simp [Delayed]) _
    · rw [if_neg idle]
      exact verdict_answer quiet port (Or.inl (Or.inr (Or.inr (Or.inr (Or.inr (Or.inl isBack))))))
  rw [if_neg isBack]
  by_cases isBlock : message.command = readblk
  · rw [if_pos isBlock]
    by_cases idle : (s.regs (.tape, i)).status ≠ deviceBusy
    · rw [if_pos idle]
      by_cases ended : (s.regs (.tape, i)).data1 = eot
      · rw [if_pos ended]
        exact verdict_settled
          ((quiet.trans (quiet_setRegs _ _ _)).trans (quiet_outside _ _ _ _ _ _ _))
          (by simp [System.regs]) (by simp [System.regs]) (by simp [System.regs, port])
          (fun busy => absurd busy idle)
      · rw [if_neg ended]
        exact startTape_verdict quiet port idle (by simp [Delayed]) _
    · rw [if_neg idle]
      exact verdict_answer quiet port (Or.inl (Or.inr (Or.inr (Or.inr (Or.inr (Or.inr isBlock))))))
  rw [if_neg isBlock]
  refine verdict_settled (quiet.trans (quiet_setRegs _ _ _)) (by simp [System.regs])
    (by simp [System.regs]) (by simp [System.regs, port])
    (fun _ => Or.inr ⟨?_, by simp [System.regs]⟩)
  simp only [Defined, Delayed, commandOf, isReset, isAck, isRead, isSkip, isBack, isBlock, or_self,
    not_false_eq_true]

theorem printer_verdict (s : System) (i : Fin maxDevices) {registers : BitVec 64}
    (given : registers ≠ 0) :
    Verdict (.printer, i) s registers (loadReg s.ram registers)
      (emulatedPrinterMailbox s i registers) := by
  obtain ⟨t, marked, quiet, port, ram, -⟩ := marked_spec s (.printer, i)
  have regs : t.regs (.printer, i) = { s.regs (.printer, i) with mailbox := 1 } :=
    congrArg Port.internalRegisters port
  unfold emulatedPrinterMailbox
  rw [if_neg given]
  simp only [← marked, regs]
  generalize loadReg s.ram registers = message
  by_cases absent : (s.regs (.printer, i)).status = deviceNotInstalled ∧
      message.command ≠ readRegisters
  · rw [if_pos absent]
    exact .silent (quiet_outside _ _ _ _ _ _ _) ⟨rfl, rfl, rfl, rfl⟩ rfl (Or.inr ⟨rfl, absent.1⟩)
  rw [if_neg absent]
  by_cases isReset : getCommand message.command = reset
  · rw [if_pos isReset]
    exact verdict_settled ((quiet.trans (quiet_setRegs _ _ _)).trans (quiet_outside _ _ _ _ _ _ _))
      (by simp [System.regs]) (by simp [System.regs]) (by simp [System.regs, port])
      (fun _ => Or.inl isReset)
  rw [if_neg isReset]
  by_cases isAck : getCommand message.command = ack
  · rw [if_pos isAck]
    by_cases idle : (s.regs (.printer, i)).status ≠ deviceBusy
    · rw [if_pos idle]
      exact verdict_settled ((quiet.trans (quiet_setRegs _ _ _)).trans (quiet_outside _ _ _ _ _ _ _))
        (by simp [System.regs]) (by simp [System.regs]) (by simp [System.regs, port])
        (fun busy => absurd busy idle)
    · rw [if_neg idle]
      exact verdict_refuse quiet port (Or.inl (Or.inr (Or.inl isAck)))
  rw [if_neg isAck]
  by_cases isRead : getCommand message.command = readRegisters
  · rw [if_pos isRead]
    exact verdict_answer quiet port (Or.inl (Or.inr (Or.inr (Or.inl isRead))))
  rw [if_neg isRead]
  by_cases isPrint : getCommand message.command = printChar
  · rw [if_pos isPrint]
    by_cases idle : (s.regs (.printer, i)).status ≠ deviceBusy
    · rw [if_pos idle]
      obtain ⟨virtualTimer, armed⟩ := setDeviceTimer_eq ((t.setPort (.printer, i) ⟨registers,
        ⟨deviceBusy, printChar, message.data0, (s.regs (.printer, i)).data1, 1⟩⟩).answer
          (.printer, i) registers) 8 .printer i
      rw [armed]
      exact verdict_started
        (r := ⟨deviceBusy, printChar, message.data0, (s.regs (.printer, i)).data1, 1⟩)
        (quiet.trans (quiet_setPort _ _ _)) idle (setPort_ports _ _ _) rfl rfl rfl virtualTimer
    · rw [if_neg idle]
      exact verdict_refuse quiet port (Or.inl (Or.inr (Or.inr (Or.inr isPrint))))
  rw [if_neg isPrint]
  refine verdict_settled (quiet.trans (quiet_setRegs _ _ _)) (by simp [System.regs])
    (by simp [System.regs]) (by simp [System.regs, port])
    (fun _ => Or.inr ⟨?_, by simp [System.regs]⟩)
  simp only [Defined, Delayed, commandOf, isReset, isAck, isRead, isPrint, or_self,
    not_false_eq_true]

theorem getCommand_idem (command : BitVec 32) :
    getCommand (getCommand command) = getCommand command := by
  simp [getCommand, BitVec.and_assoc]

theorem disk_defined {command : BitVec 32} (delayed : Delayed .disk command) :
    Defined .disk command := by
  refine Or.inr (Or.inr (Or.inr ?_))
  simpa only [Delayed, commandOf, getCommand_idem] using delayed

/-- A disk command that starts: the timer is set before the answer is copied. -/
theorem startDisk_verdict {s t : System} {i : Fin maxDevices} {registers : BitVec 64}
    {message : DevReg} (quiet : Quiet (.disk, i) s t)
    (port : t.ports (.disk, i) = ⟨s.block (.disk, i), { s.regs (.disk, i) with mailbox := 1 }⟩)
    (idle : ¬ Busy s (.disk, i)) (delayed : Delayed .disk message.command) {microseconds : Nat}
    (wait : microseconds = delay s (.disk, i) message.command) :
    Verdict (.disk, i) s registers message
      ((t.startDisk i registers message microseconds).answer (.disk, i) registers) := by
  obtain ⟨virtualTimer, armed⟩ := setDeviceTimer_eq (t.setPort (.disk, i) ⟨registers,
    { t.regs (.disk, i) with
      command := message.command, data0 := message.data0, status := deviceBusy }⟩)
    microseconds .disk i
  rw [System.startDisk, armed, wait]
  refine verdict_started (r := { t.regs (.disk, i) with
      command := message.command, data0 := message.data0, status := deviceBusy })
    (quiet.trans (quiet_setPort _ _ _)) idle (setPort_ports _ _ _) rfl delayed ?_ virtualTimer
  simp [System.regs, port]

theorem disk_verdict (s : System) (i : Fin maxDevices) {registers : BitVec 64}
    (given : registers ≠ 0) :
    Verdict (.disk, i) s registers (loadReg s.ram registers)
      (emulatedDiskMailbox s i registers) := by
  obtain ⟨t, marked, quiet, port, ram, disks⟩ := marked_spec s (.disk, i)
  have regs : t.regs (.disk, i) = { s.regs (.disk, i) with mailbox := 1 } :=
    congrArg Port.internalRegisters port
  unfold emulatedDiskMailbox
  rw [if_neg given]
  simp only [← marked, ram, regs, disks]
  generalize loadReg s.ram registers = message
  by_cases absent : (s.regs (.disk, i)).status = deviceNotInstalled ∧ message.command ≠ readRegisters
  · rw [if_pos absent]
    exact verdict_answer quiet port (Or.inr absent.1)
  rw [if_neg absent]
  by_cases isReset : getCommand message.command = reset
  · rw [if_pos isReset]
    exact verdict_settled (((quiet.trans (quiet_setRegs _ _ _)).trans
      (quiet_setDisk _ _ _ _ (congrArg (fun d => (d i).fat32Cluster) disks.symm))).trans
        (quiet_outside _ _ _ _ _ _ _)) (by simp [System.regs]) (by simp [System.regs])
      (by simp [System.regs, port]) (fun _ => Or.inl isReset)
  rw [if_neg isReset]
  by_cases isAck : getCommand message.command = ack
  · rw [if_pos isAck]
    by_cases idle : (s.regs (.disk, i)).status ≠ deviceBusy
    · rw [if_pos idle]
      exact verdict_settled ((quiet.trans (quiet_setRegs _ _ _)).trans (quiet_outside _ _ _ _ _ _ _))
        (by simp [System.regs]) (by simp [System.regs]) (by simp [System.regs, port])
        (fun busy => absurd busy idle)
    · rw [if_neg idle]
      refine .silent quiet ?_ ram (Or.inl ⟨rfl, isAck, not_not.mp idle⟩)
      constructor <;> simp [System.regs, System.block, port]
  rw [if_neg isAck]
  by_cases isRead : getCommand message.command = readRegisters
  · rw [if_pos isRead]
    exact verdict_answer quiet port (Or.inl (Or.inr (Or.inr (Or.inl isRead))))
  rw [if_neg isRead]
  by_cases isBlock : getCommand message.command = readblk ∨ getCommand message.command = writeblk
  · rw [if_pos isBlock]
    by_cases idle : (s.regs (.disk, i)).status ≠ deviceBusy
    · rw [if_pos idle]
      by_cases beyond : (getCommandHeadnum message.command).toNat > (s.disks i).heads ∨
          (getCommandSectnum message.command).toNat > (s.disks i).sectors
      · rw [if_pos beyond]
        exact verdict_settled (quiet.trans (quiet_setRegs _ _ _)) (by simp [System.regs])
          (by simp [System.regs]) (by simp [System.regs, port]) (fun busy => absurd busy idle)
      · rw [if_neg beyond]
        refine startDisk_verdict quiet port idle (Or.inr isBlock) ?_
        have other : getCommand message.command ≠ seekcyl := by
          rcases isBlock with block | block <;> rw [block] <;> decide
        simp only [delay, if_neg other]
    · rw [if_neg idle]
      exact verdict_answer quiet port (Or.inl (disk_defined (Or.inr isBlock)))
  rw [if_neg isBlock]
  by_cases isSeek : getCommand message.command = seekcyl
  · rw [if_pos isSeek]
    by_cases idle : (s.regs (.disk, i)).status ≠ deviceBusy
    · rw [if_pos idle]
      by_cases beyond : (getCommandCylnum message.command).toNat > (s.disks i).cylinders
      · rw [if_pos beyond]
        exact verdict_settled (quiet.trans (quiet_setRegs _ _ _)) (by simp [System.regs])
          (by simp [System.regs]) (by simp [System.regs, port]) (fun busy => absurd busy idle)
      · rw [if_neg beyond]
        refine startDisk_verdict quiet port idle (Or.inl isSeek) ?_
        simp only [delay, if_pos isSeek]
    · rw [if_neg idle]
      exact verdict_answer quiet port (Or.inl (disk_defined (Or.inl isSeek)))
  rw [if_neg isSeek]
  refine verdict_settled (quiet.trans (quiet_setRegs _ _ _)) (by simp [System.regs])
    (by simp [System.regs]) (by simp [System.regs, port])
    (fun _ => Or.inr ⟨?_, by simp [System.regs]⟩)
  simp only [Defined, Delayed, commandOf, getCommand_idem, isReset, isAck, isRead, isSeek,
    (not_or.mp isBlock).1, (not_or.mp isBlock).2, or_self, not_false_eq_true]

/-- What one message does, whichever class the device is of. -/
theorem mailbox_verdict (s : System) (dev : Dev) {registers : BitVec 64} (given : registers ≠ 0) :
    Verdict dev s registers (loadReg s.ram registers) (mailbox s dev registers) := by
  obtain ⟨c, i⟩ := dev
  cases c with
  | printer => exact printer_verdict s i given
  | tape => exact tape_verdict s i given
  | disk => exact disk_verdict s i given

theorem mailbox_null (s : System) (dev : Dev) : mailbox s dev 0 = s := by
  obtain ⟨c, i⟩ := dev
  cases c <;> rfl

end Emulated
