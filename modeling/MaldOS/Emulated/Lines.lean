import MaldOS.Emulated.Blocks

/-!
The interrupt lines: which of them an action raises or clears, and that a line is
kept only where a device is installed.
-/
namespace Emulated
open Arch ByteMemory Registers ArmTimers EmulatedTimers Runs

def LineUp (s : System) (dev : Dev) : Prop := (s.lines dev.1.line).getLsbD dev.2 = true

def Installed (s : System) (dev : Dev) : Prop := (s.installed dev.1.line).getLsbD dev.2 = true

instance (s : System) (dev : Dev) : Decidable (LineUp s dev) := inferInstanceAs (Decidable (_ = _))

theorem bit_get (i j : Fin maxDevices) : (bit i).getLsbD j = decide (i = j) := by
  revert i j
  decide

theorem line_inj {c c' : DeviceClass} (same : c.line = c'.line) : c = c' := by
  cases c <;> cases c' <;> first | rfl | exact absurd same (by decide)

theorem line_not_timer (c : DeviceClass) : c.line ≠ ilTimer := by
  cases c <;> decide

theorem lineUp_raise {s : System} {dev : Dev} (line : Fin ilLines) (i : Fin maxDevices)
    (up : LineUp s dev) : LineUp (s.raiseLine line i) dev := by
  unfold LineUp System.raiseLine at *
  by_cases same : dev.1.line = line
  · subst same
    simp [up]
  · simp [same, up]

theorem lineUp_raised (s : System) (dev : Dev) : LineUp (s.raiseLine dev.1.line dev.2) dev := by
  simp [LineUp, System.raiseLine, bit_get]

theorem lineUp_clear {s : System} {dev : Dev} {line : Fin ilLines} {i : Fin maxDevices}
    (other : dev.1.line ≠ line ∨ dev.2 ≠ i) (up : LineUp s dev) : LineUp (s.clearLine line i) dev := by
  unfold LineUp System.clearLine at *
  by_cases same : dev.1.line = line
  · subst same
    have apart : i ≠ dev.2 := fun equal => other.elim (fun no => no rfl) fun no => no equal.symm
    have inside : (dev.2 : Nat) < 8 := Nat.lt_trans dev.2.isLt (by decide)
    have unset : (bit i).getLsbD dev.2 = false := by
      rw [bit_get]
      exact decide_eq_false apart
    simp only [Function.update_self, BitVec.getLsbD_and, BitVec.getLsbD_not, up, unset, inside]
    rfl
  · simp [same, up]

theorem lineUp_clean {s : System} {dev : Dev} (up : LineUp s dev) (installed : Installed s dev) :
    LineUp (cleanInterruptLines s) dev := by
  unfold LineUp Installed at *
  simp [cleanInterruptLines, up, installed]

/-- What no driver touches: the tables set at the start, and the timers of the cores. -/
structure Fixed (s s' : System) : Prop where
  installed : s'.installed = s.installed
  mask : s'.mask = s.mask
  physicalTimers : s'.physicalTimers = s.physicalTimers
  scheduled : s'.scheduledPhysicalTimers = s.scheduledPhysicalTimers

structure SameLines (s s' : System) : Prop extends Fixed s s' where
  lines : s'.lines = s.lines

/-- What serving a device does to the lines: nothing, or its bit is raised where `raises`
    allows it, or cleared where `clears` does. -/
structure OwnLine (dev : Dev) (raises clears : Prop) (s s' : System) : Prop extends Fixed s s' where
  lines : s'.lines = s.lines ∨ (raises ∧ s'.lines = (s.raiseLine dev.1.line dev.2).lines) ∨
    clears ∧ s'.lines = (s.clearLine dev.1.line dev.2).lines

section
variable {dev : Dev} {raises clears : Prop} {s s' s'' : System}

theorem fixed_trans (first : Fixed s s') (second : Fixed s' s'') : Fixed s s'' :=
  ⟨second.installed.trans first.installed, second.mask.trans first.mask,
    second.physicalTimers.trans first.physicalTimers, second.scheduled.trans first.scheduled⟩

theorem sameLines_trans (first : SameLines s s') (second : SameLines s' s'') : SameLines s s'' :=
  ⟨fixed_trans first.toFixed second.toFixed, second.lines.trans first.lines⟩

theorem own_same (same : SameLines s s') : OwnLine dev raises clears s s' :=
  ⟨same.toFixed, Or.inl same.lines⟩

theorem own_raised (allowed : raises) (same : SameLines s s') :
    OwnLine dev raises clears s (s'.raiseLine dev.1.line dev.2) := by
  refine ⟨⟨same.installed, same.mask, same.physicalTimers, same.scheduled⟩, ?_⟩
  unfold System.raiseLine
  rw [same.lines]
  exact Or.inr (Or.inl ⟨allowed, rfl⟩)

theorem own_cleared (allowed : clears) (same : SameLines s s') :
    OwnLine dev raises clears s (s'.clearLine dev.1.line dev.2) := by
  refine ⟨⟨same.installed, same.mask, same.physicalTimers, same.scheduled⟩, ?_⟩
  unfold System.clearLine
  rw [same.lines]
  exact Or.inr (Or.inr ⟨allowed, rfl⟩)

theorem own_after (own : OwnLine dev raises clears s s') (same : SameLines s' s'') :
    OwnLine dev raises clears s s'' := by
  refine ⟨fixed_trans own.toFixed same.toFixed, ?_⟩
  rw [same.lines]
  exact own.lines

theorem own_answer (own : OwnLine dev raises clears s s') (registers : BitVec 64) :
    OwnLine dev raises clears s (s'.answer dev registers) :=
  own_after own ⟨⟨rfl, rfl, rfl, rfl⟩, rfl⟩

theorem own_ite {c : Prop} [Decidable c] (yes : c → OwnLine dev raises clears s s')
    (no : ¬ c → OwnLine dev raises clears s s'') :
    OwnLine dev raises clears s (if c then s' else s'') := by
  split_ifs with h
  · exact yes h
  · exact no h

end

theorem setDeviceTimer_lines (s : System) (microseconds : Nat) (type : TimerType)
    (i : Fin maxDevices) : SameLines s (setDeviceTimer s microseconds type i) := by
  obtain ⟨virtualTimer, armed⟩ := setDeviceTimer_eq s microseconds type i
  rw [armed]
  exact ⟨⟨rfl, rfl, rfl, rfl⟩, rfl⟩

theorem updateTapeHead_lines (s : System) (i : Fin maxDevices) :
    SameLines s (updateTapeHead s i).2 := by
  unfold updateTapeHead
  dsimp only
  split_ifs
  · exact ⟨⟨rfl, rfl, rfl, rfl⟩, rfl⟩
  · exact ⟨⟨rfl, rfl, rfl, rfl⟩, rfl⟩
  · exact ⟨⟨rfl, rfl, rfl, rfl⟩, rfl⟩

def Rewinds (s : System) (dev : Dev) (command : BitVec 32) : Prop :=
  dev.1 ≠ .printer ∧ commandOf dev.1 command = reset ∧ (s.regs dev).status ≠ deviceNotInstalled

def Closes (c : DeviceClass) (command : BitVec 32) : Prop :=
  commandOf c command = ack ∨ commandOf c command = reset

theorem reset_not_read {c : DeviceClass} {command : BitVec 32} (isReset : commandOf c command = reset) :
    command ≠ readRegisters := by
  rintro rfl
  revert isReset
  cases c <;> decide

theorem rewinds_here {s : System} (dev : Dev) {command : BitVec 32} (other : dev.1 ≠ .printer)
    (isReset : commandOf dev.1 command = reset)
    (present : ¬ (((s.setRegs dev fun r => { r with mailbox := 1 }).regs dev).status =
      deviceNotInstalled ∧ command ≠ readRegisters)) : Rewinds s dev command := by
  refine ⟨other, isReset, ?_⟩
  intro absent
  apply present
  constructor
  · simpa [System.regs] using absent
  · exact reset_not_read isReset

theorem printer_own (s : System) (i : Fin maxDevices) (registers : BitVec 64) :
    OwnLine (.printer, i) (Rewinds s (.printer, i) (loadReg s.ram registers).command)
      (Closes .printer (loadReg s.ram registers).command) s
      (emulatedPrinterMailbox s i registers) := by
  unfold emulatedPrinterMailbox
  apply own_ite
  · exact fun _ => own_same ⟨⟨rfl, rfl, rfl, rfl⟩, rfl⟩
  intro _
  apply own_ite
  · exact fun _ => own_same ⟨⟨rfl, rfl, rfl, rfl⟩, rfl⟩
  intro _
  apply own_ite
  · intro isReset
    apply own_answer
    exact own_cleared (Or.inr isReset) ⟨⟨rfl, rfl, rfl, rfl⟩, rfl⟩
  intro _
  apply own_ite
  · intro isAck
    apply own_ite
    · intro _
      apply own_answer
      exact own_cleared (Or.inl isAck) ⟨⟨rfl, rfl, rfl, rfl⟩, rfl⟩
    · exact fun _ => own_same ⟨⟨rfl, rfl, rfl, rfl⟩, rfl⟩
  intro _
  apply own_ite
  · exact fun _ => own_same ⟨⟨rfl, rfl, rfl, rfl⟩, rfl⟩
  intro _
  apply own_ite
  · intro _
    apply own_ite
    · intro _
      obtain ⟨⟨installed, mask, physicalTimers, scheduled⟩, lines⟩ :=
        setDeviceTimer_lines _ 8 .printer i
      exact own_same ⟨⟨installed, mask, physicalTimers, scheduled⟩, lines⟩
    · exact fun _ => own_same ⟨⟨rfl, rfl, rfl, rfl⟩, rfl⟩
  · exact fun _ => own_same ⟨⟨rfl, rfl, rfl, rfl⟩, rfl⟩

theorem startDisk_lines {s t : System} (i : Fin maxDevices) (registers : BitVec 64)
    (message : DevReg) (timetodest : Nat) (same : SameLines s t) :
    SameLines s (t.startDisk i registers message timetodest) := by
  unfold System.startDisk
  have armed := setDeviceTimer_lines (t.setPort (.disk, i) ⟨registers, { t.regs (.disk, i) with
    command := message.command, data0 := message.data0, status := deviceBusy }⟩) timetodest .disk i
  exact ⟨⟨armed.installed.trans same.installed, armed.mask.trans same.mask,
    armed.physicalTimers.trans same.physicalTimers, armed.scheduled.trans same.scheduled⟩,
    armed.lines.trans same.lines⟩

theorem startTape_lines {s t : System} (i : Fin maxDevices) (registers : BitVec 64)
    (command data0 : BitVec 32) (same : SameLines s t) :
    SameLines s (t.startTape i registers command data0) := by
  unfold System.startTape
  have armed := setDeviceTimer_lines ((t.setPort (.tape, i) ⟨registers, { t.regs (.tape, i) with
    command := command, data0 := data0, status := deviceBusy }⟩).answer (.tape, i) registers)
      1000 .tape i
  exact ⟨⟨armed.installed.trans same.installed, armed.mask.trans same.mask,
    armed.physicalTimers.trans same.physicalTimers, armed.scheduled.trans same.scheduled⟩,
    armed.lines.trans same.lines⟩

theorem disk_own (s : System) (i : Fin maxDevices) (registers : BitVec 64) :
    OwnLine (.disk, i) (Rewinds s (.disk, i) (loadReg s.ram registers).command)
      (Closes .disk (loadReg s.ram registers).command) s
      (emulatedDiskMailbox s i registers) := by
  unfold emulatedDiskMailbox
  apply own_ite
  · exact fun _ => own_same ⟨⟨rfl, rfl, rfl, rfl⟩, rfl⟩
  intro _
  apply own_ite
  · exact fun _ => own_same ⟨⟨rfl, rfl, rfl, rfl⟩, rfl⟩
  intro present
  apply own_ite
  · intro isReset
    apply own_answer
    exact own_raised (rewinds_here (.disk, i) (by simp) isReset present)
      ⟨⟨rfl, rfl, rfl, rfl⟩, rfl⟩
  intro _
  apply own_ite
  · intro isAck
    apply own_ite
    · intro _
      apply own_answer
      exact own_cleared (Or.inl isAck) ⟨⟨rfl, rfl, rfl, rfl⟩, rfl⟩
    · exact fun _ => own_same ⟨⟨rfl, rfl, rfl, rfl⟩, rfl⟩
  intro _
  apply own_ite
  · exact fun _ => own_same ⟨⟨rfl, rfl, rfl, rfl⟩, rfl⟩
  intro _
  apply own_ite
  · intro _
    apply own_answer
    apply own_ite
    · exact fun _ => own_ite (fun _ => own_same ⟨⟨rfl, rfl, rfl, rfl⟩, rfl⟩)
        fun _ => own_same (startDisk_lines i _ _ _ ⟨⟨rfl, rfl, rfl, rfl⟩, rfl⟩)
    · exact fun _ => own_same ⟨⟨rfl, rfl, rfl, rfl⟩, rfl⟩
  intro _
  apply own_ite
  · intro _
    apply own_answer
    apply own_ite
    · exact fun _ => own_ite (fun _ => own_same ⟨⟨rfl, rfl, rfl, rfl⟩, rfl⟩)
        fun _ => own_same (startDisk_lines i _ _ _ ⟨⟨rfl, rfl, rfl, rfl⟩, rfl⟩)
    · exact fun _ => own_same ⟨⟨rfl, rfl, rfl, rfl⟩, rfl⟩
  · exact fun _ => own_same ⟨⟨rfl, rfl, rfl, rfl⟩, rfl⟩

theorem tape_own (s : System) (i : Fin maxDevices) (registers : BitVec 64) :
    OwnLine (.tape, i) (Rewinds s (.tape, i) (loadReg s.ram registers).command)
      (Closes .tape (loadReg s.ram registers).command) s
      (emulatedTapeMailbox s i registers) := by
  unfold emulatedTapeMailbox
  apply own_ite
  · exact fun _ => own_same ⟨⟨rfl, rfl, rfl, rfl⟩, rfl⟩
  intro _
  apply own_ite
  · exact fun _ => own_same ⟨⟨rfl, rfl, rfl, rfl⟩, rfl⟩
  intro present
  apply own_ite
  · intro isReset
    have head := updateTapeHead_lines (((s.setRegs (.tape, i) fun r =>
      { r with mailbox := 1 }).setRegs (.tape, i) fun r =>
        { r with command := reset, status := deviceReady }).moveTape i 0) i
    apply own_answer
    exact own_raised (rewinds_here (.tape, i) (by simp) isReset present)
      ⟨⟨head.installed, head.mask, head.physicalTimers, head.scheduled⟩, head.lines⟩
  intro _
  apply own_ite
  · intro isAck
    apply own_answer
    apply own_ite
    · exact fun _ => own_cleared (Or.inl isAck) ⟨⟨rfl, rfl, rfl, rfl⟩, rfl⟩
    · exact fun _ => own_same ⟨⟨rfl, rfl, rfl, rfl⟩, rfl⟩
  intro _
  apply own_ite
  · exact fun _ => own_same ⟨⟨rfl, rfl, rfl, rfl⟩, rfl⟩
  intro _
  apply own_ite
  · intro _
    apply own_ite
    · exact fun _ => own_same (startTape_lines i registers _ _ ⟨⟨rfl, rfl, rfl, rfl⟩, rfl⟩)
    · exact fun _ => own_same ⟨⟨rfl, rfl, rfl, rfl⟩, rfl⟩
  intro _
  apply own_ite
  · intro _
    apply own_ite
    · exact fun _ => own_same (startTape_lines i registers _ _ ⟨⟨rfl, rfl, rfl, rfl⟩, rfl⟩)
    · exact fun _ => own_same ⟨⟨rfl, rfl, rfl, rfl⟩, rfl⟩
  intro _
  apply own_ite
  · intro _
    apply own_ite
    · intro _
      apply own_ite
      · exact fun _ => own_same ⟨⟨rfl, rfl, rfl, rfl⟩, rfl⟩
      · exact fun _ => own_same (startTape_lines i registers _ _ ⟨⟨rfl, rfl, rfl, rfl⟩, rfl⟩)
    · exact fun _ => own_same ⟨⟨rfl, rfl, rfl, rfl⟩, rfl⟩
  · exact fun _ => own_same ⟨⟨rfl, rfl, rfl, rfl⟩, rfl⟩

/-- A message raises no line but that of the tape or disk that it resets, and clears a line only
    to acknowledge or reset its device. -/
theorem mailbox_own (s : System) (dev : Dev) (registers : BitVec 64) :
    OwnLine dev (Rewinds s dev (loadReg s.ram registers).command)
      (Closes dev.1 (loadReg s.ram registers).command) s (mailbox s dev registers) := by
  obtain ⟨c, i⟩ := dev
  cases c with
  | printer => exact printer_own s i registers
  | tape => exact tape_own s i registers
  | disk => exact disk_own s i registers

/-! The expiry of a timer raises the line, in every branch that can be taken. -/

theorem movedHead_lines (s : System) (i : Fin maxDevices) (blockIndex : Nat) :
    SameLines s (updateTapeHead (s.moveTape i blockIndex) i).2 := by
  have head := updateTapeHead_lines (s.moveTape i blockIndex) i
  exact ⟨⟨head.installed, head.mask, head.physicalTimers, head.scheduled⟩, head.lines⟩

theorem tapeNextBlock_lines (s : System) (i : Fin maxDevices) :
    SameLines s (tapeNextBlock s i).2 := by
  unfold tapeNextBlock
  split_ifs
  · exact ⟨⟨rfl, rfl, rfl, rfl⟩, rfl⟩
  · exact movedHead_lines s i _

theorem tapePrevBlock_lines (s : System) (i : Fin maxDevices) :
    SameLines s (tapePrevBlock s i).2 := by
  unfold tapePrevBlock
  split_ifs
  · exact movedHead_lines s i _
  · exact ⟨⟨rfl, rfl, rfl, rfl⟩, rfl⟩

theorem readTapeBlock_lines (s : System) (i : Fin maxDevices) (buffer : BitVec 64) :
    SameLines s (readTapeBlock s i buffer).2 := by
  unfold readTapeBlock
  dsimp only
  split_ifs
  · exact ⟨⟨rfl, rfl, rfl, rfl⟩, rfl⟩
  · exact ⟨⟨rfl, rfl, rfl, rfl⟩, rfl⟩

theorem readDiskBlock_lines (s : System) (i : Fin maxDevices) (buffer : BitVec 64) :
    SameLines s (readDiskBlock s i buffer).2 := by
  unfold readDiskBlock
  dsimp only
  split_ifs
  · exact ⟨⟨rfl, rfl, rfl, rfl⟩, rfl⟩
  · exact ⟨⟨rfl, rfl, rfl, rfl⟩, rfl⟩

theorem writeDiskBlock_lines (s : System) (i : Fin maxDevices) (buffer : BitVec 64) :
    SameLines s (writeDiskBlock s i buffer).2 := by
  unfold writeDiskBlock
  dsimp only
  split_ifs
  · exact ⟨⟨rfl, rfl, rfl, rfl⟩, rfl⟩
  · exact ⟨⟨rfl, rfl, rfl, rfl⟩, rfl⟩

/-- A tape read that fails returns what `fat_readfile` counted, which is never negative. -/
theorem readTapeBlock_count (s : System) (i : Fin maxDevices) (buffer : BitVec 64) :
    0 ≤ (readTapeBlock s i buffer).1 := by
  unfold readTapeBlock
  dsimp only
  split_ifs
  · exact le_rfl
  · exact Fat.readfile_count (by decide : tapeBlocksize < 2 ^ 31) (Option.some_get _).symm

structure Raises (dev : Dev) (s s' : System) : Prop extends Fixed s s' where
  lines : s'.lines = (s.raiseLine dev.1.line dev.2).lines

section
variable {dev : Dev} {s t : System}

theorem raises_line (same : SameLines s t) : Raises dev s (t.raiseLine dev.1.line dev.2) := by
  refine ⟨⟨same.installed, same.mask, same.physicalTimers, same.scheduled⟩, ?_⟩
  unfold System.raiseLine
  rw [same.lines]

theorem raises_finish (same : SameLines s t) (f : DevReg → DevReg) :
    Raises dev s (((t.setRegs dev f).raiseLine dev.1.line dev.2).finish dev) := by
  obtain ⟨fixed, lines⟩ : Raises dev s (t.raiseLine dev.1.line dev.2) := raises_line same
  exact ⟨⟨fixed.installed, fixed.mask, fixed.physicalTimers, fixed.scheduled⟩, lines⟩

theorem finish_raises (same : SameLines s t) (f : DevReg → DevReg) :
    Raises dev s (((t.setRegs dev f).finish dev).raiseLine dev.1.line dev.2) :=
  raises_line ⟨⟨same.installed, same.mask, same.physicalTimers, same.scheduled⟩, same.lines⟩

theorem raises_own (raises : Raises dev s t) {clears : Prop} : OwnLine dev True clears s t :=
  ⟨raises.toFixed, Or.inr (Or.inl ⟨trivial, raises.lines⟩)⟩

end

theorem manageTape_raises {s : System} {i : Fin maxDevices} (busy : Busy s (.tape, i))
    (delayed : Delayed .tape (s.regs (.tape, i)).command) :
    Raises (.tape, i) s (manageEmulatedTape s i) := by
  have installed := busy_installed busy
  unfold Busy at busy
  unfold manageEmulatedTape
  rw [if_neg installed, if_pos busy]
  by_cases isSkip : (s.regs (.tape, i)).command = skipblk
  · rw [if_pos isSkip]
    have same := tapeNextBlock_lines s i
    generalize tapeNextBlock s i = r at same ⊢
    dsimp only
    exact @finish_raises (.tape, i) s r.2 same _
  rw [if_neg isSkip]
  by_cases isBack : (s.regs (.tape, i)).command = backblk
  · rw [if_pos isBack]
    have same := tapePrevBlock_lines s i
    generalize tapePrevBlock s i = r at same ⊢
    dsimp only
    exact @finish_raises (.tape, i) s r.2 same _
  rw [if_neg isBack, if_pos ((delayed.resolve_left isSkip).resolve_left isBack)]
  have counted := readTapeBlock_count s i ((s.regs (.tape, i)).data0.setWidth 64)
  have same := readTapeBlock_lines s i ((s.regs (.tape, i)).data0.setWidth 64)
  generalize readTapeBlock s i _ = r at counted same ⊢
  have done : ¬ r.1 < 0 := by omega
  dsimp only
  rw [if_neg done]
  have head := sameLines_trans same (movedHead_lines r.2 i (u32 ((r.2.tapes i).blockIndex + 1)))
  generalize updateTapeHead _ i = h at head ⊢
  exact @raises_finish (.tape, i) s h.2 head _

theorem aimed_lines {s t : System} {i : Fin maxDevices} {command : BitVec 32}
    (same : SameLines (s.aimDisk i command) t) : SameLines s t :=
  ⟨⟨same.installed, same.mask, same.physicalTimers, same.scheduled⟩, same.lines⟩

theorem manageDisk_raises {s : System} {i : Fin maxDevices} (busy : Busy s (.disk, i))
    (delayed : Delayed .disk (s.regs (.disk, i)).command) :
    Raises (.disk, i) s (manageEmulatedDisk s i) := by
  have installed := busy_installed busy
  unfold Busy at busy
  unfold manageEmulatedDisk
  rw [if_neg installed, if_pos busy]
  by_cases isSeek : getCommand (s.regs (.disk, i)).command = seekcyl
  · rw [if_pos isSeek]
    exact ⟨⟨rfl, rfl, rfl, rfl⟩, rfl⟩
  rw [if_neg isSeek]
  by_cases isRead : getCommand (s.regs (.disk, i)).command = readblk
  · rw [if_pos isRead]
    have counted := readDiskBlock_count (s.aimDisk i (s.regs (.disk, i)).command) i
      ((s.regs (.disk, i)).data0.setWidth 64)
    have same := readDiskBlock_lines (s.aimDisk i (s.regs (.disk, i)).command) i
      ((s.regs (.disk, i)).data0.setWidth 64)
    generalize readDiskBlock _ i _ = r at counted same ⊢
    have done : ¬ r.1 < 0 := by omega
    dsimp only
    rw [if_neg done]
    exact @raises_finish (.disk, i) s r.2 (aimed_lines same) _
  rw [if_neg isRead, if_pos ((delayed.resolve_left isSeek).resolve_left isRead)]
  have same := writeDiskBlock_lines (s.aimDisk i (s.regs (.disk, i)).command) i
    ((s.regs (.disk, i)).data0.setWidth 64)
  generalize writeDiskBlock _ i _ = r at same ⊢
  -- the result is unsigned
  have done : ¬ r.1 < 0 := by omega
  dsimp only
  rw [if_neg done]
  exact @raises_finish (.disk, i) s r.2 (aimed_lines same) _

theorem printerSend_lines (s : System) (i : Fin maxDevices) (c : Byte) :
    SameLines s (printerSend s i c) := ⟨⟨rfl, rfl, rfl, rfl⟩, rfl⟩

theorem managePrinter_raises {s : System} {i : Fin maxDevices} (busy : Busy s (.printer, i))
    (delayed : Delayed .printer (s.regs (.printer, i)).command) :
    Raises (.printer, i) s (manageEmulatedPrinter s i) := by
  unfold Busy at busy
  have isPrint : (s.regs (.printer, i)).command = printChar := delayed
  unfold manageEmulatedPrinter
  rw [if_pos busy, if_pos isPrint]
  have same := printerSend_lines s i ((s.regs (.printer, i)).data0.setWidth 8)
  dsimp only
  generalize printerSend s i _ = t at same ⊢
  obtain ⟨fixed, lines⟩ : Raises (.printer, i) s (t.raiseLine DeviceClass.printer.line i) :=
    raises_line same
  exact ⟨⟨fixed.installed, fixed.mask, fixed.physicalTimers, fixed.scheduled⟩, lines⟩

theorem manage_raises {s : System} {dev : Dev} (busy : Busy s dev)
    (delayed : Delayed dev.1 (s.regs dev).command) : Raises dev s (manage s dev) := by
  obtain ⟨c, i⟩ := dev
  cases c with
  | printer => exact managePrinter_raises busy delayed
  | tape => exact manageTape_raises busy delayed
  | disk => exact manageDisk_raises busy delayed

theorem manage_own (s : System) (dev : Dev) : OwnLine dev True False s (manage s dev) := by
  rcases manage_cases s dev with same | ⟨busy, delayed, -⟩
  · rw [same]
    exact own_same ⟨⟨rfl, rfl, rfl, rfl⟩, rfl⟩
  · exact raises_own (manage_raises busy delayed)

/-! What every action keeps of the lines. -/

theorem lineUp_own {dev other : Dev} {raises clears : Prop} {s s' : System}
    (own : OwnLine other raises clears s s') (spared : dev = other → ¬ clears) (up : LineUp s dev) :
    LineUp s' dev := by
  unfold LineUp
  rcases own.lines with same | ⟨_, raised⟩ | ⟨allowed, cleared⟩
  · rw [same]
    exact up
  · rw [raised]
    exact lineUp_raise _ _ up
  · rw [cleared]
    apply lineUp_clear _ up
    by_cases line : dev.1.line = other.1.line
    · right
      intro number
      exact spared (Prod.ext (line_inj line) number) allowed
    · left
      exact line

theorem irqTimer_lines (s : System) (core : Fin 4) :
    (irqTimer s core).installed = s.installed ∧ ((irqTimer s core).lines = s.lines ∨
      (irqTimer s core).lines = (s.raiseLine ilTimer core).lines) := by
  unfold irqTimer
  dsimp only
  split_ifs
  · exact ⟨rfl, Or.inr rfl⟩
  · exact ⟨rfl, Or.inl rfl⟩

theorem setTIMER_lines (s : System) (core : Fin 4) (microseconds : Nat) :
    (setTIMER s core microseconds).installed = s.installed ∧
      (setTIMER s core microseconds).lines = (s.clearLine ilTimer core).lines := by
  unfold setTIMER
  dsimp only
  split_ifs
  · exact ⟨rfl, rfl⟩
  · exact ⟨rfl, rfl⟩

theorem rearm_lines (s : System) (currentTime : Nat) (res : Int) (next : Timer) :
    (rearm s currentTime res next).installed = s.installed ∧
      (rearm s currentTime res next).lines = s.lines := by
  unfold rearm
  generalize (if res = 0 then _ else disableVirtualCounter s.virtualTimer) = armed
  dsimp only
  split_ifs
  · exact ⟨rfl, rfl⟩
  · exact ⟨rfl, rfl⟩

theorem cIrqHandler_lines (s : System) (core : Fin 4) (source : BitVec 32) :
    (cIrqHandler s core source).installed = s.installed ∧
      ((cIrqHandler s core source).lines = (cleanInterruptLines s).lines ∨
        (cIrqHandler s core source).lines = (cleanInterruptLines (s.raiseLine ilTimer core)).lines) := by
  obtain ⟨tmp, t, read, installed, lines⟩ : ∃ tmp t,
      (if core = 0 then (source, s) else (s.locals s.met, { s with met := s.met + 1 })) = (tmp, t) ∧
        t.installed = s.installed ∧ t.lines = s.lines := by
    split_ifs
    · exact ⟨_, _, rfl, rfl, rfl⟩
    · exact ⟨_, _, rfl, rfl, rfl⟩
  unfold cIrqHandler
  rw [read]
  obtain ⟨installed', lines'⟩ : (if tmp &&& 0x02 ≠ 0 then irqTimer t core else t).installed =
      s.installed ∧ ((if tmp &&& 0x02 ≠ 0 then irqTimer t core else t).lines = s.lines ∨
        (if tmp &&& 0x02 ≠ 0 then irqTimer t core else t).lines =
          (s.raiseLine ilTimer core).lines) := by
    have bits : (t.raiseLine ilTimer core).lines = (s.raiseLine ilTimer core).lines := by
      unfold System.raiseLine
      rw [lines]
    obtain ⟨same, raised⟩ := irqTimer_lines t core
    rw [installed] at same
    rw [lines, bits] at raised
    split_ifs
    · exact ⟨same, raised⟩
    · exact ⟨installed, Or.inl lines⟩
  dsimp only
  generalize (if tmp &&& 0x02 ≠ 0 then irqTimer t core else t) = u at installed' lines' ⊢
  have cleaned : ∀ v : System, v.lines = s.lines ∨ v.lines = (s.raiseLine ilTimer core).lines →
      v.installed = s.installed → (cleanInterruptLines v).lines = (cleanInterruptLines s).lines ∨
        (cleanInterruptLines v).lines = (cleanInterruptLines (s.raiseLine ilTimer core)).lines := by
    intro v same there
    rcases same with same | same
    · left
      simp only [cleanInterruptLines, same, there]
    · right
      simp only [cleanInterruptLines, same, there]
      rfl
  split_ifs
  · exact ⟨installed', cleaned _ lines' installed'⟩
  · exact ⟨installed', cleaned _ lines' installed'⟩

def ClosesDevice (dev : Dev) (a : Act) : Prop :=
  ∃ block r, a = .request dev block r ∧ Closes dev.1 r.command

theorem step_installed (s : System) (a : Act) : (step s a).installed = s.installed := by
  cases a with
  | request dev block r => exact (mailbox_own { s with ram := storeReg s.ram block r } dev block).installed
  | expire next =>
    rcases expire_cases s next with ⟨same, _⟩ | ⟨r, q, _, _, run⟩
    · rw [step, same]
    · rw [step, run]
      unfold manageTimer
      cases owner r with
      | none => rfl
      | some dev => exact (manage_own { s with queue := q } dev).installed
  | rearm res next => exact (rearm_lines s _ res next).1
  | clean => rfl
  | irq core source => exact (cIrqHandler_lines s core source).1
  | timer core microseconds => exact (setTIMER_lines s core microseconds).1
  | tick count => rfl
  | write ram mask => rfl

/-- Nothing but an acknowledgement or a reset takes down the line of an installed device. -/
theorem lineUp_step {s : System} {dev : Dev} {a : Act} (up : LineUp s dev)
    (installed : Installed s dev) (spared : ¬ ClosesDevice dev a) : LineUp (step s a) dev := by
  cases a with
  | request other block r =>
    have own := mailbox_own { s with ram := storeReg s.ram block r } other block
    apply lineUp_own own _ up
    rintro rfl closes
    rw [loadReg_storeReg] at closes
    exact spared ⟨block, r, rfl, closes⟩
  | expire next =>
    rcases expire_cases s next with ⟨same, _⟩ | ⟨r, q, _, _, run⟩
    · rw [step, same]
      exact up
    · rw [step, run]
      unfold manageTimer
      cases owner r with
      | none => exact up
      | some other => exact lineUp_own (manage_own { s with queue := q } other) (fun _ => id) up
  | rearm res next =>
    unfold LineUp
    rw [step, (rearm_lines s _ res next).2]
    exact up
  | clean => exact lineUp_clean up installed
  | irq core source =>
    unfold LineUp
    rcases (cIrqHandler_lines s core source).2 with lines | lines
    · rw [step, lines]
      exact lineUp_clean up installed
    · rw [step, lines]
      exact lineUp_clean (lineUp_raise _ _ up) installed
  | timer core microseconds =>
    unfold LineUp
    rw [step, (setTIMER_lines s core microseconds).2]
    exact lineUp_clear (Or.inl (line_not_timer dev.1)) up
  | tick count => exact up
  | write ram mask => exact up

end Emulated
