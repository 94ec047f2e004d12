import MaldOS.Emulated.CarriedOut

/-!
The private states of the devices: the position of a tape, the geometry and the
heads of a disk, the cursor of a printer. What serving one device does to them.
-/
namespace Emulated
open Arch ByteMemory Registers ArmTimers EmulatedTimers Runs

structure SameUnits (s s' : System) : Prop where
  tapes : s'.tapes = s.tapes
  disks : s'.disks = s.disks
  printers : s'.printers = s.printers

/-- What a RESET does to the private state of a device. -/
def System.rewind (s : System) : Dev → System
  | (.printer, _) => s
  | (.tape, i) => s.moveTape i 0
  | (.disk, i) => s.setDisk i
      { s.disks i with currentCylinder := 0, currentHead := 0, currentSector := 0 }

/-- The private states after a message: as before, or rewound where `resets` holds. -/
def Placed (dev : Dev) (resets : Prop) (s s' : System) : Prop :=
  SameUnits s s' ∨ resets ∧ SameUnits (s.rewind dev) s'

section
variable {dev : Dev} {resets : Prop} {s s' s'' : System}

theorem sameUnits_trans (first : SameUnits s s') (second : SameUnits s' s'') : SameUnits s s'' :=
  ⟨second.tapes.trans first.tapes, second.disks.trans first.disks,
    second.printers.trans first.printers⟩

theorem placed_same (tapes : s'.tapes = s.tapes) (disks : s'.disks = s.disks)
    (printers : s'.printers = s.printers) : Placed dev resets s s' :=
  Or.inl ⟨tapes, disks, printers⟩

theorem placed_ite {c : Prop} [Decidable c] (yes : c → Placed dev resets s s')
    (no : ¬ c → Placed dev resets s s'') : Placed dev resets s (if c then s' else s'') := by
  split_ifs with h
  · exact yes h
  · exact no h

theorem placed_answer (placed : Placed dev resets s s') (registers : BitVec 64) :
    Placed dev resets s (s'.answer dev registers) := by
  rcases placed with same | ⟨allowed, rewound⟩
  · exact placed_same same.tapes same.disks same.printers
  · exact Or.inr ⟨allowed, rewound.tapes, rewound.disks, rewound.printers⟩

end

theorem setDeviceTimer_units (s : System) (microseconds : Nat) (type : TimerType)
    (i : Fin maxDevices) : SameUnits s (setDeviceTimer s microseconds type i) := by
  obtain ⟨virtualTimer, armed⟩ := setDeviceTimer_eq s microseconds type i
  rw [armed]
  exact ⟨rfl, rfl, rfl⟩

theorem updateTapeHead_units (s : System) (i : Fin maxDevices) :
    SameUnits s (updateTapeHead s i).2 := by
  unfold updateTapeHead
  dsimp only
  split_ifs
  · exact ⟨rfl, rfl, rfl⟩
  · exact ⟨rfl, rfl, rfl⟩
  · exact ⟨rfl, rfl, rfl⟩

theorem startDisk_units {s t : System} (i : Fin maxDevices) (registers : BitVec 64)
    (message : DevReg) (timetodest : Nat) (same : SameUnits s t) :
    SameUnits s (t.startDisk i registers message timetodest) := by
  unfold System.startDisk
  have armed := setDeviceTimer_units (t.setPort (.disk, i) ⟨registers, { t.regs (.disk, i) with
    command := message.command, data0 := message.data0, status := deviceBusy }⟩) timetodest .disk i
  exact ⟨armed.tapes.trans same.tapes, armed.disks.trans same.disks,
    armed.printers.trans same.printers⟩

theorem startTape_units {s t : System} (i : Fin maxDevices) (registers : BitVec 64)
    (command data0 : BitVec 32) (same : SameUnits s t) :
    SameUnits s (t.startTape i registers command data0) := by
  unfold System.startTape
  have armed := setDeviceTimer_units ((t.setPort (.tape, i) ⟨registers, { t.regs (.tape, i) with
    command := command, data0 := data0, status := deviceBusy }⟩).answer (.tape, i) registers)
      1000 .tape i
  exact ⟨armed.tapes.trans same.tapes, armed.disks.trans same.disks,
    armed.printers.trans same.printers⟩

theorem printer_placed (s : System) (i : Fin maxDevices) (registers : BitVec 64) (resets : Prop) :
    Placed (.printer, i) resets s (emulatedPrinterMailbox s i registers) := by
  unfold emulatedPrinterMailbox
  apply placed_ite
  · exact fun _ => placed_same rfl rfl rfl
  intro _
  apply placed_ite
  · exact fun _ => placed_same rfl rfl rfl
  intro _
  apply placed_ite
  · exact fun _ => placed_same rfl rfl rfl
  intro _
  apply placed_ite
  · exact fun _ => placed_ite (fun _ => placed_same rfl rfl rfl) fun _ => placed_same rfl rfl rfl
  intro _
  apply placed_ite
  · exact fun _ => placed_same rfl rfl rfl
  intro _
  apply placed_ite
  · intro _
    apply placed_ite
    · intro _
      obtain ⟨tapes, disks, printers⟩ := setDeviceTimer_units _ 8 .printer i
      exact placed_same tapes disks printers
    · exact fun _ => placed_same rfl rfl rfl
  · exact fun _ => placed_same rfl rfl rfl

theorem disk_placed (s : System) (i : Fin maxDevices) (registers : BitVec 64) :
    Placed (.disk, i) (commandOf .disk (loadReg s.ram registers).command = reset) s
      (emulatedDiskMailbox s i registers) := by
  unfold emulatedDiskMailbox
  apply placed_ite
  · exact fun _ => placed_same rfl rfl rfl
  intro _
  apply placed_ite
  · exact fun _ => placed_same rfl rfl rfl
  intro _
  apply placed_ite
  · exact fun isReset => Or.inr ⟨isReset, rfl, rfl, rfl⟩
  intro _
  apply placed_ite
  · exact fun _ => placed_ite (fun _ => placed_same rfl rfl rfl) fun _ => placed_same rfl rfl rfl
  intro _
  apply placed_ite
  · exact fun _ => placed_same rfl rfl rfl
  intro _
  apply placed_ite
  · intro _
    apply placed_answer
    apply placed_ite
    · intro _
      apply placed_ite
      · exact fun _ => placed_same rfl rfl rfl
      · exact fun _ => Or.inl (startDisk_units i _ _ _ ⟨rfl, rfl, rfl⟩)
    · exact fun _ => placed_same rfl rfl rfl
  intro _
  apply placed_ite
  · intro _
    apply placed_answer
    apply placed_ite
    · intro _
      apply placed_ite
      · exact fun _ => placed_same rfl rfl rfl
      · exact fun _ => Or.inl (startDisk_units i _ _ _ ⟨rfl, rfl, rfl⟩)
    · exact fun _ => placed_same rfl rfl rfl
  · exact fun _ => placed_same rfl rfl rfl

theorem tape_placed (s : System) (i : Fin maxDevices) (registers : BitVec 64) :
    Placed (.tape, i) (commandOf .tape (loadReg s.ram registers).command = reset) s
      (emulatedTapeMailbox s i registers) := by
  unfold emulatedTapeMailbox
  apply placed_ite
  · exact fun _ => placed_same rfl rfl rfl
  intro _
  apply placed_ite
  · exact fun _ => placed_same rfl rfl rfl
  intro _
  apply placed_ite
  · intro isReset
    have same := updateTapeHead_units (((s.setRegs (.tape, i) fun r =>
      { r with mailbox := 1 }).setRegs (.tape, i) fun r =>
        { r with command := reset, status := deviceReady }).moveTape i 0) i
    exact Or.inr ⟨isReset, same.tapes, same.disks, same.printers⟩
  intro _
  apply placed_ite
  · intro _
    apply placed_answer
    apply placed_ite
    · exact fun _ => placed_same rfl rfl rfl
    · exact fun _ => placed_same rfl rfl rfl
  intro _
  apply placed_ite
  · exact fun _ => placed_same rfl rfl rfl
  intro _
  apply placed_ite
  · intro _
    apply placed_ite
    · exact fun _ => Or.inl (startTape_units i _ _ _ ⟨rfl, rfl, rfl⟩)
    · exact fun _ => placed_same rfl rfl rfl
  intro _
  apply placed_ite
  · intro _
    apply placed_ite
    · exact fun _ => Or.inl (startTape_units i _ _ _ ⟨rfl, rfl, rfl⟩)
    · exact fun _ => placed_same rfl rfl rfl
  intro _
  apply placed_ite
  · intro _
    apply placed_ite
    · intro _
      apply placed_ite
      · exact fun _ => placed_same rfl rfl rfl
      · exact fun _ => Or.inl (startTape_units i _ _ _ ⟨rfl, rfl, rfl⟩)
    · exact fun _ => placed_same rfl rfl rfl
  · exact fun _ => placed_same rfl rfl rfl

theorem mailbox_placed (s : System) (dev : Dev) (registers : BitVec 64) :
    Placed dev (commandOf dev.1 (loadReg s.ram registers).command = reset) s
      (mailbox s dev registers) := by
  obtain ⟨c, i⟩ := dev
  cases c with
  | printer => exact printer_placed s i registers _
  | tape => exact tape_placed s i registers
  | disk => exact disk_placed s i registers

/-! The branches for RESET, of a device that is there. -/

theorem printer_reset {s : System} {i : Fin maxDevices} {registers : BitVec 64}
    (given : registers ≠ 0) (there : (s.regs (.printer, i)).status ≠ deviceNotInstalled)
    (isReset : getCommand (loadReg s.ram registers).command = reset) :
    SameUnits s (emulatedPrinterMailbox s i registers) ∧
      ((emulatedPrinterMailbox s i registers).regs (.printer, i)).status = deviceReady := by
  unfold emulatedPrinterMailbox
  rw [if_neg given, if_neg (fun absent => there absent.1), if_pos isReset]
  refine ⟨⟨rfl, rfl, rfl⟩, ?_⟩
  simp [System.regs]

theorem tape_reset {s : System} {i : Fin maxDevices} {registers : BitVec 64}
    (given : registers ≠ 0) (there : (s.regs (.tape, i)).status ≠ deviceNotInstalled)
    (isReset : (loadReg s.ram registers).command = reset) :
    ∃ t, SameUnits (s.rewind (.tape, i)) t ∧ (t.regs (.tape, i)).status = deviceReady ∧
      t.lines = s.lines ∧
      emulatedTapeMailbox s i registers =
        (((updateTapeHead t i).2.raiseLine DeviceClass.tape.line i).answer (.tape, i) registers) := by
  obtain ⟨t, marked⟩ : ∃ t, t = s.setRegs (.tape, i) fun r => { r with mailbox := 1 } := ⟨_, rfl⟩
  have there' : (t.regs (.tape, i)).status ≠ deviceNotInstalled := by
    simpa [marked, System.regs] using there
  have isReset' : (loadReg t.ram registers).command = reset := by
    rw [marked]
    exact isReset
  refine ⟨(t.setRegs (.tape, i) fun r =>
    { r with command := reset, status := deviceReady }).moveTape i 0, ?_, ?_, ?_, ?_⟩
  · rw [marked]
    exact ⟨rfl, rfl, rfl⟩
  · simp [System.regs]
  · rw [marked]
    rfl
  · unfold emulatedTapeMailbox
    rw [if_neg given, ← marked]
    dsimp only
    rw [if_neg (fun absent => there' absent.1), if_pos isReset']

theorem disk_reset {s : System} {i : Fin maxDevices} {registers : BitVec 64}
    (given : registers ≠ 0) (there : (s.regs (.disk, i)).status ≠ deviceNotInstalled)
    (isReset : getCommand (loadReg s.ram registers).command = reset) :
    SameUnits (s.rewind (.disk, i)) (emulatedDiskMailbox s i registers) ∧
      ((emulatedDiskMailbox s i registers).regs (.disk, i)).status = deviceReady ∧
      (emulatedDiskMailbox s i registers).lines = (s.raiseLine DeviceClass.disk.line i).lines := by
  obtain ⟨t, marked⟩ : ∃ t, t = s.setRegs (.disk, i) fun r => { r with mailbox := 1 } := ⟨_, rfl⟩
  have there' : (t.regs (.disk, i)).status ≠ deviceNotInstalled := by
    simpa [marked, System.regs] using there
  have isReset' : getCommand (loadReg t.ram registers).command = reset := by
    rw [marked]
    exact isReset
  unfold emulatedDiskMailbox
  rw [if_neg given, ← marked]
  dsimp only
  rw [if_neg (fun absent => there' absent.1), if_pos isReset']
  refine ⟨?_, ?_, ?_⟩
  · rw [marked]
    exact ⟨rfl, rfl, rfl⟩
  · simp [System.regs]
  · rw [marked]
    rfl

theorem reset_rewinds {s : System} {dev : Dev} {registers : BitVec 64} (given : registers ≠ 0)
    (there : (s.regs dev).status ≠ deviceNotInstalled)
    (isReset : commandOf dev.1 (loadReg s.ram registers).command = reset) :
    SameUnits (s.rewind dev) (mailbox s dev registers) ∧
      ((mailbox s dev registers).regs dev).status = deviceReady := by
  obtain ⟨c, i⟩ := dev
  cases c with
  | printer => exact printer_reset given there isReset
  | tape =>
    obtain ⟨t, rewound, ready, _, run⟩ := tape_reset given there isReset
    have head := updateTapeHead_units t i
    obtain ⟨_, data1, port⟩ := updateTapeHead_spec t i
    rw [mailbox, run]
    constructor
    · exact sameUnits_trans rewound ⟨head.tapes, head.disks, head.printers⟩
    · simp only [System.regs, answer_ports, raiseLine_ports, port]
      exact ready
  | disk =>
    obtain ⟨units, ready, _⟩ := disk_reset given there isReset
    exact ⟨units, ready⟩

/-! The expiry of a timer moves its own device only. -/

structure Elsewhere (dev : Dev) (s s' : System) : Prop where
  tapes : ∀ i, (.tape, i) ≠ dev → s'.tapes i = s.tapes i
  disks : ∀ i, (.disk, i) ≠ dev → s'.disks i = s.disks i
  printers : ∀ i, (.printer, i) ≠ dev → s'.printers i = s.printers i

theorem elsewhere_same {dev : Dev} {s s' : System} (same : SameUnits s s') : Elsewhere dev s s' :=
  ⟨fun i _ => congrFun same.tapes i, fun i _ => congrFun same.disks i,
    fun i _ => congrFun same.printers i⟩

theorem elsewhere_trans {dev : Dev} {s s' s'' : System} (first : Elsewhere dev s s')
    (second : Elsewhere dev s' s'') : Elsewhere dev s s'' :=
  ⟨fun i apart => (second.tapes i apart).trans (first.tapes i apart),
    fun i apart => (second.disks i apart).trans (first.disks i apart),
    fun i apart => (second.printers i apart).trans (first.printers i apart)⟩

theorem elsewhere_setTape (s : System) (i : Fin maxDevices) (t : Tape) :
    Elsewhere (.tape, i) s (s.setTape i t) := by
  refine ⟨?_, fun _ _ => rfl, fun _ _ => rfl⟩
  intro j apart
  exact Function.update_of_ne (fun same => apart (congrArg _ same)) _ _

theorem elsewhere_setDisk (s : System) (i : Fin maxDevices) (d : Disk) :
    Elsewhere (.disk, i) s (s.setDisk i d) := by
  refine ⟨fun _ _ => rfl, ?_, fun _ _ => rfl⟩
  intro j apart
  exact Function.update_of_ne (fun same => apart (congrArg _ same)) _ _

theorem elsewhere_setPrinter (s : System) (i : Fin maxDevices) (p : Printer) :
    Elsewhere (.printer, i) s (s.setPrinter i p) := by
  refine ⟨fun _ _ => rfl, fun _ _ => rfl, ?_⟩
  intro j apart
  exact Function.update_of_ne (fun same => apart (congrArg _ same)) _ _

theorem elsewhere_rewind (s : System) (dev : Dev) : Elsewhere dev s (s.rewind dev) := by
  obtain ⟨c, i⟩ := dev
  cases c with
  | printer => exact elsewhere_same ⟨rfl, rfl, rfl⟩
  | tape => exact elsewhere_setTape s i _
  | disk => exact elsewhere_setDisk s i _

theorem mailbox_elsewhere (s : System) (dev : Dev) (registers : BitVec 64) :
    Elsewhere dev s (mailbox s dev registers) := by
  rcases mailbox_placed s dev registers with same | ⟨_, rewound⟩
  · exact elsewhere_same same
  · exact elsewhere_trans (elsewhere_rewind s dev) (elsewhere_same rewound)

theorem readTapeBlock_units (s : System) (i : Fin maxDevices) (buffer : BitVec 64) :
    SameUnits s (readTapeBlock s i buffer).2 := by
  unfold readTapeBlock
  dsimp only
  split_ifs
  · exact ⟨rfl, rfl, rfl⟩
  · exact ⟨rfl, rfl, rfl⟩

theorem readDiskBlock_units (s : System) (i : Fin maxDevices) (buffer : BitVec 64) :
    SameUnits s (readDiskBlock s i buffer).2 := by
  unfold readDiskBlock
  dsimp only
  split_ifs
  · exact ⟨rfl, rfl, rfl⟩
  · exact ⟨rfl, rfl, rfl⟩

theorem writeDiskBlock_units (s : System) (i : Fin maxDevices) (buffer : BitVec 64) :
    SameUnits s (writeDiskBlock s i buffer).2 := by
  unfold writeDiskBlock
  dsimp only
  split_ifs
  · exact ⟨rfl, rfl, rfl⟩
  · exact ⟨rfl, rfl, rfl⟩

theorem moved_head (s : System) (i : Fin maxDevices) (blockIndex : Nat) :
    Elsewhere (.tape, i) s (updateTapeHead (s.moveTape i blockIndex) i).2 :=
  elsewhere_trans (elsewhere_setTape s i _) (elsewhere_same (updateTapeHead_units _ i))

theorem tapeNextBlock_elsewhere (s : System) (i : Fin maxDevices) :
    Elsewhere (.tape, i) s (tapeNextBlock s i).2 := by
  unfold tapeNextBlock
  split_ifs
  · exact elsewhere_same ⟨rfl, rfl, rfl⟩
  · exact moved_head s i _

theorem tapePrevBlock_elsewhere (s : System) (i : Fin maxDevices) :
    Elsewhere (.tape, i) s (tapePrevBlock s i).2 := by
  unfold tapePrevBlock
  split_ifs
  · exact moved_head s i _
  · exact elsewhere_same ⟨rfl, rfl, rfl⟩

theorem printerSend_elsewhere (s : System) (i : Fin maxDevices) (c : Byte) :
    Elsewhere (.printer, i) s (printerSend s i c) := by
  refine ⟨fun _ _ => rfl, fun _ _ => rfl, ?_⟩
  intro j apart
  exact Function.update_of_ne (fun same => apart (congrArg _ same)) _ _

theorem elsewhere_snd {dev : Dev} {s : System} {c : Prop} [Decidable c] {r r' : BitVec 32 × System}
    (yes : Elsewhere dev s r.2) (no : Elsewhere dev s r'.2) :
    Elsewhere dev s (if c then r else r').2 := by
  split_ifs
  · exact yes
  · exact no

theorem perform_elsewhere (s : System) (dev : Dev) : Elsewhere dev s (perform s dev).2 := by
  obtain ⟨c, i⟩ := dev
  unfold perform
  cases c with
  | printer => exact elsewhere_trans (printerSend_elsewhere s i _) (elsewhere_setPrinter _ i _)
  | tape =>
    apply elsewhere_snd
    · exact tapeNextBlock_elsewhere s i
    apply elsewhere_snd
    · exact tapePrevBlock_elsewhere s i
    have read : Elsewhere (.tape, i) s _ :=
      elsewhere_same (readTapeBlock_units s i ((s.regs (.tape, i)).data0.setWidth 64))
    generalize readTapeBlock s i _ = r at read
    apply elsewhere_snd
    · exact read
    · exact elsewhere_trans read (moved_head r.2 i _)
  | disk =>
    apply elsewhere_snd
    · exact elsewhere_setDisk s i _
    have aimed : Elsewhere (.disk, i) s (s.aimDisk i (s.regs (.disk, i)).command) :=
      elsewhere_setDisk s i _
    apply elsewhere_snd
    · exact elsewhere_trans aimed (elsewhere_same (readDiskBlock_units _ i _))
    · exact elsewhere_trans aimed (elsewhere_same (writeDiskBlock_units _ i _))

theorem manage_elsewhere (s : System) (dev : Dev) : Elsewhere dev s (manage s dev) := by
  rcases manage_cases s dev with same | ⟨-, -, completed⟩
  · rw [same]
    exact elsewhere_same ⟨rfl, rfl, rfl⟩
  · have worked := perform_elsewhere s dev
    constructor
    · intro i apart
      rw [completed.tapes]
      exact worked.tapes i apart
    · intro i apart
      rw [completed.disks]
      exact worked.disks i apart
    · intro i apart
      rw [completed.printers]
      exact worked.printers i apart

structure SameUnit (dev : Dev) (s s' : System) : Prop where
  tape : ∀ i, dev = (.tape, i) → s'.tapes i = s.tapes i
  disk : ∀ i, dev = (.disk, i) → s'.disks i = s.disks i

theorem sameUnit_elsewhere {dev other : Dev} {s s' : System} (elsewhere : Elsewhere other s s')
    (apart : dev ≠ other) : SameUnit dev s s' := by
  constructor
  · rintro i rfl
    exact elsewhere.tapes i apart
  · rintro i rfl
    exact elsewhere.disks i apart

theorem step_sameUnit {s : System} {a : Act} {dev : Dev} (apart : ¬ Concerns s a dev) :
    SameUnit dev s (step s a) := by
  by_cases serving : a.Serving
  · cases a with
    | request other block r =>
      by_cases same : dev = other
      · subst same
        have null : block = 0 := by
          by_contra given
          exact apart (Or.inl ⟨block, r, rfl, given⟩)
        rw [step, null, mailbox_null]
        exact ⟨fun _ _ => rfl, fun _ _ => rfl⟩
      · have moved := mailbox_elsewhere { s with ram := storeReg s.ram block r } other block
        obtain ⟨tape, disk⟩ := sameUnit_elsewhere moved same
        exact ⟨tape, disk⟩
    | expire next =>
      rcases expire_cases s next with ⟨same, _⟩ | ⟨r, q, head, past, run⟩
      · rw [step, same]
        exact ⟨fun _ _ => rfl, fun _ _ => rfl⟩
      · rw [step, run]
        unfold manageTimer
        cases own : owner r with
        | none => exact ⟨fun _ _ => rfl, fun _ _ => rfl⟩
        | some other =>
          have ne : dev ≠ other := by
            rintro rfl
            exact apart (Or.inr ⟨⟨next, rfl⟩, r, _, head, past, own⟩)
          obtain ⟨tape, disk⟩ := sameUnit_elsewhere (manage_elsewhere { s with queue := q } other) ne
          exact ⟨tape, disk⟩
    | _ => exact absurd serving id
  · have aside := step_aside s serving
    exact ⟨fun i _ => congrFun aside.tapes i, fun i _ => congrFun aside.disks i⟩

end Emulated
