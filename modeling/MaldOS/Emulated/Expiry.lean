import MaldOS.Emulated.Devices

/-!
The expiry of a device's timer: the work of the command that waited for it, and
the report of its outcome to the client.
-/
namespace Emulated
open Arch ByteMemory Registers ArmTimers EmulatedTimers

/-- The work of the command in flight, with the status it ends in. -/
def perform (s : System) (dev : Dev) : BitVec 32 × System :=
  let r := s.regs dev
  match dev with
  | (.printer, i) =>
    let s := printerSend s i (r.data0.setWidth 8)
    (deviceReady, s.setPrinter i { s.printers i with executingCommand := reset })
  | (.tape, i) =>
    if r.command = skipblk then
      let (res, s) := tapeNextBlock s i
      (if res < 0 then skipError else deviceReady, s)
    else if r.command = backblk then
      let (res, s) := tapePrevBlock s i
      (if res < 0 then backBlockError else deviceReady, s)
    else
      let (res, s) := readTapeBlock s i (r.data0.setWidth 64)
      if res < 0 then (readError, s)
      else
        let (res, s) := updateTapeHead (s.moveTape i (u32 ((s.tapes i).blockIndex + 1))) i
        (if res < 0 then readError else deviceReady, s)
  | (.disk, i) =>
    if getCommand r.command = seekcyl then
      (deviceReady, s.setDisk i
        { s.disks i with currentCylinder := (getCommandCylnum r.command).toNat })
    else if getCommand r.command = readblk then
      let (res, s) := readDiskBlock (s.aimDisk i r.command) i (r.data0.setWidth 64)
      (if res < 0 then readError else deviceReady, s)
    else
      let (res, s) := writeDiskBlock (s.aimDisk i r.command) i (r.data0.setWidth 64)
      (if res < 0 then writeError else deviceReady, s)

def System.report (s : System) (dev : Dev) (status : BitVec 32) : System :=
  (s.setRegs dev fun r => { r with status := status }).finish dev

theorem manage_idle {s : System} {dev : Dev} (idle : ¬ Busy s dev) : manage s dev = s := by
  obtain ⟨c, i⟩ := dev
  unfold Busy at idle
  cases c with
  | printer => simp only [manage, manageEmulatedPrinter, if_neg idle]
  | tape => simp only [manage, manageEmulatedTape, if_neg idle, ite_self]
  | disk => simp only [manage, manageEmulatedDisk, if_neg idle, ite_self]

theorem busy_installed {s : System} {dev : Dev} (busy : Busy s dev) :
    (s.regs dev).status ≠ deviceNotInstalled := by
  rw [busy]
  decide

theorem manage_odd {s : System} {dev : Dev} (odd : ¬ Delayed dev.1 (s.regs dev).command) :
    manage s dev = s := by
  obtain ⟨c, i⟩ := dev
  cases c with
  | printer =>
    have other : (s.regs (.printer, i)).command ≠ printChar := odd
    simp only [manage, manageEmulatedPrinter, if_neg other, ite_self]
  | tape =>
    simp only [Delayed, not_or] at odd
    simp only [manage, manageEmulatedTape, odd, ↓reduceIte, ite_self]
  | disk =>
    simp only [Delayed, not_or] at odd
    simp only [manage, manageEmulatedDisk, odd, ↓reduceIte, ite_self]

/-- The three expiry handlers do the work, report it, and touch the interrupt lines. -/
theorem manage_performs {s : System} {dev : Dev} (busy : Busy s dev)
    (delayed : Delayed dev.1 (s.regs dev).command) :
    ∃ lines, manage s dev =
      { (perform s dev).2.report dev (perform s dev).1 with lines := lines } := by
  have installed := busy_installed busy
  obtain ⟨c, i⟩ := dev
  unfold Busy at busy
  cases c with
  | printer =>
    have isPrint : (s.regs (.printer, i)).command = printChar := delayed
    simp only [manage, manageEmulatedPrinter, if_pos busy, if_pos isPrint, perform]
    exact ⟨_, rfl⟩
  | tape =>
    simp only [manage, manageEmulatedTape, if_neg installed, if_pos busy, perform]
    by_cases isSkip : (s.regs (.tape, i)).command = skipblk
    · simp only [if_pos isSkip]
      exact ⟨_, rfl⟩
    simp only [if_neg isSkip]
    by_cases isBack : (s.regs (.tape, i)).command = backblk
    · simp only [if_pos isBack]
      exact ⟨_, rfl⟩
    simp only [if_neg isBack]
    have isRead : (s.regs (.tape, i)).command = readblk := by
      rcases delayed with wrong | wrong | right
      · exact absurd wrong isSkip
      · exact absurd wrong isBack
      · exact right
    simp only [if_pos isRead]
    split_ifs
    · exact ⟨_, rfl⟩
    · exact ⟨_, rfl⟩
    · exact ⟨_, rfl⟩
  | disk =>
    simp only [manage, manageEmulatedDisk, if_neg installed, if_pos busy, perform]
    by_cases isSeek : getCommand (s.regs (.disk, i)).command = seekcyl
    · simp only [if_pos isSeek]
      exact ⟨_, rfl⟩
    simp only [if_neg isSeek]
    by_cases isRead : getCommand (s.regs (.disk, i)).command = readblk
    · simp only [if_pos isRead]
      split_ifs
      · exact ⟨_, rfl⟩
      · exact ⟨_, rfl⟩
    simp only [if_neg isRead]
    have isWrite : getCommand (s.regs (.disk, i)).command = writeblk := by
      rcases delayed with wrong | wrong | right
      · exact absurd wrong isSeek
      · exact absurd wrong isRead
      · exact right
    simp only [if_pos isWrite]
    split_ifs
    · exact ⟨_, rfl⟩
    · exact ⟨_, rfl⟩

/-- The work touches no register but `data1`. -/
structure Worked (dev : Dev) (s s' : System) : Prop where
  quiet : Quiet dev s s'
  port : ∃ data1, s'.ports dev = ⟨s.block dev, { s.regs dev with data1 := data1 }⟩

theorem worked_same {dev : Dev} {s s' : System} (quiet : Quiet dev s s')
    (same : s'.ports dev = s.ports dev) : Worked dev s s' := ⟨quiet, (s.regs dev).data1, same⟩

theorem Worked.after {dev : Dev} {s s' s'' : System} (work : Worked dev s' s'')
    (quiet : Quiet dev s s') (same : s'.ports dev = s.ports dev) : Worked dev s s'' := by
  obtain ⟨data1, port⟩ := work.port
  refine ⟨quiet.trans work.quiet, data1, ?_⟩
  rw [port, System.block, System.regs, same]
  rfl

theorem tapeNextBlock_worked (s : System) (i : Fin maxDevices) :
    Worked (.tape, i) s (tapeNextBlock s i).2 := by
  unfold tapeNextBlock
  split_ifs
  · exact worked_same (quiet_outside _ _ _ _ _ _ _) rfl
  · obtain ⟨quiet, port⟩ := updateTapeHead_spec (s.moveTape i (u32 ((s.tapes i).blockIndex + 1))) i
    exact Worked.after ⟨quiet, port⟩ (quiet_moveTape _ _ _) rfl

theorem tapePrevBlock_worked (s : System) (i : Fin maxDevices) :
    Worked (.tape, i) s (tapePrevBlock s i).2 := by
  unfold tapePrevBlock
  split_ifs
  · obtain ⟨quiet, port⟩ := updateTapeHead_spec (s.moveTape i ((s.tapes i).blockIndex - 1)) i
    exact Worked.after ⟨quiet, port⟩ (quiet_moveTape _ _ _) rfl
  · exact worked_same (quiet_outside _ _ _ _ _ _ _) rfl

theorem readTapeBlock_worked (s : System) (i : Fin maxDevices) (buffer : BitVec 64) :
    Quiet (.tape, i) s (readTapeBlock s i buffer).2 ∧
      (readTapeBlock s i buffer).2.ports = s.ports := by
  unfold readTapeBlock
  dsimp only
  split_ifs
  · exact ⟨quiet_outside _ _ _ _ _ _ _, rfl⟩
  · exact ⟨quiet_outside _ _ _ _ _ _ _, rfl⟩

theorem readDiskBlock_worked (s : System) (i : Fin maxDevices) (buffer : BitVec 64) :
    Quiet (.disk, i) s (readDiskBlock s i buffer).2 ∧
      (readDiskBlock s i buffer).2.ports = s.ports := by
  unfold readDiskBlock
  dsimp only
  split_ifs
  · exact ⟨quiet_outside _ _ _ _ _ _ _, rfl⟩
  · exact ⟨quiet_outside _ _ _ _ _ _ _, rfl⟩

theorem writeDiskBlock_worked (s : System) (i : Fin maxDevices) (buffer : BitVec 64) :
    Quiet (.disk, i) s (writeDiskBlock s i buffer).2 ∧
      (writeDiskBlock s i buffer).2.ports = s.ports := by
  unfold writeDiskBlock
  dsimp only
  split_ifs
  · exact ⟨quiet_outside _ _ _ _ _ _ _, rfl⟩
  · exact ⟨quiet_outside _ _ _ _ _ _ _, rfl⟩

theorem printerSend_worked (s : System) (i : Fin maxDevices) (c : Byte) :
    Quiet (.printer, i) s (printerSend s i c) ∧ (printerSend s i c).ports = s.ports :=
  ⟨⟨⟨fun _ _ => rfl, fun _ => rfl, fun _ => rfl, rfl⟩, rfl, rfl⟩, rfl⟩

theorem perform_worked (s : System) (dev : Dev) : Worked dev s (perform s dev).2 := by
  obtain ⟨c, i⟩ := dev
  unfold perform
  cases c with
  | printer =>
    obtain ⟨quiet, same⟩ := printerSend_worked s i ((s.regs (.printer, i)).data0.setWidth 8)
    exact worked_same (quiet.trans (quiet_setPrinter _ _ _ _)) (congrFun same _)
  | tape =>
    by_cases isSkip : (s.regs (.tape, i)).command = skipblk
    · simp only [if_pos isSkip]
      exact tapeNextBlock_worked s i
    by_cases isBack : (s.regs (.tape, i)).command = backblk
    · simp only [if_neg isSkip, if_pos isBack]
      exact tapePrevBlock_worked s i
    simp only [if_neg isSkip, if_neg isBack]
    obtain ⟨quiet, same⟩ := readTapeBlock_worked s i ((s.regs (.tape, i)).data0.setWidth 64)
    by_cases failed : (readTapeBlock s i ((s.regs (.tape, i)).data0.setWidth 64)).1 < 0
    · simp only [if_pos failed]
      exact worked_same quiet (congrFun same _)
    · simp only [if_neg failed]
      generalize (readTapeBlock s i ((s.regs (.tape, i)).data0.setWidth 64)).2 = t at quiet same
      obtain ⟨moved, port⟩ := updateTapeHead_spec (t.moveTape i (u32 ((t.tapes i).blockIndex + 1))) i
      exact Worked.after ⟨moved, port⟩ (quiet.trans (quiet_moveTape _ _ _)) (congrFun same _)
  | disk =>
    have aimed : Quiet (.disk, i) s (s.aimDisk i (s.regs (.disk, i)).command) :=
      quiet_setDisk _ _ _ _ rfl
    by_cases isSeek : getCommand (s.regs (.disk, i)).command = seekcyl
    · simp only [if_pos isSeek]
      exact worked_same (quiet_setDisk _ _ _ _ rfl) rfl
    by_cases isRead : getCommand (s.regs (.disk, i)).command = readblk
    · simp only [if_neg isSeek, if_pos isRead]
      obtain ⟨quiet, same⟩ := readDiskBlock_worked (s.aimDisk i (s.regs (.disk, i)).command) i
        ((s.regs (.disk, i)).data0.setWidth 64)
      exact worked_same (aimed.trans quiet) (congrFun same _)
    · simp only [if_neg isSeek, if_neg isRead]
      obtain ⟨quiet, same⟩ := writeDiskBlock_worked (s.aimDisk i (s.regs (.disk, i)).command) i
        ((s.regs (.disk, i)).data0.setWidth 64)
      exact worked_same (aimed.trans quiet) (congrFun same _)

theorem perform_status (s : System) (dev : Dev) :
    (perform s dev).1 ≠ deviceBusy ∧ (perform s dev).1 ≠ deviceNotInstalled := by
  obtain ⟨c, i⟩ := dev
  unfold perform
  cases c with
  | printer => simp
  | tape => dsimp only; split_ifs <;> simp
  | disk => dsimp only; split_ifs <;> simp

/-- The command in flight in `s` was executed, and its outcome reported to its client. -/
structure Completed (dev : Dev) (s s' : System) : Prop where
  quiet : Quiet dev s s'
  fat : s'.fat = (perform s dev).2.fat
  tapes : s'.tapes = (perform s dev).2.tapes
  disks : s'.disks = (perform s dev).2.disks
  printers : s'.printers = (perform s dev).2.printers
  screen : s'.screen = (perform s dev).2.screen
  status : (s'.regs dev).status = (perform s dev).1
  ram : s'.ram = storeReg (perform s dev).2.ram (s.block dev) (s'.regs dev)
  copied : loadReg s'.ram (s.block dev) = s'.regs dev
  block : s'.block dev = 0

theorem manage_completes {s : System} {dev : Dev} (busy : Busy s dev)
    (delayed : Delayed dev.1 (s.regs dev).command) : Completed dev s (manage s dev) := by
  obtain ⟨lines, run⟩ := manage_performs busy delayed
  obtain ⟨quiet, data1, port⟩ := perform_worked s dev
  obtain ⟨t, reported⟩ : ∃ t, t = (perform s dev).2.setRegs dev
    fun r => { r with status := (perform s dev).1 } := ⟨_, rfl⟩
  have block : t.block dev = s.block dev := by simp [reported, System.block, port]
  have same : manage s dev = { t.finish dev with lines := lines } := by
    rw [run, reported]
    rfl
  have ram : (manage s dev).ram = storeReg (perform s dev).2.ram (s.block dev)
      ((manage s dev).regs dev) := by
    rw [same]
    simp only [System.finish, System.answer, System.regs, setPort_ports, block]
    rw [reported]
    rfl
  refine ⟨?_, ?_, ?_, ?_, ?_, ?_, ?_, ram, ?_, ?_⟩
  · rw [run]
    exact quiet.trans ((quiet_setRegs _ _ _).trans ((quiet_outside _ _ _ _ _ _ _).trans
      ((quiet_setPort _ _ _).trans (quiet_outside _ _ _ _ _ _ _))))
  · rw [run]
    rfl
  · rw [run]
    rfl
  · rw [run]
    rfl
  · rw [run]
    rfl
  · rw [run]
    rfl
  · rw [same, reported]
    simp [System.finish, System.regs]
  · rw [ram]
    exact loadReg_storeReg _ _ _
  · rw [same]
    simp [System.finish, System.block]

theorem completed_idle {dev : Dev} {s s' : System} (completed : Completed dev s s') :
    ¬ Busy s' dev := by
  unfold Busy
  rw [completed.status]
  exact (perform_status s dev).1

/-- An expiry ends the command in flight or does nothing. -/
theorem manage_cases (s : System) (dev : Dev) :
    manage s dev = s ∨ Busy s dev ∧ Delayed dev.1 (s.regs dev).command ∧
      Completed dev s (manage s dev) := by
  by_cases busy : Busy s dev
  · by_cases delayed : Delayed dev.1 (s.regs dev).command
    · exact Or.inr ⟨busy, delayed, manage_completes busy delayed⟩
    · exact Or.inl (manage_odd delayed)
  · exact Or.inl (manage_idle busy)

end Emulated
