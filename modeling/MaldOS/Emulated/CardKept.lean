import MaldOS.Emulated.CarriedOut
import MaldOS.Hal.FatKeeps

/-!
Only the completion of a WRITEBLK changes what is on the card: the init functions
and all other actions leave the mounted volume as it is. Without a card no tape
and no disk ever gets a command.
-/
namespace Emulated
open Arch ByteMemory Registers ArmTimers EmulatedTimers Runs

def Writes (s : System) (dev : Dev) : Prop :=
  Busy s dev ∧ dev.1 = .disk ∧ getCommand (s.regs dev).command = writeblk

theorem readfile_keeps (s : System) (cluster : Nat) (p : BitVec 64) (seek length : Nat) :
    Fat.Keeps s.fat (s.readfile cluster p seek length).2.fat :=
  Fat.keeps_readfile (Option.some_get _).symm

theorem readlocal_keeps (s : System) (cluster seek : Nat) :
    Fat.Keeps s.fat (s.readlocal cluster seek).2.fat :=
  Fat.keeps_readfile (Option.some_get _).symm

theorem updateTapeHead_keeps (s : System) (i : Fin maxDevices) :
    Fat.Keeps s.fat (updateTapeHead s i).2.fat ∧ (updateTapeHead s i).2.ram = s.ram := by
  unfold updateTapeHead
  dsimp only
  split_ifs
  · exact ⟨Fat.keeps_refl _, rfl⟩
  · exact ⟨readlocal_keeps _ _ _, rfl⟩
  · exact ⟨readlocal_keeps _ _ _, rfl⟩

theorem tapeNextBlock_keeps (s : System) (i : Fin maxDevices) :
    Fat.Keeps s.fat (tapeNextBlock s i).2.fat := by
  unfold tapeNextBlock
  split_ifs
  · exact Fat.keeps_refl _
  · exact (updateTapeHead_keeps (s.moveTape i (u32 ((s.tapes i).blockIndex + 1))) i).1

theorem tapePrevBlock_keeps (s : System) (i : Fin maxDevices) :
    Fat.Keeps s.fat (tapePrevBlock s i).2.fat := by
  unfold tapePrevBlock
  split_ifs
  · exact (updateTapeHead_keeps (s.moveTape i ((s.tapes i).blockIndex - 1)) i).1
  · exact Fat.keeps_refl _

theorem readTapeBlock_keeps (s : System) (i : Fin maxDevices) (buffer : BitVec 64) :
    Fat.Keeps s.fat (readTapeBlock s i buffer).2.fat := by
  unfold readTapeBlock
  dsimp only
  split_ifs
  · exact Fat.keeps_refl _
  · exact readfile_keeps _ _ _ _ _

theorem readDiskBlock_keeps (s : System) (i : Fin maxDevices) (buffer : BitVec 64) :
    Fat.Keeps s.fat (readDiskBlock s i buffer).2.fat := by
  unfold readDiskBlock
  dsimp only
  split_ifs
  · exact Fat.keeps_refl _
  · exact readfile_keeps _ _ _ _ _

theorem setDeviceTimer_fat (s : System) (microseconds : Nat) (type : TimerType)
    (i : Fin maxDevices) : (setDeviceTimer s microseconds type i).fat = s.fat := by
  obtain ⟨virtualTimer, armed⟩ := setDeviceTimer_eq s microseconds type i
  rw [armed]

theorem startDisk_fat (s : System) (i : Fin maxDevices) (registers : BitVec 64) (message : DevReg)
    (timetodest : Nat) : (s.startDisk i registers message timetodest).fat = s.fat := by
  unfold System.startDisk
  rw [setDeviceTimer_fat]
  rfl

theorem startTape_fat (s : System) (i : Fin maxDevices) (registers : BitVec 64)
    (command data0 : BitVec 32) : (s.startTape i registers command data0).fat = s.fat := by
  unfold System.startTape
  rw [setDeviceTimer_fat]
  rfl

theorem fat_ite {v : Fat.Volume} {c : Prop} [Decidable c] {s s' : System} (yes : s.fat = v)
    (no : s'.fat = v) : (if c then s else s').fat = v := by
  split_ifs
  · exact yes
  · exact no

theorem keeps_same {v : Fat.Volume} {s : System} (same : s.fat = v) : Fat.Keeps v s.fat :=
  same.symm ▸ Fat.keeps_refl v

theorem keeps_snd {v : Fat.Volume} {c : Prop} [Decidable c] {r r' : BitVec 32 × System}
    (yes : Fat.Keeps v r.2.fat) (no : Fat.Keeps v r'.2.fat) :
    Fat.Keeps v (if c then r else r').2.fat := by
  split_ifs
  · exact yes
  · exact no

theorem printerMailbox_fat (s : System) (i : Fin maxDevices) (registers : BitVec 64) :
    (emulatedPrinterMailbox s i registers).fat = s.fat := by
  unfold emulatedPrinterMailbox
  apply fat_ite rfl
  apply fat_ite rfl
  apply fat_ite rfl
  apply fat_ite
  · exact fat_ite rfl rfl
  apply fat_ite rfl
  apply fat_ite
  · exact fat_ite (setDeviceTimer_fat _ _ _ _) rfl
  · rfl

theorem diskMailbox_fat (s : System) (i : Fin maxDevices) (registers : BitVec 64) :
    (emulatedDiskMailbox s i registers).fat = s.fat := by
  have starts : ∀ {c : Prop} [Decidable c] {s₁ t : System} {message : DevReg} {timetodest : Nat},
      s₁.fat = s.fat → t.fat = s.fat →
        (if c then s₁ else t.startDisk i registers message timetodest).fat = s.fat := by
    intro c _ s₁ t message timetodest refused started
    exact fat_ite refused ((startDisk_fat _ _ _ _ _).trans started)
  unfold emulatedDiskMailbox
  apply fat_ite rfl
  apply fat_ite rfl
  apply fat_ite rfl
  apply fat_ite
  · exact fat_ite rfl rfl
  apply fat_ite rfl
  apply fat_ite
  · exact fat_ite (starts rfl rfl) rfl
  apply fat_ite
  · exact fat_ite (starts rfl rfl) rfl
  · rfl

theorem tapeMailbox_fat (s : System) (i : Fin maxDevices) (registers : BitVec 64) :
    (emulatedTapeMailbox s i registers).fat = s.fat := by
  -- a reset reads no block head, since it goes to the first block
  have rewound : ∀ t : System, (updateTapeHead (t.moveTape i 0) i).2.fat = t.fat := by
    intro t
    have first : ((t.moveTape i 0).tapes i).blockIndex = 0 := by
      simp [System.moveTape, System.setTape]
    unfold updateTapeHead
    rw [if_pos first]
    rfl
  unfold emulatedTapeMailbox
  apply fat_ite rfl
  apply fat_ite rfl
  apply fat_ite
  · exact rewound _
  apply fat_ite
  · exact fat_ite rfl rfl
  apply fat_ite rfl
  apply fat_ite
  · exact fat_ite (startTape_fat _ _ _ _ _) rfl
  apply fat_ite
  · exact fat_ite (startTape_fat _ _ _ _ _) rfl
  apply fat_ite
  · apply fat_ite
    · exact fat_ite rfl (startTape_fat _ _ _ _ _)
    · rfl
  · rfl

theorem mailbox_fat (s : System) (dev : Dev) (registers : BitVec 64) :
    (mailbox s dev registers).fat = s.fat := by
  obtain ⟨c, i⟩ := dev
  cases c with
  | printer => exact printerMailbox_fat s i registers
  | tape => exact tapeMailbox_fat s i registers
  | disk => exact diskMailbox_fat s i registers

theorem perform_keeps {s : System} {dev : Dev} (busy : Busy s dev)
    (delayed : Delayed dev.1 (s.regs dev).command) (kept : ¬ Writes s dev) :
    Fat.Keeps s.fat (perform s dev).2.fat := by
  obtain ⟨c, i⟩ := dev
  unfold perform
  cases c with
  | printer => exact Fat.keeps_refl _
  | tape =>
    apply keeps_snd
    · exact tapeNextBlock_keeps s i
    apply keeps_snd
    · exact tapePrevBlock_keeps s i
    have read := readTapeBlock_keeps s i ((s.regs (.tape, i)).data0.setWidth 64)
    generalize readTapeBlock s i _ = r at read
    apply keeps_snd
    · exact read
    · exact Fat.keeps_trans read (updateTapeHead_keeps (r.2.moveTape i _) i).1
  | disk =>
    have other : getCommand (s.regs (.disk, i)).command ≠ writeblk :=
      fun isWrite => kept ⟨busy, rfl, isWrite⟩
    by_cases isSeek : getCommand (s.regs (.disk, i)).command = seekcyl
    · simp only [if_pos isSeek]
      exact Fat.keeps_refl _
    · have isRead := (delayed.resolve_left isSeek).resolve_right other
      simp only [if_neg isSeek, if_pos isRead]
      exact readDiskBlock_keeps (s.aimDisk i _) i _

theorem manage_keeps {s : System} {dev : Dev} (kept : ¬ Writes s dev) :
    Fat.Keeps s.fat (manage s dev).fat := by
  rcases manage_cases s dev with same | ⟨busy, delayed, completed⟩
  · rw [same]
    exact Fat.keeps_refl _
  · rw [completed.fat]
    exact perform_keeps busy delayed kept

/-- A step that completes no WRITEBLK leaves the card as it is. -/
theorem step_keeps {s : System} {a : Act} (kept : ∀ dev, Ends dev s a → ¬ Writes s dev) :
    Fat.Keeps s.fat (step s a).fat := by
  by_cases serving : a.Serving
  · cases a with
    | request dev block r => exact keeps_same (mailbox_fat { s with ram := storeReg s.ram block r } dev block)
    | expire next =>
      rcases expire_cases s next with ⟨same, _⟩ | ⟨r, q, head, past, run⟩
      · rw [step, same]
        exact Fat.keeps_refl _
      · rw [step, run]
        unfold manageTimer
        cases own : owner r with
        | none => exact Fat.keeps_refl _
        | some dev =>
          exact @manage_keeps { s with queue := q } dev
            (kept dev ⟨⟨next, rfl⟩, r, _, head, past, own⟩)
    | _ => exact absurd serving id
  · exact keeps_same (step_aside s serving).fat

theorem run_keeps (as : List Act) {s : System}
    (kept : Along step (fun s a => ∀ dev, Ends dev s a → ¬ Writes s dev) s as) :
    Fat.Keeps s.fat (run step s as).fat :=
  @run_along _ _ step (fun t => Fat.Keeps s.fat t.fat) _
    (fun _ _ keeps here => Fat.keeps_trans keeps (step_keeps here)) as _ (Fat.keeps_refl _) kept

theorem initEmulatedTape_keeps {s : System} {fileid : Nat → Byte} {i : Fin maxDevices}
    {r : (Nat → Byte) × System} (done : initEmulatedTape s fileid i = some r) :
    Fat.Keeps s.fat r.2.fat := by
  unfold initEmulatedTape at done
  have looked := Fat.keeps_getcluster s.fat (tapeName i)
  generalize Fat.fatGetcluster s.fat (tapeName i) = result at done looked
  obtain ⟨cluster, -, rfl⟩ := Option.map_eq_some_iff.mp done
  have read := Fat.keeps_readfile (Option.some_get
    (Fat.fatReadfile_some result.2 cluster fileid 0 4)).symm
  dsimp only
  split_ifs
  · exact Fat.keeps_trans looked read
  · exact Fat.keeps_trans looked read
  · exact looked

theorem initEmulatedDisk_keeps {s : System} {header : Nat → Byte} {i : Fin maxDevices}
    {r : (Nat → Byte) × System} (done : initEmulatedDisk s header i = some r) :
    Fat.Keeps s.fat r.2.fat := by
  unfold initEmulatedDisk at done
  have looked := Fat.keeps_getcluster s.fat (diskName i)
  generalize Fat.fatGetcluster s.fat (diskName i) = result at done looked
  obtain ⟨cluster, -, rfl⟩ := Option.map_eq_some_iff.mp done
  have read := Fat.keeps_readfile (Option.some_get
    (Fat.fatReadfile_some result.2 cluster header 0 (8 * 4))).symm
  dsimp only
  split_ifs
  · exact Fat.keeps_trans looked read
  · exact Fat.keeps_trans looked read
  · exact looked

/-- What `fat_getpartition` made of the volume is there when `initSystem` is done. -/
theorem init_keeps {b : Boot} {start : System} (init : initSystem b true = some start) :
    Fat.Keeps (Fat.fatGetpartition (Fat.staticVolume b.card b.stack)).2 start.fat := by
  obtain ⟨s, mounted, rfl⟩ := Option.map_eq_some_iff.mp init
  obtain ⟨fat, listed, rest⟩ := Option.bind_eq_some_iff.mp mounted
  obtain ⟨t, tapes, disks⟩ := Option.bind_eq_some_iff.mp rest
  have directory := Fat.keeps_listdirectory listed
  have afterTapes : Fat.Keeps (Fat.fatGetpartition (Fat.staticVolume b.card b.stack)).2 t.fat := by
    refine initEmulatedTapes_keeps (fun s => Fat.Keeps _ s.fat) ?_ ?_ tapes
    · exact fun _ => directory
    · exact fun _ _ _ _ keeps round => Fat.keeps_trans keeps (initEmulatedTape_keeps round)
  show Fat.Keeps _ s.fat
  refine initEmulatedDisks_keeps (fun s => Fat.Keeps _ s.fat) ?_ ?_ disks
  · exact fun _ => afterTapes
  · exact fun _ _ _ _ keeps round => Fat.keeps_trans keeps (initEmulatedDisk_keeps round)

def Absent (s : System) : Prop :=
  ∀ dev : Dev, dev.1 ≠ .printer → (s.regs dev).status = deviceNotInstalled

theorem absent_answers {s : System} {dev : Dev} (other : dev.1 ≠ .printer)
    (absent : (s.regs dev).status = deviceNotInstalled) {registers : BitVec 64}
    (given : registers ≠ 0) :
    mailbox s dev registers =
      (s.setRegs dev fun r => { r with mailbox := 1 }).answer dev registers := by
  obtain ⟨t, marked, quiet, port, ram, -⟩ := marked_spec s dev
  have regs : t.regs dev = { s.regs dev with mailbox := 1 } := congrArg Port.internalRegisters port
  have status : (t.regs dev).status = deviceNotInstalled := by
    rw [regs]
    exact absent
  obtain ⟨c, i⟩ := dev
  cases c with
  | printer => exact absurd rfl other
  | tape =>
    simp only [mailbox, emulatedTapeMailbox, if_neg given, ← marked, status, true_and]
    by_cases isRead : (loadReg t.ram registers).command = readRegisters
    · simp only [isRead]
      rfl
    · rw [if_pos isRead]
  | disk =>
    simp only [mailbox, emulatedDiskMailbox, if_neg given, ← marked, status, true_and]
    by_cases isRead : (loadReg t.ram registers).command = readRegisters
    · simp only [isRead]
      rfl
    · rw [if_pos isRead]

theorem absent_mailbox {s : System} {dev : Dev} (other : dev.1 ≠ .printer)
    (absent : (s.regs dev).status = deviceNotInstalled) (registers : BitVec 64) :
    ((mailbox s dev registers).regs dev).status = deviceNotInstalled := by
  by_cases given : registers = 0
  · rw [given, mailbox_null]
    exact absent
  · rw [absent_answers other absent given]
    simpa [System.regs] using absent

theorem absent_stays {s : System} {dev : Dev} (other : dev.1 ≠ .printer)
    (absent : (s.regs dev).status = deviceNotInstalled) (a : Act) :
    ((step s a).regs dev).status = deviceNotInstalled := by
  by_cases concerns : Concerns s a dev
  · rcases concerns with ⟨block, r, rfl, given⟩ | ⟨⟨next, rfl⟩, expires⟩
    · exact @absent_mailbox { s with ram := storeReg s.ram block r } dev other absent block
    · obtain ⟨q, run⟩ := expire_own expires next
      have idle : ¬ Busy { s with queue := q } dev := by
        intro busy
        exact busy_installed busy absent
      rw [step, run, manage_idle idle]
      exact absent
  · rw [System.regs, (step_untouched concerns).port]
    exact absent

theorem absent_step {s : System} (absent : Absent s) (a : Act) : Absent (step s a) :=
  fun dev other => absent_stays other (absent dev other) a

theorem init_absent {b : Boot} {start : System} (init : initSystem b false = some start) :
    Absent start := by
  cases init
  intro dev other
  obtain ⟨c, i⟩ := dev
  cases c with
  | printer => exact absurd rfl other
  | tape => rfl
  | disk => rfl

end Emulated
