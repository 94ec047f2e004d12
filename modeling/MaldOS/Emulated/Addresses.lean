import MaldOS.Emulated.Apart
import MaldOS.Emulated.Answers

/-!
The addresses that a disk accepts, and the blocks that it has. The driver
compares each number with a count that is already one too far.
-/
namespace Emulated
open Arch ByteMemory Registers ArmTimers EmulatedTimers Runs

def HasBlock (g : Disk) (cylinder head sector : Nat) : Prop :=
  cylinder < g.cylinders ∧ head < g.heads ∧ sector < g.sectors

def Transfers (command : BitVec 32) : Prop :=
  getCommand command = readblk ∨ getCommand command = writeblk

/-- The command moves a disk that stands at `cylinder` to a block or cylinder that it has not. -/
def Misses (g : Disk) (cylinder : Nat) (command : BitVec 32) : Prop :=
  Transfers command ∧ ¬ HasBlock g cylinder (getCommandHeadnum command).toNat
      (getCommandSectnum command).toNat ∨
    getCommand command = seekcyl ∧ g.cylinders ≤ (getCommandCylnum command).toNat

/-- `ILLEGAL_OPERATION` is the answer; a busy disk goes on with the command that it has. -/
structure Rejected (dev : Dev) (block : BitVec 64) (s s' : System) : Prop where
  idle : ¬ Busy s dev → (s'.regs dev).status = illegalOperation ∧ loadReg s'.ram block = s'.regs dev
  busy : Busy s dev → Unchanged dev s s'

/-- Blocks that are read or written exist, and commands for any other are refused. -/
def Addressed (g : Disk) (i : Fin maxDevices) (s : System) : Act → Prop
  | .expire _ =>
    Expires s (.disk, i) → Busy s (.disk, i) → Transfers (s.regs (.disk, i)).command →
      let d := (s.aimDisk i (s.regs (.disk, i)).command).disks i
      HasBlock g d.currentCylinder d.currentHead d.currentSector
  | .request dev block r =>
    dev = (.disk, i) → block ≠ 0 → Misses g (s.disks i).currentCylinder r.command →
      Rejected dev block s (step s (.request dev block r))
  | _ => True

/-- The numbers in the command pass the checks, but one of them is the count itself, or there is
    no cylinder at all. -/
def OnEdge (g : Disk) (command : BitVec 32) : Prop :=
  Transfers command ∧ (getCommandHeadnum command).toNat ≤ g.heads ∧
      (getCommandSectnum command).toNat ≤ g.sectors ∧
      ((getCommandHeadnum command).toNat = g.heads ∨
        (getCommandSectnum command).toNat = g.sectors ∨ g.cylinders = 0) ∨
    getCommand command = seekcyl ∧ (getCommandCylnum command).toNat = g.cylinders

/-- No such command is sent to the disk while it is not busy. -/
def OffEdge (g : Disk) (i : Fin maxDevices) (s : System) : Act → Prop
  | .request dev block r =>
    dev = (.disk, i) → block ≠ 0 → ¬ Busy s (.disk, i) → ¬ OnEdge g r.command
  | _ => True

def Passes (d : Disk) (command : BitVec 32) : Prop :=
  Transfers command ∧ (getCommandHeadnum command).toNat ≤ d.heads ∧
      (getCommandSectnum command).toNat ≤ d.sectors ∨
    getCommand command = seekcyl ∧ (getCommandCylnum command).toNat ≤ d.cylinders

/-- A command in flight after a message was there before, or came with it and passes. -/
def Takes (i : Fin maxDevices) (message : DevReg) (s s' : System) : Prop :=
  Busy s' (.disk, i) →
    Busy s (.disk, i) ∧ (s'.regs (.disk, i)).command = (s.regs (.disk, i)).command ∨
      (s'.regs (.disk, i)).command = message.command ∧ Passes (s.disks i) message.command

section
variable {i : Fin maxDevices} {message : DevReg} {s s' s'' : System}

theorem takes_ite {c : Prop} [Decidable c] (yes : c → Takes i message s s')
    (no : ¬ c → Takes i message s s'') : Takes i message s (if c then s' else s'') := by
  split_ifs with h
  · exact yes h
  · exact no h

theorem takes_same (status : (s'.regs (.disk, i)).status = (s.regs (.disk, i)).status)
    (command : (s'.regs (.disk, i)).command = (s.regs (.disk, i)).command) :
    Takes i message s s' := by
  intro busy
  left
  unfold Busy at *
  rw [status] at busy
  exact ⟨busy, command⟩

theorem takes_idle (idle : (s'.regs (.disk, i)).status ≠ deviceBusy) : Takes i message s s' :=
  fun busy => absurd busy idle

theorem takes_answer (takes : Takes i message s s') (registers : BitVec 64) :
    Takes i message s (s'.answer (.disk, i) registers) := takes

theorem startDisk_command (t : System) (registers : BitVec 64) (timetodest : Nat) :
    (t.startDisk i registers message timetodest).regs (.disk, i) =
      { t.regs (.disk, i) with
        command := message.command, data0 := message.data0, status := deviceBusy } := by
  unfold System.startDisk
  obtain ⟨virtualTimer, armed⟩ := setDeviceTimer_eq (t.setPort (.disk, i) ⟨registers,
    { t.regs (.disk, i) with
      command := message.command, data0 := message.data0, status := deviceBusy }⟩) timetodest .disk i
  dsimp only
  rw [armed]
  simp [System.regs]

theorem takes_start (t : System) (registers : BitVec 64) (timetodest : Nat)
    (passes : Passes (s.disks i) message.command) :
    Takes i message s (t.startDisk i registers message timetodest) := by
  intro _
  right
  rw [startDisk_command]
  exact ⟨rfl, passes⟩

end

theorem disk_takes (s : System) (i : Fin maxDevices) (registers : BitVec 64) :
    Takes i (loadReg s.ram registers) s (emulatedDiskMailbox s i registers) := by
  have marked : Takes i (loadReg s.ram registers) s
      (s.setRegs (.disk, i) fun r => { r with mailbox := 1 }) :=
    takes_same (by simp [System.regs]) (by simp [System.regs])
  unfold emulatedDiskMailbox
  apply takes_ite
  · exact fun _ => takes_same rfl rfl
  intro _
  apply takes_ite
  · exact fun _ => marked
  intro _
  apply takes_ite
  · exact fun _ => takes_idle (by simp [System.regs])
  intro _
  apply takes_ite
  · intro _
    apply takes_ite
    · exact fun _ => takes_idle (by simp [System.regs])
    · exact fun _ => marked
  intro _
  apply takes_ite
  · exact fun _ => marked
  intro _
  apply takes_ite
  · intro isBlock
    apply takes_answer
    apply takes_ite
    · intro _
      apply takes_ite
      · exact fun _ => takes_idle (by simp [System.regs])
      · intro inside
        apply takes_start
        exact Or.inl ⟨isBlock, Nat.le_of_not_lt fun beyond => inside (Or.inl beyond),
          Nat.le_of_not_lt fun beyond => inside (Or.inr beyond)⟩
    · exact fun _ => marked
  intro _
  apply takes_ite
  · intro isSeek
    apply takes_answer
    apply takes_ite
    · intro _
      apply takes_ite
      · exact fun _ => takes_idle (by simp [System.regs])
      · intro inside
        apply takes_start
        exact Or.inr ⟨isSeek, Nat.le_of_not_lt inside⟩
    · exact fun _ => marked
  · exact fun _ => takes_idle (by simp [System.regs])

theorem answered_illegal (t : System) (i : Fin maxDevices) (registers : BitVec 64) :
    (((t.setRegs (.disk, i) fun r => { r with status := illegalOperation }).answer (.disk, i)
        registers).regs (.disk, i)).status = illegalOperation ∧
      loadReg ((t.setRegs (.disk, i) fun r => { r with status := illegalOperation }).answer (.disk, i)
          registers).ram registers =
        ((t.setRegs (.disk, i) fun r => { r with status := illegalOperation }).answer (.disk, i)
          registers).regs (.disk, i) := by
  constructor
  · simp [System.regs]
  · exact loadReg_storeReg _ _ _

theorem disk_checks {s : System} {i : Fin maxDevices} {registers : BitVec 64}
    (given : registers ≠ 0) (there : (s.regs (.disk, i)).status ≠ deviceNotInstalled)
    (idle : ¬ Busy s (.disk, i)) (delayed : Delayed .disk (loadReg s.ram registers).command) :
    (Passes (s.disks i) (loadReg s.ram registers).command →
        Busy (emulatedDiskMailbox s i registers) (.disk, i)) ∧
      (¬ Passes (s.disks i) (loadReg s.ram registers).command →
        ((emulatedDiskMailbox s i registers).regs (.disk, i)).status = illegalOperation ∧
          loadReg (emulatedDiskMailbox s i registers).ram registers =
            (emulatedDiskMailbox s i registers).regs (.disk, i)) := by
  obtain ⟨t, marked, -, port, ram, disks⟩ := marked_spec s (.disk, i)
  have regs : t.regs (.disk, i) = { s.regs (.disk, i) with mailbox := 1 } :=
    congrArg Port.internalRegisters port
  unfold Busy at idle
  unfold emulatedDiskMailbox
  rw [if_neg given]
  simp only [← marked, ram, regs, disks]
  generalize loadReg s.ram registers = message at delayed
  have noReset : getCommand message.command ≠ reset := by
    rcases delayed with isSeek | isRead | isWrite <;> simp only [*] <;> decide
  have noAck : getCommand message.command ≠ ack := by
    rcases delayed with isSeek | isRead | isWrite <;> simp only [*] <;> decide
  have noQuery : getCommand message.command ≠ readRegisters := by
    rcases delayed with isSeek | isRead | isWrite <;> simp only [*] <;> decide
  rw [if_neg fun absent => there absent.1, if_neg noReset, if_neg noAck, if_neg noQuery]
  have started : ∀ timetodest, Busy ((t.startDisk i registers message timetodest).answer (.disk, i)
      registers) (.disk, i) := by
    intro timetodest
    exact congrArg DevReg.status (startDisk_command t registers timetodest)
  by_cases isBlock : getCommand message.command = readblk ∨ getCommand message.command = writeblk
  · rw [if_pos isBlock, if_pos idle]
    have noSeek : getCommand message.command ≠ seekcyl := by
      rcases isBlock with isRead | isWrite <;> simp only [*] <;> decide
    by_cases beyond : (getCommandHeadnum message.command).toNat > (s.disks i).heads ∨
        (getCommandSectnum message.command).toNat > (s.disks i).sectors
    · rw [if_pos beyond]
      refine ⟨?_, fun _ => answered_illegal t i registers⟩
      rintro (⟨_, heads, sectors⟩ | ⟨isSeek, _⟩)
      · omega
      · exact absurd isSeek noSeek
    · rw [if_neg beyond]
      refine ⟨fun _ => started _, ?_⟩
      exact fun fails => absurd (Or.inl ⟨isBlock, by omega, by omega⟩) fails
  · have isSeek : getCommand message.command = seekcyl := delayed.resolve_right isBlock
    rw [if_neg isBlock, if_pos isSeek, if_pos idle]
    by_cases beyond : (getCommandCylnum message.command).toNat > (s.disks i).cylinders
    · rw [if_pos beyond]
      refine ⟨?_, fun _ => answered_illegal t i registers⟩
      rintro (⟨wrong, _⟩ | ⟨_, inside⟩)
      · exact absurd wrong isBlock
      · omega
    · rw [if_neg beyond]
      refine ⟨fun _ => started _, ?_⟩
      exact fun fails => absurd (Or.inr ⟨isSeek, by omega⟩) fails

structure Aims (g : Disk) (command : BitVec 32) : Prop where
  block : Transfers command → HasBlock g 0 (getCommandHeadnum command).toNat
    (getCommandSectnum command).toNat
  cylinder : getCommand command = seekcyl → (getCommandCylnum command).toNat < g.cylinders

/-- What every run that stays off the edge keeps; `g` is the disk at the start. -/
structure Seated (g : Disk) (i : Fin maxDevices) (s : System) : Prop where
  there : (s.regs (.disk, i)).status ≠ deviceNotInstalled
  cylinders : (s.disks i).cylinders = g.cylinders
  heads : (s.disks i).heads = g.heads
  sectors : (s.disks i).sectors = g.sectors
  cylinder : (s.disks i).currentCylinder < g.cylinders ∨ (s.disks i).currentCylinder = 0
  flight : Busy s (.disk, i) → Aims g (s.regs (.disk, i)).command

section
variable {g : Disk} {command : BitVec 32}

theorem transfers_noSeek (transfers : Transfers command) : getCommand command ≠ seekcyl := by
  rcases transfers with isRead | isWrite
  · rw [isRead]
    decide
  · rw [isWrite]
    decide

theorem misses_delayed {cylinder : Nat} (misses : Misses g cylinder command) :
    Delayed .disk command := by
  rcases misses with ⟨transfers, _⟩ | ⟨isSeek, _⟩
  · exact Or.inr transfers
  · exact Or.inl isSeek

theorem edge_misses (edge : OnEdge g command) (cylinder : Nat) : Misses g cylinder command := by
  rcases edge with ⟨transfers, _, _, last⟩ | ⟨isSeek, last⟩
  · left
    refine ⟨transfers, ?_⟩
    rintro ⟨_, _, _⟩
    omega
  · right
    exact ⟨isSeek, by omega⟩

variable {i : Fin maxDevices} {s : System} (seated : Seated g i s)
include seated

theorem edge_passes (edge : OnEdge g command) : Passes (s.disks i) command := by
  unfold Passes
  rw [seated.cylinders, seated.heads, seated.sectors]
  rcases edge with ⟨transfers, heads, sectors, _⟩ | ⟨isSeek, last⟩
  · exact Or.inl ⟨transfers, heads, sectors⟩
  · exact Or.inr ⟨isSeek, Nat.le_of_eq last⟩

theorem passes_aims (passes : Passes (s.disks i) command) (off : ¬ OnEdge g command) :
    Aims g command := by
  unfold Passes at passes
  rw [seated.cylinders, seated.heads, seated.sectors] at passes
  unfold OnEdge at off
  rcases passes with ⟨transfers, heads, sectors⟩ | ⟨isSeek, inside⟩
  · constructor
    · intro _
      have inside : ¬ ((getCommandHeadnum command).toNat = g.heads ∨
          (getCommandSectnum command).toNat = g.sectors ∨ g.cylinders = 0) :=
        fun last => off (Or.inl ⟨transfers, heads, sectors, last⟩)
      unfold HasBlock
      omega
    · exact fun isSeek => absurd isSeek (transfers_noSeek transfers)
  · constructor
    · exact fun transfers => absurd isSeek (transfers_noSeek transfers)
    · intro _
      exact Nat.lt_of_le_of_ne inside fun last => off (Or.inr ⟨isSeek, last⟩)

theorem aims_hit (transfers : Transfers command) (aims : Aims g command) :
    HasBlock g (s.disks i).currentCylinder (getCommandHeadnum command).toNat
      (getCommandSectnum command).toNat := by
  obtain ⟨some, head, sector⟩ := aims.block transfers
  have cylinder := seated.cylinder
  exact ⟨by omega, head, sector⟩

end

/-- What the driver sees of a request is the block that came with it. -/
theorem request_checks {s : System} {i : Fin maxDevices} {block : BitVec 64} {r : DevReg}
    (given : block ≠ 0) (there : (s.regs (.disk, i)).status ≠ deviceNotInstalled)
    (idle : ¬ Busy s (.disk, i)) (delayed : Delayed .disk r.command) :
    (Passes (s.disks i) r.command → Busy (step s (.request (.disk, i) block r)) (.disk, i)) ∧
      (¬ Passes (s.disks i) r.command →
        ((step s (.request (.disk, i) block r)).regs (.disk, i)).status = illegalOperation ∧
          loadReg (step s (.request (.disk, i) block r)).ram block =
            (step s (.request (.disk, i) block r)).regs (.disk, i)) := by
  have checks := @disk_checks { s with ram := storeReg s.ram block r } i block given there idle
  rw [loadReg_storeReg] at checks
  exact checks delayed

theorem addressed_iff {g : Disk} {i : Fin maxDevices} {s : System} (seated : Seated g i s)
    (a : Act) : Addressed g i s a ↔ OffEdge g i s a := by
  cases a with
  | request dev block r =>
    constructor
    · rintro addressed rfl given idle edge
      have misses := edge_misses edge (s.disks i).currentCylinder
      have delayed := misses_delayed misses
      have busy := (request_checks given seated.there idle delayed).1 (edge_passes seated edge)
      have refused := addressed rfl given misses
      have illegal := (refused.idle idle).1
      unfold Busy at busy
      rw [illegal] at busy
      exact absurd busy (by decide)
    · rintro off rfl given misses
      have delayed := misses_delayed misses
      constructor
      · intro idle
        apply (request_checks given seated.there idle delayed).2
        intro passes
        have aims := passes_aims seated passes (off rfl given idle)
        rcases misses with ⟨transfers, outside⟩ | ⟨isSeek, outside⟩
        · exact outside (aims_hit seated transfers aims)
        · exact absurd (aims.cylinder isSeek) (by omega)
      · intro busy
        rcases request_busy busy given r with ⟨same, _⟩ | ⟨_, isReset | undefined⟩
        · exact same
        · rcases delayed with isSeek | isRead | isWrite
          all_goals
            simp only [commandOf, *] at isReset
            exact absurd isReset (by decide)
        · exact absurd (disk_defined delayed) undefined
  | expire next =>
    constructor
    · exact fun _ => trivial
    · intro _ _ busy transfers
      have hit := aims_hit seated transfers (seated.flight busy)
      simpa [System.aimDisk, System.setDisk] using hit
  | _ => exact Iff.rfl

theorem perform_disk (s : System) (i : Fin maxDevices) :
    (perform s (.disk, i)).2.disks i =
      if getCommand (s.regs (.disk, i)).command = seekcyl then
        { s.disks i with
          currentCylinder := (getCommandCylnum (s.regs (.disk, i)).command).toNat }
      else (s.aimDisk i (s.regs (.disk, i)).command).disks i := by
  have read := readDiskBlock_units (s.aimDisk i (s.regs (.disk, i)).command) i
    ((s.regs (.disk, i)).data0.setWidth 64)
  have write := writeDiskBlock_units (s.aimDisk i (s.regs (.disk, i)).command) i
    ((s.regs (.disk, i)).data0.setWidth 64)
  unfold perform
  dsimp only
  split_ifs
  · exact Function.update_self i _ _
  · exact congrFun read.disks i
  · exact congrFun read.disks i
  · exact congrFun write.disks i
  · exact congrFun write.disks i

theorem expiry_seated {g : Disk} {i : Fin maxDevices} {s : System} (seated : Seated g i s)
    (expires : Expires s (.disk, i)) (next : Timer) : Seated g i (step s (.expire next)) := by
  have there := installed_step seated.there (.expire next)
  obtain ⟨q, none | ⟨busy, -, completed⟩⟩ := expire_outcome expires next
  · rw [none]
    exact ⟨seated.there, seated.cylinders, seated.heads, seated.sectors, seated.cylinder,
      seated.flight⟩
  · have idle := completed_idle completed
    have moved := (congrFun completed.disks i).trans (perform_disk { s with queue := q } i)
    by_cases isSeek : getCommand (s.regs (.disk, i)).command = seekcyl
    · have seek : (step s (.expire next)).disks i = _ := moved.trans (if_pos isSeek)
      refine ⟨there, ?_, ?_, ?_, ?_, fun busy => absurd busy idle⟩
      · rw [seek, ← seated.cylinders]
      · rw [seek, ← seated.heads]
      · rw [seek, ← seated.sectors]
      · rw [seek]
        exact Or.inl ((seated.flight busy).cylinder isSeek)
    · have aims : (step s (.expire next)).disks i = _ := moved.trans (if_neg isSeek)
      simp only [System.aimDisk, System.setDisk, Function.update_self] at aims
      refine ⟨there, ?_, ?_, ?_, ?_, fun busy => absurd busy idle⟩
      · rw [aims, ← seated.cylinders]
      · rw [aims, ← seated.heads]
      · rw [aims, ← seated.sectors]
      · rw [aims]
        exact seated.cylinder

theorem request_seated {g : Disk} {i : Fin maxDevices} {s : System} (seated : Seated g i s)
    {block : BitVec 64} (given : block ≠ 0) {r : DevReg}
    (off : ¬ Busy s (.disk, i) → ¬ OnEdge g r.command) :
    Seated g i (step s (.request (.disk, i) block r)) := by
  have there := installed_step seated.there (.request (.disk, i) block r)
  have flight : Busy (step s (.request (.disk, i) block r)) (.disk, i) →
      Aims g ((step s (.request (.disk, i) block r)).regs (.disk, i)).command := by
    intro after
    by_cases busy : Busy s (.disk, i)
    · rcases request_busy busy given r with ⟨same, _⟩ | ⟨idle, _⟩
      · rw [same.command]
        exact seated.flight busy
      · exact absurd after idle
    · have takes := disk_takes { s with ram := storeReg s.ram block r } i block
      rw [loadReg_storeReg] at takes
      rcases takes after with ⟨wrong, _⟩ | ⟨same, passes⟩
      · exact absurd wrong busy
      · show Aims g ((mailbox { s with ram := storeReg s.ram block r } (.disk, i) block).regs
          (.disk, i)).command
        rw [mailbox, same]
        exact passes_aims seated passes (off busy)
  rcases mailbox_placed { s with ram := storeReg s.ram block r } (.disk, i) block with
    same | ⟨_, rewound⟩
  · have disk : (step s (.request (.disk, i) block r)).disks i = s.disks i := congrFun same.disks i
    refine ⟨there, ?_, ?_, ?_, ?_, flight⟩
    · rw [disk, seated.cylinders]
    · rw [disk, seated.heads]
    · rw [disk, seated.sectors]
    · rw [disk]
      exact seated.cylinder
  · have disk : (step s (.request (.disk, i) block r)).disks i =
        { s.disks i with currentCylinder := 0, currentHead := 0, currentSector := 0 } :=
      (congrFun rewound.disks i).trans (Function.update_self i _ _)
    refine ⟨there, ?_, ?_, ?_, ?_, flight⟩
    · rw [disk, ← seated.cylinders]
    · rw [disk, ← seated.heads]
    · rw [disk, ← seated.sectors]
    · rw [disk]
      exact Or.inr rfl

theorem seated_step {g : Disk} {i : Fin maxDevices} {s : System} (seated : Seated g i s) {a : Act}
    (off : OffEdge g i s a) : Seated g i (step s a) := by
  by_cases concerns : Concerns s a (.disk, i)
  · rcases concerns with ⟨block, r, rfl, given⟩ | ⟨⟨next, rfl⟩, expires⟩
    · exact request_seated seated given (off rfl given)
    · exact expiry_seated seated expires next
  · have port := (step_untouched concerns).port
    have disk := (step_sameUnit concerns).disk i rfl
    refine ⟨installed_step seated.there a, ?_, ?_, ?_, ?_, ?_⟩
    · rw [disk, seated.cylinders]
    · rw [disk, seated.heads]
    · rw [disk, seated.sectors]
    · rw [disk]
      exact seated.cylinder
    · unfold Busy System.regs
      rw [port]
      exact seated.flight

theorem init_seated {b : Boot} {sdOk : Bool} {start : System}
    (init : initSystem b sdOk = some start) {i : Fin maxDevices}
    (there : (start.regs (.disk, i)).status ≠ deviceNotInstalled) :
    Seated (start.disks i) i start := by
  have first : ∀ i, (start.disks i).currentCylinder = 0 := by
    apply init_invariant init fun s => ∀ i, (s.disks i).currentCylinder = 0
    · exact fun _ => rfl
    · exact fun _ _ first => first
    · exact fun _ _ first => first
    · intro s fileid j r first done
      unfold initEmulatedTape at done
      generalize Fat.fatGetcluster s.fat (tapeName j) = looked at done
      obtain ⟨cluster, -, rfl⟩ := Option.map_eq_some_iff.mp done
      dsimp only
      split_ifs
      · exact first
      · exact first
      · exact first
    · intro s header j r first done k
      unfold initEmulatedDisk at done
      generalize Fat.fatGetcluster s.fat (diskName j) = looked at done
      obtain ⟨cluster, -, rfl⟩ := Option.map_eq_some_iff.mp done
      dsimp only
      by_cases here : k = j
      · subst here
        split_ifs
        · simp [System.setRegs, System.setPort, System.setDisk, first]
        · simp [System.setRegs, System.setPort, System.setDisk, System.install]
        · simp [System.setRegs, System.setPort, System.setDisk, first]
      · split_ifs
        · simp [System.setRegs, System.setPort, System.setDisk, first, here]
        · simp [System.setRegs, System.setPort, System.setDisk, System.install, first, here]
        · simp [System.setRegs, System.setPort, System.setDisk, first, here]
    · exact fun _ _ first => first
    · exact fun _ first => first
  exact ⟨there, rfl, rfl, rfl, Or.inr (first i),
    fun busy => absurd busy ((init_quiescent init).1 (.disk, i))⟩

/-- In every run, whatever an installed disk reads or writes exists and every other command is
    refused, exactly if none on the edge is sent to it while it is not busy. -/
theorem addressed_run_iff {b : Boot} {sdOk : Bool} {start : System}
    (init : initSystem b sdOk = some start) {i : Fin maxDevices}
    (there : (start.regs (.disk, i)).status ≠ deviceNotInstalled) (as : List Act) :
    Along step (Addressed (start.disks i) i) start as ↔
      Along step (OffEdge (start.disks i) i) start as := by
  apply @along_same _ _ step (Seated (start.disks i) i)
  · exact fun s a seated => addressed_iff seated a
  · exact fun s a seated addressed => seated_step seated ((addressed_iff seated a).mp addressed)
  · exact init_seated init there

theorem diskSystem_there : (diskSystem.regs (.disk, 0)).status ≠ deviceNotInstalled := by
  decide +kernel

theorem addressed_run_iff_readBlock :
    Along step (Addressed (diskSystem.disks 0) 0) diskSystem [readBlock] ↔
      Along step (OffEdge (diskSystem.disks 0) 0) diskSystem [readBlock] :=
  addressed_run_iff disk_init diskSystem_there [readBlock]

/-- The disk has one cylinder, and moves to a second one. -/
theorem second_cylinder_sought :
    initSystem diskBoot true = some diskSystem ∧
      (diskSystem.regs (.disk, 0)).status ≠ deviceNotInstalled ∧
      (diskSystem.disks 0).cylinders = 1 ∧
      ¬ Along step (Addressed (diskSystem.disks 0) 0) diskSystem
        [.request (.disk, 0) 0x10000 ⟨0, 0x10003, 0, 0, 0⟩] := by
  refine ⟨disk_init, diskSystem_there, by decide +kernel, ?_⟩
  rintro ⟨addressed, _⟩
  have misses : Misses (diskSystem.disks 0) (diskSystem.disks 0).currentCylinder 0x10003 := by
    right
    decide +kernel
  obtain ⟨illegal, _⟩ := (addressed rfl (by decide) misses).idle (by decide +kernel)
  exact absurd illegal (by decide +kernel)

end Emulated
