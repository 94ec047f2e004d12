import MaldOS.Emulated.InFlight

/-!
Which messages are answered: all but one kind leave a mark in the client's block.
-/
namespace Emulated
open Arch ByteMemory Registers ArmTimers EmulatedTimers Runs

theorem printer_installed {s : System} (reachable : Reachable s) (i : Fin maxDevices) :
    (s.regs (.printer, i)).status ≠ deviceNotInstalled := by
  obtain ⟨b, sdOk, start, as, init, rfl⟩ := reachable
  refine @run_invariant _ _ step (fun s => (s.regs (.printer, i)).status ≠ deviceNotInstalled)
    (fun s a installed => installed_step installed a) as start ?_
  rw [(init_quiescent init).2 i]
  decide

theorem disk_ack_busy {s : System} {i : Fin maxDevices} {registers : BitVec 64}
    (given : registers ≠ 0) (isAck : getCommand (loadReg s.ram registers).command = ack)
    (busy : Busy s (.disk, i)) : (emulatedDiskMailbox s i registers).ram = s.ram := by
  obtain ⟨t, marked, quiet, port, ram, disks⟩ := marked_spec s (.disk, i)
  have regs : t.regs (.disk, i) = { s.regs (.disk, i) with mailbox := 1 } :=
    congrArg Port.internalRegisters port
  unfold Busy at busy
  have there : ¬ (deviceBusy = deviceNotInstalled ∧
      (loadReg s.ram registers).command ≠ readRegisters) := by
    rintro ⟨wrong, _⟩
    exact absurd wrong (by decide)
  have other : ¬ getCommand (loadReg s.ram registers).command = reset := by
    rw [isAck]
    decide
  unfold emulatedDiskMailbox
  rw [if_neg given]
  simp only [← marked, ram, regs, busy, if_neg there, if_neg other, if_pos isAck, ne_eq,
    not_true_eq_false, ↓reduceIte]

/-- A block sent with its mailbox field cleared has it set by the branch for messages, and by
    the handler if that branch is all it runs, unless it acknowledges a disk that is busy. -/
theorem message_answered_iff {s : System} (reachable : Reachable s) (data : BitVec 32)
    {c : DeviceClass} (sent : messageClass data = some c) (given : messageAddress data ≠ 0)
    (cleared : (loadReg s.ram (messageAddress data)).mailbox = 0) :
    (Answered (fiqMailbox s data) (messageAddress data) ↔
      ¬ (c = .disk ∧ getCommand (loadReg s.ram (messageAddress data)).command = ack ∧
        Busy s (.disk, messageNum data))) ∧
    ∀ source count, source &&& 0x10 ≠ 0 → source &&& 0x08 = 0 →
      (cFiqHandler s source data count).ram = (fiqMailbox s data).ram := by
  constructor
  · have run : fiqMailbox s data = mailbox s (c, messageNum data) (messageAddress data) := by
      simp only [fiqMailbox, sent]
    rw [run]
    constructor
    · rintro answered ⟨rfl, isAck, busy⟩
      apply answered
      rw [show (mailbox s (.disk, messageNum data) (messageAddress data)).ram = s.ram from
        disk_ack_busy given isAck busy]
      exact cleared
    · intro spoken
      cases mailbox_verdict s (c, messageNum data) given with
      | silent quiet same ram cause =>
        rcases cause with ⟨isDisk, isAck, busy⟩ | ⟨isPrinter, absent⟩
        · cases isDisk
          exact absurd ⟨rfl, isAck, busy⟩ spoken
        · cases isPrinter
          exact absurd absent (printer_installed reachable _)
      | kept quiet same known answered => exact answered
      | settled quiet idle installed cause answered => exact answered
      | started serves idle busy delayed block queue answered => exact answered
  · intro source count isMessage noTimer
    simp only [cFiqHandler, if_pos isMessage, noTimer, ne_eq, not_true_eq_false, ↓reduceIte]
    rfl

/-- A FAT32 card with one file, `DISK0`, of two clusters of 4096 bytes: the two boot sectors, the
    table, the root directory and the header of the disk. -/
def diskBytes : List (Nat × Byte) :=
  [(510, 0x55), (511, 0xAA), (0x1C2, 0xB), (0x1C6, 1),
   (512 + 12, 2), (512 + 13, 8), (512 + 14, 1), (512 + 16, 1), (512 + 36, 1),
   (512 + 82, 0x46), (512 + 83, 0x41), (512 + 84, 0x54),
   (1024 + 8, 0xFF), (1024 + 9, 0xFF), (1024 + 10, 0xFF), (1024 + 11, 0x0F), (1024 + 12, 4),
   (1024 + 16, 0xFF), (1024 + 17, 0xFF), (1024 + 18, 0xFF), (1024 + 19, 0x0F),
   (1536, 0x44), (1537, 0x49), (1538, 0x53), (1539, 0x4B), (1540, 0x30), (1541, 0x20),
   (1542, 0x20), (1543, 0x20), (1544, 0x20), (1545, 0x20), (1546, 0x20), (1536 + 26, 3),
   (5632, 0x4D), (5633, 0x50), (5634, 0x53), (5636, 1), (5640, 1), (5644, 1)]

def diskBoot : Boot :=
  { bareBoot with card := ⟨fun a => (diskBytes.lookup a).getD 0, fun _ => none, 0⟩ }

theorem diskBoot_starts : (initSystem diskBoot true).isSome = true := by decide +kernel

def diskSystem : System := (initSystem diskBoot true).get diskBoot_starts

theorem disk_init : initSystem diskBoot true = some diskSystem := (Option.some_get _).symm

def readBlock : Act := .request (.disk, 0) 0x10000 ⟨0, readblk, 0x20000, 0, 0⟩

def ackWritten : List Act :=
  [readBlock, .write (storeReg (fun _ => 0) 0x10100 ⟨0, ack, 0, 0, 0⟩) 0xFF]

theorem ackWritten_reachable : Reachable (run step diskSystem ackWritten) :=
  ⟨diskBoot, true, diskSystem, ackWritten, disk_init, rfl⟩

theorem message_answered_sample :
    (Answered (fiqMailbox (run step diskSystem ackWritten) 0x10100) 0x10100 ↔
      ¬ (DeviceClass.printer = .disk ∧
        getCommand (loadReg (run step diskSystem ackWritten).ram 0x10100).command = ack ∧
        Busy (run step diskSystem ackWritten) (.disk, 0))) ∧
    ∀ source count, source &&& 0x10 ≠ 0 → source &&& 0x08 = 0 →
      (cFiqHandler (run step diskSystem ackWritten) source 0x10100 count).ram =
        (fiqMailbox (run step diskSystem ackWritten) 0x10100).ram :=
  message_answered_iff ackWritten_reachable 0x10100 (by decide) (by decide) (by decide +kernel)

/-- The acknowledgement sent to the busy disk stays unanswered. -/
theorem busy_disk_ignores_ack :
    Reachable (run step diskSystem ackWritten) ∧ messageClass 0x10108 = some .disk ∧
      messageAddress 0x10108 ≠ 0 ∧
      (loadReg (run step diskSystem ackWritten).ram (messageAddress 0x10108)).mailbox = 0 ∧
      ¬ Answered (cFiqHandler (run step diskSystem ackWritten) 0x10 0x10108 0)
        (messageAddress 0x10108) := by
  refine ⟨ackWritten_reachable, by decide, by decide, by decide +kernel, ?_⟩
  intro answered
  exact answered (by decide +kernel)

end Emulated
