import MaldOS.Arch
import MaldOS.Library.ByteMemory

/-!
The five registers a device shows its clients, in the driver and as a block of
twenty bytes in a client's memory (`types.h`), with the codes of their fields.
-/
namespace Registers
open Arch ByteMemory

/-- `tapereg_t`, `diskreg_t` and `printreg_t` -/
structure DevReg where
  status : BitVec 32
  command : BitVec 32
  data0 : BitVec 32
  data1 : BitVec 32
  mailbox : BitVec 32
  deriving DecidableEq

/-! Status codes; the last three differ from class to class. -/

abbrev deviceNotInstalled : BitVec 32 := 0
abbrev deviceReady : BitVec 32 := 1
abbrev illegalOperation : BitVec 32 := 2
abbrev deviceBusy : BitVec 32 := 3
abbrev skipError : BitVec 32 := 4
abbrev readError : BitVec 32 := 5
abbrev backBlockError : BitVec 32 := 6
abbrev writeError : BitVec 32 := 6

/-! Command codes: three for all, then those of tapes, disks and printers. -/

abbrev reset : BitVec 32 := 0
abbrev ack : BitVec 32 := 1
abbrev readRegisters : BitVec 32 := 2
abbrev skipblk : BitVec 32 := 3
abbrev readblk : BitVec 32 := 4
abbrev backblk : BitVec 32 := 5
abbrev seekcyl : BitVec 32 := 3
abbrev writeblk : BitVec 32 := 5
abbrev printChar : BitVec 32 := 3

def getCommand (x : BitVec 32) : BitVec 32 := x &&& 0xFF

def getCommandSectnum (x : BitVec 32) : BitVec 32 := (x >>> 8) &&& 0xFF

def getCommandHeadnum (x : BitVec 32) : BitVec 32 := (x >>> 16) &&& 0xFF

def getCommandCylnum (x : BitVec 32) : BitVec 32 := (x >>> 16) &&& 0xFFFF

/-- `sizeof(diskreg_t)` -/
abbrev regBytes : Nat := 20

def field (m : Memory 64) (a : BitVec 64) (offset : Nat) : BitVec 32 :=
  loadWord 4 m (a + BitVec.ofNat 64 offset)

def loadReg (m : Memory 64) (a : BitVec 64) : DevReg :=
  ⟨field m a 0, field m a 4, field m a 8, field m a 12, field m a 16⟩

def regList (r : DevReg) : List Byte :=
  toBytes 4 r.status.toNat ++ toBytes 4 r.command.toNat ++ toBytes 4 r.data0.toNat ++
    toBytes 4 r.data1.toNat ++ toBytes 4 r.mailbox.toNat

/-- `memcpy(registers, &internal_registers, sizeof(diskreg_t))` -/
def storeReg (m : Memory 64) (a : BitVec 64) (r : DevReg) : Memory 64 := store m a (regList r)

theorem regList_length (r : DevReg) : (regList r).length = regBytes := by simp [regList]

theorem load_block (m : Memory 64) (a : BitVec 64) :
    load m a regBytes = load m a 4 ++ load m (a + 4) 4 ++ load m (a + 8) 4 ++ load m (a + 12) 4 ++
      load m (a + 16) 4 := by
  rw [show regBytes = 4 + 4 + 4 + 4 + 4 by rfl]
  simp only [load_append]
  rfl

theorem loadReg_storeReg (m : Memory 64) (a : BitVec 64) (r : DevReg) :
    loadReg (storeReg m a r) a = r := by
  have whole := load_store_same m a (regList r) (by rw [regList_length]; decide)
  rw [regList_length, load_block] at whole
  simp only [regList] at whole
  obtain ⟨whole, mailbox⟩ := List.append_inj' whole (by simp)
  obtain ⟨whole, data1⟩ := List.append_inj' whole (by simp)
  obtain ⟨whole, data0⟩ := List.append_inj' whole (by simp)
  obtain ⟨status, command⟩ := List.append_inj' whole (by simp)
  cases r
  simp only [loadReg, field, DevReg.mk.injEq]
  refine ⟨loadWord_of_load ?_, loadWord_of_load command, loadWord_of_load data0,
    loadWord_of_load data1, loadWord_of_load mailbox⟩
  rw [show a + BitVec.ofNat 64 0 = a from BitVec.add_zero a]
  exact status

theorem storeReg_loadReg (m : Memory 64) (a : BitVec 64) : storeReg m a (loadReg m a) = m := by
  have same : regList (loadReg m a) = load m a regBytes := by
    rw [load_block]
    simp only [regList, loadReg, field, toBytes_loadWord]
    simp
  rw [storeReg, same]
  exact store_load m a regBytes

end Registers
