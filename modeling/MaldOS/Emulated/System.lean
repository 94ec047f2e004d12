import MaldOS.Emulated.Registers
import MaldOS.Hal.ArmTimers
import MaldOS.Hal.FatWrite
import MaldOS.Timers.TimerQueue

/-!
The state the drivers share: the memory of the clients, the line tables of
`arch.h`, the internal state of the twelve devices, the timer queue and the
timers of the cores. The clients' blocks and buffers are taken to lie outside
the drivers' own memory, which is therefore not part of `ram`.
-/
namespace Emulated
open Arch ByteMemory Registers ArmTimers EmulatedTimers

-- not the function of Ackermann, which has this name where the whole library is there
export Registers (ack)

/-- `DEVICE_CLASS_PRINTER`, `DEVICE_CLASS_TAPE` and `DEVICE_CLASS_DISK` -/
inductive DeviceClass where
  | printer
  | tape
  | disk
  deriving DecidableEq, Repr

abbrev Dev := DeviceClass × Fin maxDevices

def DeviceClass.timer : DeviceClass → TimerType
  | .printer => .printer
  | .tape => .tape
  | .disk => .disk

def DeviceClass.line : DeviceClass → Fin ilLines
  | .printer => 3
  | .tape => 1
  | .disk => 2

abbrev ilTimer : Fin ilLines := 0

/-- What the internal states of all classes have: the block that the command in flight came
    from, and the registers. A pointer is an address, with 0 for `NULL`. -/
structure Port where
  mailboxRegisters : BitVec 64
  internalRegisters : DevReg

/-- The rest of `tape_internal_state_t` -/
structure Tape where
  blockIndex : Nat
  fat32Cluster : Nat

/-- The rest of `disk_internal_state_t` -/
structure Disk where
  cylinders : Nat
  heads : Nat
  sectors : Nat
  currentCylinder : Nat
  currentHead : Nat
  currentSector : Nat
  rpm : Nat
  seektime : Nat
  dataoccupation : Nat
  fat32Cluster : Nat

/-- The rest of `printer_internal_state_t`, with the printer's `terminal_coordinates` -/
structure Printer where
  executingCommand : BitVec 32
  coordinates : Int × Int

/-- `locals` is what uninitialised local variables hold, in the order they are met. -/
structure System where
  ram : Memory 64
  installed : Fin ilLines → Byte
  lines : Fin ilLines → Byte
  mask : Byte
  fat : Fat.Volume
  ports : Dev → Port
  tapes : Fin maxDevices → Tape
  disks : Fin maxDevices → Disk
  printers : Fin maxDevices → Printer
  /-- The calls of `lfb_send` so far. -/
  screen : List (Int × Int × Byte)
  queue : TimerQueue
  clock : Counter
  virtualTimer : ArmTimer
  physicalTimers : Fin 4 → ArmTimer
  scheduledPhysicalTimers : Fin 4 → Nat
  locals : Nat → BitVec 32
  met : Nat

def System.regs (s : System) (dev : Dev) : DevReg := (s.ports dev).internalRegisters

def System.block (s : System) (dev : Dev) : BitVec 64 := (s.ports dev).mailboxRegisters

def System.due (s : System) (dev : Dev) : List Timer := s.queue.due dev.1.timer dev.2

def bit (i : Fin maxDevices) : Byte := 1#8 <<< i.val

/-- `interruptlines[line] |= 1 << i` -/
def System.raiseLine (s : System) (line : Fin ilLines) (i : Fin maxDevices) : System :=
  { s with lines := Function.update s.lines line (s.lines line ||| bit i) }

/-- `interruptlines[line] &= ~(1 << i)` -/
def System.clearLine (s : System) (line : Fin ilLines) (i : Fin maxDevices) : System :=
  { s with lines := Function.update s.lines line (s.lines line &&& ~~~ bit i) }

/-- `deviceinstalled[line] |= 1 << i` -/
def System.install (s : System) (line : Fin ilLines) (i : Fin maxDevices) : System :=
  { s with installed := Function.update s.installed line (s.installed line ||| bit i) }

def System.setPort (s : System) (dev : Dev) (p : Port) : System :=
  { s with ports := Function.update s.ports dev p }

def System.setRegs (s : System) (dev : Dev) (f : DevReg → DevReg) : System :=
  s.setPort dev ⟨s.block dev, f (s.regs dev)⟩

def System.setTape (s : System) (i : Fin maxDevices) (t : Tape) : System :=
  { s with tapes := Function.update s.tapes i t }

def System.setDisk (s : System) (i : Fin maxDevices) (d : Disk) : System :=
  { s with disks := Function.update s.disks i d }

def System.setPrinter (s : System) (i : Fin maxDevices) (p : Printer) : System :=
  { s with printers := Function.update s.printers i p }

/-- `memcpy(registers, &internal_registers, sizeof(..))` -/
def System.answer (s : System) (dev : Dev) (registers : BitVec 64) : System :=
  { s with ram := storeReg s.ram registers (s.regs dev) }

/-- `registers->mailbox = 2` -/
def System.refuse (s : System) (registers : BitVec 64) : System :=
  { s with ram := storeReg s.ram registers { loadReg s.ram registers with mailbox := 2 } }

/-- `memcpy(mailbox_registers, &internal_registers, ..); mailbox_registers = NULL` -/
def System.finish (s : System) (dev : Dev) : System :=
  (s.answer dev (s.block dev)).setPort dev ⟨0, s.regs dev⟩

def window (m : Memory 64) (p : BitVec 64) : Nat → Byte := fun i => m (p + BitVec.ofNat 64 i)

def unwindow (data : Nat → Byte) (p : BitVec 64) : Memory 64 := fun x => data (x - p).toNat

def System.readfile (s : System) (cluster : Nat) (p : BitVec 64) (seek length : Nat) :
    Int × System :=
  let r := (Fat.fatReadfile s.fat cluster (window s.ram p) seek length).get
    (Fat.fatReadfile_some s.fat cluster (window s.ram p) seek length)
  (r.1, { s with ram := unwindow r.2.1 p, fat := r.2.2 })

def System.writefile (s : System) (cluster : Nat) (p : BitVec 64) (seek length : Nat) :
    Int × System :=
  let r := (Fat.fatWritefile s.fat cluster (window s.ram p) seek length).get
    (Fat.fatWritefile_some s.fat cluster (window s.ram p) seek length)
  (r.1, { s with fat := r.2 })

/-- `fat_readfile` of four bytes into an uninitialised local variable. -/
def System.readlocal (s : System) (cluster : Nat) (seek : Nat) : BitVec 32 × System :=
  let head := fun i => (toBytes 4 (s.locals s.met).toNat).getD i 0
  let r := (Fat.fatReadfile s.fat cluster head seek 4).get
    (Fat.fatReadfile_some s.fat cluster head seek 4)
  (BitVec.ofNat 32 (Fat.word 4 r.2.1 0), { s with fat := r.2.2, met := s.met + 1 })

def noTimer : Timer := ⟨0, .unallocated, 0⟩

def setDeviceTimer (s : System) (microseconds : Nat) (type : TimerType)
    (deviceNum : Fin maxDevices) : System :=
  let currentTime := getTOD s.clock
  let timer := u64 (currentTime + microseconds)
  let s := { s with queue := s.queue.add timer type deviceNum }
  let (r, next) := s.queue.next noTimer
  if r = 0 then
    { s with virtualTimer :=
        if currentTime < next.time then
          setVirtualTimer s.clock s.virtualTimer (next.time - currentTime)
        else setVirtualTimer s.clock s.virtualTimer 0 }
  else s

end Emulated
