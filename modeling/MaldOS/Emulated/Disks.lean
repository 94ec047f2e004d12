import MaldOS.Emulated.System

/-!
`emulated_disks.c`: the geometry of a disk, the commands sent to it through a
mailbox and their completion.
-/
namespace Emulated
open Arch ByteMemory Registers ArmTimers EmulatedTimers

abbrev maxCylinders : Nat := 0xFFFF
abbrev maxHeads : Nat := 0xFF
abbrev maxSectors : Nat := 0xFF
abbrev diskBlocksize : Nat := 4096

/-- `currentcyl > cyl ? currentcyl - cyl : cyl - currentcyl` -/
def distance (current destination : Nat) : Nat :=
  if current > destination then current - destination else destination - current

/-- A division by zero gives zero, as the processor's `udiv` does. -/
def timeToDestination (d : Disk) (cyl sect : Nat) : Nat :=
  let rotationspeed := u32 (d.rpm / 60 * d.sectors)
  let rotationspeed := u32 (1000000 / rotationspeed)
  let cylindertime := u64 (distance d.currentCylinder cyl * d.seektime)
  let sectortime := u64 (distance d.currentSector sect * rotationspeed)
  u64 (sectortime + cylindertime)

def seekDiskBlock (d : Disk) : Nat :=
  u32 (7 * 4 + (d.currentHead * d.cylinders + d.currentCylinder * d.sectors + d.currentSector) *
    diskBlocksize)

def readDiskBlock (s : System) (disk : Fin maxDevices) (buffer : BitVec 64) : Int × System :=
  let d := s.disks disk
  if d.fat32Cluster = 0 then (0, s)
  else s.readfile d.fat32Cluster buffer (seekDiskBlock d) diskBlocksize

/-- The result is an `unsigned int`. -/
def writeDiskBlock (s : System) (disk : Fin maxDevices) (buffer : BitVec 64) : Nat × System :=
  let d := s.disks disk
  if d.fat32Cluster = 0 then (0, s)
  else
    let (r, s) := s.writefile d.fat32Cluster buffer (seekDiskBlock d) diskBlocksize
    ((r % 2 ^ 32).toNat, s)

/-- The head and the sector that a command names. -/
def System.aimDisk (s : System) (i : Fin maxDevices) (command : BitVec 32) : System :=
  s.setDisk i { s.disks i with
    currentHead := (getCommandHeadnum command).toNat
    currentSector := (getCommandSectnum command).toNat }

def manageEmulatedDisk (s : System) (i : Fin maxDevices) : System :=
  let r := s.regs (.disk, i)
  if r.status = deviceNotInstalled then s
  else if r.status = deviceBusy then
    if getCommand r.command = seekcyl then
      let s := s.setDisk i
        { s.disks i with currentCylinder := (getCommandCylnum r.command).toNat }
      let s := s.setRegs (.disk, i) fun r => { r with status := deviceReady }
      (s.raiseLine DeviceClass.disk.line i).finish (.disk, i)
    else if getCommand r.command = readblk then
      let (res, s) := readDiskBlock (s.aimDisk i r.command) i (r.data0.setWidth 64)
      let s :=
        if res < 0 then s.setRegs (.disk, i) fun r => { r with status := readError }
        else
          let s := s.setRegs (.disk, i) fun r => { r with status := deviceReady }
          s.raiseLine DeviceClass.disk.line i
      s.finish (.disk, i)
    else if getCommand r.command = writeblk then
      let (res, s) := writeDiskBlock (s.aimDisk i r.command) i (r.data0.setWidth 64)
      let s :=
        if res < 0 then s.setRegs (.disk, i) fun r => { r with status := writeError }
        else
          let s := s.setRegs (.disk, i) fun r => { r with status := deviceReady }
          s.raiseLine DeviceClass.disk.line i
      s.finish (.disk, i)
    else s
  else s

/-- What the three commands that wait for a timer do with a disk that is not busy. -/
def System.startDisk (s : System) (i : Fin maxDevices) (registers : BitVec 64) (message : DevReg)
    (timetodest : Nat) : System :=
  let s := s.setPort (.disk, i) ⟨registers, { s.regs (.disk, i) with
    command := message.command, data0 := message.data0, status := deviceBusy }⟩
  setDeviceTimer s timetodest .disk i

def emulatedDiskMailbox (s : System) (i : Fin maxDevices) (registers : BitVec 64) : System :=
  if registers = 0 then s
  else
    let s := s.setRegs (.disk, i) fun r => { r with mailbox := 1 }
    let d := s.disks i
    let r := s.regs (.disk, i)
    let message := loadReg s.ram registers
    if r.status = deviceNotInstalled ∧ message.command ≠ readRegisters then
      s.answer (.disk, i) registers
    else if getCommand message.command = reset then
      let s := s.setRegs (.disk, i) fun r => { r with command := reset, status := deviceReady }
      let s := s.setDisk i { d with currentCylinder := 0, currentHead := 0, currentSector := 0 }
      let s := s.raiseLine DeviceClass.disk.line i
      s.answer (.disk, i) registers
    else if getCommand message.command = ack then
      if r.status ≠ deviceBusy then
        let s := s.setRegs (.disk, i) fun r => { r with command := ack, status := deviceReady }
        let s := s.clearLine DeviceClass.disk.line i
        s.answer (.disk, i) registers
      else s
    else if getCommand message.command = readRegisters then s.answer (.disk, i) registers
    else if getCommand message.command = readblk ∨ getCommand message.command = writeblk then
      let head := (getCommandHeadnum message.command).toNat
      let sect := (getCommandSectnum message.command).toNat
      let s :=
        if r.status ≠ deviceBusy then
          if head > d.heads ∨ sect > d.sectors then
            s.setRegs (.disk, i) fun r => { r with status := illegalOperation }
          else s.startDisk i registers message (timeToDestination d d.currentCylinder sect)
        else s
      s.answer (.disk, i) registers
    else if getCommand message.command = seekcyl then
      let cyl := (getCommandCylnum message.command).toNat
      let s :=
        if r.status ≠ deviceBusy then
          if cyl > d.cylinders then
            s.setRegs (.disk, i) fun r => { r with status := illegalOperation }
          else s.startDisk i registers message (timeToDestination d cyl d.currentSector)
        else s
      s.answer (.disk, i) registers
    else
      let s := s.setRegs (.disk, i) fun r => { r with status := illegalOperation }
      s.answer (.disk, i) registers

def diskfileid : BitVec 32 := 0x0053504D

/-- `'D', 'I', 'S', 'K', '0' + i` and six blanks -/
def diskName (i : Fin maxDevices) : List Byte :=
  [0x44, 0x49, 0x53, 0x4B, 0x30 + BitVec.ofNat 8 i, 0x20, 0x20, 0x20, 0x20, 0x20, 0x20]

/-- One round of `init_emulated_disks`; `header` is the local `buffer`, which a read that fails
    leaves as it was. -/
def initEmulatedDisk (s : System) (header : Nat → Byte) (i : Fin maxDevices) :
    Option ((Nat → Byte) × System) :=
  let (found, fat) := Fat.fatGetcluster s.fat (diskName i)
  found.map fun cluster =>
    let s := { s with fat := fat }
    let s := s.setDisk i { s.disks i with fat32Cluster := cluster }
    let absent := fun (s : System) =>
      s.setRegs (.disk, i) fun r => { r with status := deviceNotInstalled, data1 := 0 }
    let (header, s) :=
      if cluster ≠ 0 then
        let r := (Fat.fatReadfile s.fat cluster header 0 (8 * 4)).get
          (Fat.fatReadfile_some s.fat cluster header 0 (8 * 4))
        let s := { s with fat := r.2.2 }
        let info := fun k => Fat.word 4 r.2.1 (4 * (k + 1))
        if BitVec.ofNat 32 (Fat.word 4 r.2.1 0) ≠ diskfileid ∨ info 0 > maxCylinders ∨
            info 1 > maxHeads ∨ info 2 > maxSectors then (r.2.1, absent s)
        else
          let s := s.install DeviceClass.disk.line i
          let s := s.setDisk i { s.disks i with
            cylinders := info 0
            heads := info 1
            sectors := info 2
            rpm := info 3
            seektime := info 4
            dataoccupation := info 5
            currentCylinder := 0
            currentHead := 0
            currentSector := 0 }
          (r.2.1, s.setRegs (.disk, i) fun r => { r with
            status := deviceReady
            data1 := BitVec.ofNat 32 (info 2) ||| BitVec.ofNat 32 (info 1) <<< 8 |||
              BitVec.ofNat 32 (info 0) <<< 16 })
      else (header, absent s)
    (header, s.setRegs (.disk, i) fun r => { r with command := reset })

def initEmulatedDisks (s : System) (stack : Nat → Byte) : Option System :=
  let s := { s with installed := Function.update s.installed DeviceClass.disk.line 0 }
  ((List.finRange maxDevices).foldlM (fun (header, s) i => initEmulatedDisk s header i)
    (stack, s)).map Prod.snd

end Emulated
