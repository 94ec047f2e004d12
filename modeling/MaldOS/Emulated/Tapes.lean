import MaldOS.Emulated.System

/-!
`emulated_tapes.c`: the position of a tape, the commands sent to it through a
mailbox and their completion.
-/
namespace Emulated
open Arch ByteMemory Registers ArmTimers EmulatedTimers

/-! The markers of `data1`. -/

abbrev eot : BitVec 32 := 0
abbrev eof : BitVec 32 := 1
abbrev eob : BitVec 32 := 2
abbrev ts : BitVec 32 := 3

abbrev tapeBlocksize : Nat := 4096

def updateTapeHead (s : System) (tape : Fin maxDevices) : Int × System :=
  let t := s.tapes tape
  if t.blockIndex = 0 then (0, s.setRegs (.tape, tape) fun r => { r with data1 := ts })
  else
    let seek := u32 (t.blockIndex * tapeBlocksize + t.blockIndex * 4)
    let (head, s) := s.readlocal t.fat32Cluster seek
    if head ≠ eob ∧ head ≠ eof ∧ head ≠ eot then (-1, s)
    else (0, s.setRegs (.tape, tape) fun r => { r with data1 := head })

def readTapeBlock (s : System) (tape : Fin maxDevices) (buffer : BitVec 64) : Int × System :=
  let t := s.tapes tape
  if t.fat32Cluster = 0 then (0, s)
  else
    let blockStart := u32 (t.blockIndex * tapeBlocksize + (t.blockIndex + 1) * 4)
    s.readfile t.fat32Cluster buffer blockStart tapeBlocksize

def System.moveTape (s : System) (i : Fin maxDevices) (blockIndex : Nat) : System :=
  s.setTape i { s.tapes i with blockIndex := blockIndex }

def tapeNextBlock (s : System) (tape : Fin maxDevices) : Int × System :=
  if (s.regs (.tape, tape)).data1 = eot then (-1, s)
  else updateTapeHead (s.moveTape tape (u32 ((s.tapes tape).blockIndex + 1))) tape

def tapePrevBlock (s : System) (tape : Fin maxDevices) : Int × System :=
  if (s.tapes tape).blockIndex > 0 then
    updateTapeHead (s.moveTape tape ((s.tapes tape).blockIndex - 1)) tape
  else (-1, s)

def manageEmulatedTape (s : System) (i : Fin maxDevices) : System :=
  let r := s.regs (.tape, i)
  if r.status = deviceNotInstalled then s
  else if r.status = deviceBusy then
    if r.command = skipblk then
      let (res, s) := tapeNextBlock s i
      let s := s.setRegs (.tape, i) fun r =>
        { r with status := if res < 0 then skipError else deviceReady }
      (s.finish (.tape, i)).raiseLine DeviceClass.tape.line i
    else if r.command = backblk then
      let (res, s) := tapePrevBlock s i
      let s := s.setRegs (.tape, i) fun r =>
        { r with status := if res < 0 then backBlockError else deviceReady }
      (s.finish (.tape, i)).raiseLine DeviceClass.tape.line i
    else if r.command = readblk then
      let (res, s) := readTapeBlock s i (r.data0.setWidth 64)
      let s :=
        if res < 0 then s.setRegs (.tape, i) fun r => { r with status := readError }
        else
          let s := s.moveTape i (u32 ((s.tapes i).blockIndex + 1))
          let (res, s) := updateTapeHead s i
          let s := s.setRegs (.tape, i) fun r =>
            { r with status := if res < 0 then readError else deviceReady }
          s.raiseLine DeviceClass.tape.line i
      s.finish (.tape, i)
    else s
  else s

/-- What the three commands that wait for a timer do with a tape that is not busy. -/
def System.startTape (s : System) (i : Fin maxDevices) (registers : BitVec 64) (command : BitVec 32)
    (data0 : BitVec 32) : System :=
  let s := s.setPort (.tape, i) ⟨registers, { s.regs (.tape, i) with
    command := command, data0 := data0, status := deviceBusy }⟩
  let s := s.answer (.tape, i) registers
  setDeviceTimer s 1000 .tape i

def emulatedTapeMailbox (s : System) (i : Fin maxDevices) (registers : BitVec 64) : System :=
  if registers = 0 then s
  else
    let s := s.setRegs (.tape, i) fun r => { r with mailbox := 1 }
    let r := s.regs (.tape, i)
    let message := loadReg s.ram registers
    if r.status = deviceNotInstalled ∧ message.command ≠ readRegisters then
      s.answer (.tape, i) registers
    else if message.command = reset then
      let s := s.setRegs (.tape, i) fun r => { r with command := reset, status := deviceReady }
      let s := (updateTapeHead (s.moveTape i 0) i).2
      let s := s.raiseLine DeviceClass.tape.line i
      s.answer (.tape, i) registers
    else if message.command = ack then
      let s :=
        if r.status ≠ deviceBusy then
          (s.setRegs (.tape, i) fun r => { r with command := ack, status := deviceReady }).clearLine
            DeviceClass.tape.line i
        else s
      s.answer (.tape, i) registers
    else if message.command = readRegisters then s.answer (.tape, i) registers
    else if message.command = skipblk then
      if r.status ≠ deviceBusy then s.startTape i registers skipblk r.data0
      else s.answer (.tape, i) registers
    else if message.command = backblk then
      if r.status ≠ deviceBusy then s.startTape i registers backblk r.data0
      else s.answer (.tape, i) registers
    else if message.command = readblk then
      if r.status ≠ deviceBusy then
        if r.data1 = eot then
          let s := s.setRegs (.tape, i) fun r => { r with status := readError }
          (s.refuse registers).answer (.tape, i) registers
        else s.startTape i registers readblk message.data0
      else s.answer (.tape, i) registers
    else
      let s := s.setRegs (.tape, i) fun r => { r with status := illegalOperation }
      s.answer (.tape, i) registers

def tapefileid : BitVec 32 := 0x0153504D

/-- `'T', 'A', 'P', 'E', '0' + i` and six blanks -/
def tapeName (i : Fin maxDevices) : List Byte :=
  [0x54, 0x41, 0x50, 0x45, 0x30 + BitVec.ofNat 8 i, 0x20, 0x20, 0x20, 0x20, 0x20, 0x20]

/-- One round of `init_emulated_tapes`; `fileid` is the local `tapefileid`, which a read that
    fails leaves as it was. -/
def initEmulatedTape (s : System) (fileid : Nat → Byte) (i : Fin maxDevices) :
    Option ((Nat → Byte) × System) :=
  let (found, fat) := Fat.fatGetcluster s.fat (tapeName i)
  found.map fun cluster =>
    let s := { s with fat := fat }
    let s := s.setTape i { s.tapes i with fat32Cluster := cluster, blockIndex := 0 }
    let absent := fun (s : System) =>
      s.setRegs (.tape, i) fun r => { r with status := deviceNotInstalled, data1 := eot }
    let (fileid, s) :=
      if cluster ≠ 0 then
        let r := (Fat.fatReadfile s.fat cluster fileid 0 4).get
          (Fat.fatReadfile_some s.fat cluster fileid 0 4)
        let s := { s with fat := r.2.2 }
        if BitVec.ofNat 32 (Fat.word 4 r.2.1 0) ≠ tapefileid then (r.2.1, absent s)
        else
          let s := s.install DeviceClass.tape.line i
          (r.2.1, s.setRegs (.tape, i) fun r => { r with status := deviceReady, data1 := ts })
      else (fileid, absent s)
    (fileid, s.setRegs (.tape, i) fun r => { r with command := reset })

def initEmulatedTapes (s : System) (stack : Nat → Byte) : Option System :=
  let s := { s with installed := Function.update s.installed DeviceClass.tape.line 0 }
  ((List.finRange maxDevices).foldlM (fun (fileid, s) i => initEmulatedTape s fileid i)
    (stack, s)).map Prod.snd

end Emulated
