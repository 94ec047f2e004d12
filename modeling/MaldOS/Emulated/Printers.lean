import MaldOS.Emulated.System

/-!
`emulated_printers.c`: the four terminals on the screen, the commands sent to a
printer through a mailbox and their completion.
-/
namespace Emulated
open Arch ByteMemory Registers ArmTimers EmulatedTimers

abbrev width : Int := 1280 / 2
abbrev height : Int := 960 / 2

def terminalStartingCoordinates : Fin maxDevices → Int × Int
  | 0 => (0, 0)
  | 1 => (width / 9 + 1, 0)
  | 2 => (0, height / 16 + 1)
  | 3 => (width / 9 + 1, height / 16 + 1)

/-- `c` is a `char`: the low byte of `data0`. -/
def printerSend (s : System) (num : Fin maxDevices) (c : Byte) : System :=
  let start := terminalStartingCoordinates num
  let x := (s.printers num).coordinates.1 + start.1
  let y := (s.printers num).coordinates.2 + start.2
  let limitx := start.1 + width / 9
  let limity := start.2 + height / 16 + (if num.val > 1 then -1 else 0)
  let (x, y, sent) :=
    if c = 0x0D then (start.1, y, [])
    else if x + 1 ≥ limitx ∨ c = 0x0A then
      let blanks :=
        if c = 0x0A then
          (List.range (limitx - x).toNat).map fun i => (x + (i : Int), y, (0x20 : Byte))
        else []
      let x := start.1
      let y := if ¬ y + 1 ≥ limity then y + 1 else start.2
      if x + 1 ≥ limitx ∧ c ≠ 0x0A then (x + 1, y, blanks ++ [(x, y, c)])
      else (x, y, blanks)
    else (x + 1, y, [(x, y, c)])
  { s.setPrinter num { s.printers num with coordinates := (x - start.1, y - start.2) } with
    screen := s.screen ++ sent }

def manageEmulatedPrinter (s : System) (i : Fin maxDevices) : System :=
  let r := s.regs (.printer, i)
  if r.status = deviceBusy then
    if r.command = printChar then
      let s := printerSend s i (r.data0.setWidth 8)
      let s := s.setRegs (.printer, i) fun r => { r with status := deviceReady }
      let s := s.raiseLine DeviceClass.printer.line i
      let s := s.setPrinter i { s.printers i with executingCommand := reset }
      s.finish (.printer, i)
    else s
  else s

def emulatedPrinterMailbox (s : System) (i : Fin maxDevices) (registers : BitVec 64) : System :=
  if registers = 0 then s
  else
    let message := loadReg s.ram registers
    if (s.regs (.printer, i)).status = deviceNotInstalled ∧ message.command ≠ readRegisters then s
    else
      let s := s.setRegs (.printer, i) fun r => { r with mailbox := 1 }
      let r := s.regs (.printer, i)
      if getCommand message.command = reset then
        let s := s.setRegs (.printer, i) fun r => { r with status := deviceReady, command := reset }
        let s := s.clearLine DeviceClass.printer.line i
        s.answer (.printer, i) registers
      else if getCommand message.command = ack then
        if r.status ≠ deviceBusy then
          let s := s.setRegs (.printer, i) fun r => { r with command := ack, status := deviceReady }
          let s := s.clearLine DeviceClass.printer.line i
          s.answer (.printer, i) registers
        else s.refuse registers
      else if getCommand message.command = readRegisters then s.answer (.printer, i) registers
      else if getCommand message.command = printChar then
        if r.status ≠ deviceBusy then
          let s := s.setPort (.printer, i) ⟨registers, { r with
            status := deviceBusy, command := printChar, data0 := message.data0 }⟩
          let s := s.answer (.printer, i) registers
          setDeviceTimer s 8 .printer i
        else s.refuse registers
      else
        let s := s.setRegs (.printer, i) fun r => { r with status := illegalOperation }
        s.answer (.printer, i) registers

/-- One round of `init_emulated_printers` -/
def initEmulatedPrinter (s : System) (i : Fin maxDevices) : System :=
  s.setRegs (.printer, i) fun r => { r with command := reset, status := deviceReady }

def initEmulatedPrinters (s : System) : System :=
  let s := { s with installed := Function.update s.installed DeviceClass.printer.line 0x0F }
  (List.finRange maxDevices).foldl initEmulatedPrinter s

end Emulated
