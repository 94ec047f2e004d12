import MaldOS.Arch
import MaldOS.Exceptions.Asmlib

/-!
`vectors.S`: the way of an exception to the routine that stores the context. An
exception that is not handled at EL1 comes to EL2 by the `hvc` of
`syncronous_exception`.
-/
namespace Exceptions
open Aarch64 Words

/-! `bios_const.h` and `system.h` -/

abbrev interruptOldarea : Word := 0x70000
abbrev exceptionOldarea : Word := 0x70000
abbrev synchronousOffset : Word := 0x800
abbrev abortOffset : Word := 0x1000
abbrev coreOffset : Word := 0x200
abbrev ecSvc : Word := 0x15
abbrev ecHvc : Word := 0x16

/-- `link` is the address that `bl` leaves in x30. -/
def keepCurrentStackIrqHandler (link : Word) (s : Cpu) : Cpu :=
  ststAsm (s.run [
    .mrs 28 .ttbr0El1,
    .mrs 27 .ttbr1El1,
    .msr .ttbr0El1 27,
    .str 28 (.pre .sp (-16)),
    .stp 29 30 (.pre .sp (-16)),
    .stp 28 28 (.pre .sp (-16)),
    .str 26 (.pre .sp (-8)),
    .mrs 27 .mpidrEl1,
    .and 27 27 3,
    .movImm 28 interruptOldarea,
    .movImm 26 coreOffset,
    .madd 28 26 27 28,
    .ldr 26 (.post .sp 8),
    .bl link])

/-- `set_irq_stack_coreN` and `set_chosen_stack` -/
def setIrqStack (stack link : Word) (s : Cpu) : Cpu :=
  keepCurrentStackIrqHandler link (s.run [.movImm 27 stack, .mov .sp (.x 27)])

/-- `el1Stack` are the symbols `__EL1_stack_coreN`. -/
def irqHandler (el1Stack : Fin 4 → Word) (link : Word) (s : Cpu) : Cpu :=
  let s := s.run [.mrs 27 .mpidrEl1, .and 27 27 3, .cmp 27 0]
  if s.zero then setIrqStack (el1Stack 0) link s
  else
    let s := s.run [.cmp 27 1]
    if s.zero then setIrqStack (el1Stack 1) link s
    else
      let s := s.run [.cmp 27 2]
      if s.zero then setIrqStack (el1Stack 2) link s
      else
        let s := s.run [.cmp 27 3]
        if s.zero then setIrqStack (el1Stack 3) link s else setIrqStack (el1Stack 0) link s

/-- The entries of `interrupt_vector` for an IRQ from EL0 and one from EL1. -/
def interruptVector (el1Stack : Fin 4 → Word) (link : Word) (s : Cpu) : Cpu :=
  if s.sys .spsrEl1 &&& 0xF = 0 then irqHandler el1Stack link s
  else keepCurrentStackIrqHandler link s

/-- What `swi_handler_el2` and `abort_handler` do before they call C, with the offset of their
    old areas. -/
def storeOldarea (offset link : Word) (s : Cpu) : Cpu :=
  ststAsmEl2 (s.run [
    .mrs 5 .mpidrEl1,
    .and 5 5 3,
    .movImm 1 exceptionOldarea,
    .add 1 1 offset,
    .movImm 2 coreOffset,
    .madd 1 2 5 1,
    .mov (.x 5) (.x 1),
    .ldp 2 3 (.post .sp 16),
    .ldp 0 1 (.post .sp 16),
    .bl link])

def swiHandlerEl2 (link : Word) (s : Cpu) : Cpu := storeOldarea synchronousOffset link s

def abortHandler (link : Word) (s : Cpu) : Cpu := storeOldarea abortOffset link s

inductive Branch where
  | cSwiHandler
  | cAbortHandler
  | hang
  deriving DecidableEq

def syncronousExceptionEl2 (link : Word) (s : Cpu) : Branch × Cpu :=
  let s := s.run [
    .stp 29 30 (.pre .sp (-16)),
    .str 5 (.pre .sp (-16)),
    .stp 0 1 (.pre .sp (-16)),
    .stp 2 3 (.pre .sp (-16)),
    .mrs 1 .esrEl2,
    .lsr 0 1 26,
    .cmp 0 ecHvc]
  if s.zero then
    let s := s.run [
      .mrs 1 .esrEl2,
      .and 1 1 0xFF,
      .cmp 1 0,
      .mrs 1 .esrEl1,
      .lsr 0 1 26,
      .cmp 0 ecSvc]
    if s.zero then (.cSwiHandler, swiHandlerEl2 link s)
    else (.cAbortHandler, abortHandler link (s.run [.and 1 1 0x1FFFFFF]))
  else (.hang, s)

end Exceptions
