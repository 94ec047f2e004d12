import MaldOS.Library.Aarch64

/-!
The routines of `asmlib.S` that store a context and load one. A conditional
branch is an `if` on the flag, and the code at its label a definition.
-/
namespace Exceptions
open Aarch64 Words

/-- `sizeof(state_t)` -/
abbrev stateBytes : Nat := 280

/-- A context as a `state_t` has it. -/
def image (c : Context) : List Word :=
  (List.finRange 31).map c.x ++ [c.sp, c.pc, c.ttbr0, c.pstate]

def systemEl2 (s : Cpu) : Cpu :=
  let s := s.run [
    .ldr 1 (.pre (.x 0) 8),
    .msr .elrEl2 1,
    .ldr 1 (.pre (.x 0) 8),
    .msr .ttbr0El1 1,
    .ldr 1 (.pre (.x 0) 8),
    .msr .spsrEl2 1,
    .ldr 0 (.offset .sp (-8)),
    .and 1 1 7,
    .cmp 1 0]
  if s.zero then s.run [.ldr 1 (.offset .sp (-16)), .msr .spEl0 1]
  else s.run [.ldr 1 (.offset .sp (-16)), .msr .spEl1 1]

def systemEl1 (s : Cpu) : Cpu :=
  let s := s.run [
    .ldr 1 (.pre (.x 0) 8),
    .msr .elrEl1 1,
    .ldr 1 (.pre (.x 0) 8),
    .msr .ttbr0El1 1,
    .ldr 1 (.pre (.x 0) 8),
    .msr .spsrEl1 1,
    .ldr 0 (.offset .sp (-8)),
    .and 1 1 7,
    .cmp 1 0]
  if s.zero then s.run [.ldr 1 (.offset .sp (-16)), .msr .spEl0 1]
  else s.run [.ldr 1 (.offset .sp (-16)), .mov .sp (.x 1)]

/-- `LDST`, up to the `ands` on `CurrentEl` -/
def ldstLoads : List Instr := [
  .str 0 (.offset .sp (-8)),
  .ldp 2 3 (.pre (.x 0) 24),
  .ldp 4 5 (.pre (.x 0) 16),
  .ldp 6 7 (.pre (.x 0) 16),
  .ldp 8 9 (.pre (.x 0) 16),
  .ldp 10 11 (.pre (.x 0) 16),
  .ldp 12 13 (.pre (.x 0) 16),
  .ldp 14 15 (.pre (.x 0) 16),
  .ldp 16 17 (.pre (.x 0) 16),
  .ldp 18 19 (.pre (.x 0) 16),
  .ldp 20 21 (.pre (.x 0) 16),
  .ldp 22 23 (.pre (.x 0) 16),
  .ldp 24 25 (.pre (.x 0) 16),
  .ldp 26 27 (.pre (.x 0) 16),
  .ldp 28 29 (.pre (.x 0) 16),
  .ldr 30 (.pre (.x 0) 8),
  .ldr 1 (.pre (.x 0) 8),
  .str 1 (.offset .sp (-16))]

/-- `LDST` -/
def ldst (s : Cpu) : Context :=
  let s := s.run ldstLoads
  let s := s.run [.currentEl 1, .ands 1 1 0xC, .cmp 1 4]
  let s := if s.zero then systemEl1 s else systemEl2 s
  (s.run [.ldr 1 (.offset (.x 0) 8), .ldr 0 (.offset (.x 0) 0)]).eret

/-- `STST_asm_el2`, up to the test of the saved mode -/
def ststAsmEl2Stores : List Instr := [
  .stp 0 1 (.offset (.x 5) 0),
  .stp 2 3 (.pre (.x 5) 16),
  .ldr 0 (.post .sp 16),
  .stp 4 0 (.pre (.x 5) 16),
  .stp 6 7 (.pre (.x 5) 16),
  .stp 8 9 (.pre (.x 5) 16),
  .stp 10 11 (.pre (.x 5) 16),
  .stp 12 13 (.pre (.x 5) 16),
  .stp 14 15 (.pre (.x 5) 16),
  .stp 16 17 (.pre (.x 5) 16),
  .stp 18 19 (.pre (.x 5) 16),
  .stp 20 21 (.pre (.x 5) 16),
  .stp 22 23 (.pre (.x 5) 16),
  .stp 24 25 (.pre (.x 5) 16),
  .stp 26 27 (.pre (.x 5) 16),
  .str 28 (.pre (.x 5) 16),
  .ldp 1 2 (.post .sp 16),
  .str 1 (.pre (.x 5) 8),
  .str 2 (.pre (.x 5) 8)]

/-- `STST_asm_el2` -/
def ststAsmEl2 (s : Cpu) : Cpu :=
  let s := s.run ststAsmEl2Stores
  let s := s.run [.mrs 1 .spsrEl1, .and 1 1 7, .cmp 1 0]
  let s := if s.zero then s.run [.mrs 1 .spEl0] else s.run [.mrs 1 .spEl1]
  s.run [
    .mrs 2 .elrEl1,
    .mrs 3 .ttbr0El1,
    .mrs 4 .spsrEl1,
    .str 1 (.pre (.x 5) 8),
    .str 2 (.pre (.x 5) 8),
    .str 3 (.pre (.x 5) 8),
    .str 4 (.pre (.x 5) 8)]

/-- `STST_asm`, up to the test of `CurrentEL` -/
def ststAsmStores : List Instr := [
  .stp 0 1 (.offset (.x 28) 0),
  .stp 2 3 (.pre (.x 28) 16),
  .stp 4 5 (.pre (.x 28) 16),
  .stp 6 7 (.pre (.x 28) 16),
  .stp 8 9 (.pre (.x 28) 16),
  .stp 10 11 (.pre (.x 28) 16),
  .stp 12 13 (.pre (.x 28) 16),
  .stp 14 15 (.pre (.x 28) 16),
  .stp 16 17 (.pre (.x 28) 16),
  .stp 18 19 (.pre (.x 28) 16),
  .stp 20 21 (.pre (.x 28) 16),
  .stp 22 23 (.pre (.x 28) 16),
  .stp 24 25 (.pre (.x 28) 16),
  .stp 26 27 (.pre (.x 28) 16),
  .ldp 26 27 (.post .sp 16),
  .str 26 (.pre (.x 28) 16),
  .ldp 26 27 (.post .sp 16),
  .str 26 (.pre (.x 28) 8),
  .str 27 (.pre (.x 28) 8)]

/-- `STST_asm` -/
def ststAsm (s : Cpu) : Cpu :=
  let s := s.run ststAsmStores
  let s := s.run [.currentEl 0, .cmp 0 4]
  let s :=
    if s.zero then s.run [.mrs 1 .spsrEl1, .mrs 2 .elrEl1, .mov (.x 3) .sp]
    else s.run [.mrs 1 .spsrEl2, .mrs 2 .elrEl2, .mrs 3 .spEl1]
  let s := s.run [.mov (.x 27) (.x 1), .and 27 27 7, .cmp 27 0]
  let s :=
    if s.zero then s.run [.mrs 27 .spEl0]
    else s.run [.mov (.x 27) (.x 3), .add 27 27 16]
  s.run [
    .str 27 (.pre (.x 28) 8),
    .mov (.x 27) (.x 2),
    .str 27 (.pre (.x 28) 8),
    .ldr 27 (.post .sp 16),
    .str 27 (.pre (.x 28) 8),
    .mov (.x 27) (.x 1),
    .str 27 (.pre (.x 28) 8)]

end Exceptions
