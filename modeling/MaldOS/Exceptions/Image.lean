import MaldOS.Exceptions.El2Stack

/-!
The old area as the kernel finds it: the fields of its `state_t` are those of the
interrupted context, and the stack pointers are where the entry found them.
-/
namespace Exceptions
open Aarch64 Words ByteMemory

/-- `state_t` -/
structure StateT where
  generalPurposeRegisters : Fin 29 → Word
  framePointer : Word
  linkRegister : Word
  stackPointer : Word
  exceptionLinkRegister : Word
  ttbr0 : Word
  statusRegister : BitVec 32

def stateT (m : Memory 64) (a : Word) : StateT where
  generalPurposeRegisters k := word m (a + BitVec.ofNat 64 (8 * k))
  framePointer := word m (a + 232)
  linkRegister := word m (a + 240)
  stackPointer := word m (a + 248)
  exceptionLinkRegister := word m (a + 256)
  ttbr0 := word m (a + 264)
  statusRegister := loadWord 4 m (a + 272)

/-- `SPSR_EL1` is stored with 64 bits, of which the field has the low ones. -/
theorem stateT_image {m : Memory 64} {a : Word} {c : Context} (holds : Holds m a (image c)) :
    stateT m a = ⟨fun k => c.x ⟨k, by omega⟩, c.x 29, c.x 30, c.sp, c.pc, c.ttbr0,
      c.pstate.setWidth 32⟩ := by
  have slots : ∀ k : Fin 29, word m (a + BitVec.ofNat 64 (8 * k)) = c.x ⟨k, by omega⟩ := by
    intro k
    have inside : k.val < (image c).length := by
      rw [show (image c).length = 35 from rfl]
      omega
    rw [holds_get holds inside]
    have left : k.val < ((List.finRange 31).map c.x).length := by
      rw [List.length_map, List.length_finRange]
      omega
    simp only [image]
    rw [List.getElem_append_left left, List.getElem_map, List.getElem_finRange]
    rfl
  have fp : word m (a + 232) = c.x 29 := holds_get holds (by decide : 29 < 35)
  have lr : word m (a + 240) = c.x 30 := holds_get holds (by decide : 30 < 35)
  have sp : word m (a + 248) = c.sp := holds_get holds (by decide : 31 < 35)
  have pc : word m (a + 256) = c.pc := holds_get holds (by decide : 32 < 35)
  have ttbr0 : word m (a + 264) = c.ttbr0 := holds_get holds (by decide : 33 < 35)
  have pstate : word m (a + 272) = c.pstate := holds_get holds (by decide : 34 < 35)
  have low : loadWord 4 m (a + 272) = (word m (a + 272)).setWidth 32 := by
    unfold word
    exact loadWord_low 4 4 m (a + 272)
  unfold stateT
  simp only [slots, fp, lr, sp, pc, ttbr0, low, pstate]

theorem ststAsm_moved (s : Cpu) : Moved 48 [] s (ststAsm s) := by
  obtain ⟨t, stored⟩ : ∃ t, t = s.run ststAsmStores := ⟨_, rfl⟩
  have stores : Moved 32 [] s t := by
    rw [stored]
    exact run_moves (by simp [ststAsmStores]) rfl rfl
  obtain ⟨u, tested⟩ : ∃ u, u = t.run [.currentEl 0, .cmp 0 4] := ⟨_, rfl⟩
  have test : Moved 0 [] t u := by
    rw [tested]
    exact run_moves (by simp) rfl rfl
  obtain ⟨v, chosen⟩ : ∃ v, v = if u.zero then
      u.run [.mrs 1 .spsrEl1, .mrs 2 .elrEl1, .mov (.x 3) .sp]
    else u.run [.mrs 1 .spsrEl2, .mrs 2 .elrEl2, .mrs 3 .spEl1] := ⟨_, rfl⟩
  have level : Moved 0 [] u v := by
    rw [chosen]
    exact moved_ite (run_moves (by simp) rfl rfl) (run_moves (by simp) rfl rfl)
  obtain ⟨w, masked⟩ : ∃ w, w = v.run [.mov (.x 27) (.x 1), .and 27 27 7, .cmp 27 0] := ⟨_, rfl⟩
  have mask : Moved 0 [] v w := by
    rw [masked]
    exact run_moves (by simp) rfl rfl
  obtain ⟨p, pointed⟩ : ∃ p, p = if w.zero then w.run [.mrs 27 .spEl0]
    else w.run [.mov (.x 27) (.x 3), .add 27 27 16] := ⟨_, rfl⟩
  have pointer : Moved 0 [] w p := by
    rw [pointed]
    exact moved_ite (run_moves (by simp) rfl rfl) (run_moves (by simp) rfl rfl)
  have last : Moved 16 [] p (p.run [.str 27 (.pre (.x 28) 8), .mov (.x 27) (.x 2),
    .str 27 (.pre (.x 28) 8), .ldr 27 (.post .sp 16), .str 27 (.pre (.x 28) 8),
    .mov (.x 27) (.x 1), .str 27 (.pre (.x 28) 8)]) := run_moves (by simp) rfl rfl
  unfold ststAsm
  dsimp only
  rw [← stored, ← tested, ← chosen, ← masked, ← pointed]
  exact ((((stores.trans test).trans level).trans mask).trans pointer).trans last

theorem keepCurrentStack_moved {s : Cpu} (link : Word) (level : s.level = .el1) :
    Moved 0 [.ttbr0El1] s (keepCurrentStackIrqHandler link s) := by
  have pushes : Moved (-48) [.ttbr0El1] s (s.run [.mrs 28 .ttbr0El1, .mrs 27 .ttbr1El1,
    .msr .ttbr0El1 27, .str 28 (.pre .sp (-16)), .stp 29 30 (.pre .sp (-16)),
    .stp 28 28 (.pre .sp (-16)), .str 26 (.pre .sp (-8)), .mrs 27 .mpidrEl1, .and 27 27 3,
    .movImm 28 interruptOldarea, .movImm 26 coreOffset, .madd 28 26 27 28, .ldr 26 (.post .sp 8),
    .bl link]) := run_moves (by simp [level]) rfl rfl
  unfold keepCurrentStackIrqHandler
  exact pushes.trans (ststAsm_moved _)

theorem interruptVector_stacks {s : Cpu} (el1Stack : Fin 4 → Word) (link : Word)
    (level : s.level = .el1) :
    (interruptVector el1Stack link s).sys .spEl1 = irqStack el1Stack s ∧
      (interruptVector el1Stack link s).sys .spEl2 = s.sys .spEl2 := by
  have kept : ∀ t : Cpu, t.level = .el1 →
      (keepCurrentStackIrqHandler link t).sys .spEl1 = t.sys .spEl1 ∧
        (keepCurrentStackIrqHandler link t).sys .spEl2 = t.sys .spEl2 := by
    intro t level
    have moved := keepCurrentStack_moved link level
    constructor
    · have top := moved.sp
      rw [Cpu.sp, Cpu.sp, moved.level, level] at top
      simpa using top
    · exact moved.sys .spEl2 (by simp [level]) (by simp)
  unfold interruptVector irqStack
  split_ifs
  · obtain ⟨zero, entered⟩ := irqHandler_eq el1Stack link s
    obtain ⟨t, chosen⟩ : ∃ t, t = Cpu.run { s.setX 27 (core s) with zero := zero }
      [.movImm 27 (chosenStack el1Stack s), .mov .sp (.x 27)] := ⟨_, rfl⟩
    have same : t.level = .el1 ∧ t.sys = Function.update s.sys .spEl1 (chosenStack el1Stack s) := by
      rw [chosen]
      simp [level]
    obtain ⟨own, other⟩ := kept t same.1
    rw [entered, setIrqStack, ← chosen, own, other, same.2]
    simp
  · exact kept s level

theorem enter_stacks {path : Path} {c : Context} {s : Cpu} (el1Stack : Fin 4 → Word) (link : Word)
    (taken : Taken path c s) :
    (enter el1Stack link path s).sys .spEl2 = s.sys .spEl2 ∧
      (path = .irq → (enter el1Stack link path s).sys .spEl1 = irqStack el1Stack s) := by
  have level := taken.level
  unfold enter
  by_cases isIrq : path = .irq
  · rw [if_pos isIrq] at level ⊢
    obtain ⟨own, other⟩ := interruptVector_stacks el1Stack link level
    exact ⟨other, fun _ => own⟩
  · rw [if_neg isIrq] at level ⊢
    have called : (syncronousExceptionEl2 link s).1 ≠ .hang := by
      rw [syncronousExceptionEl2_branch link level (taken.hypervisor isIrq)]
      split_ifs
      · decide
      · decide
    have moved := syncronousExceptionEl2_moved link called
    have top := moved.sp
    rw [Cpu.sp, Cpu.sp, moved.level, level] at top
    exact ⟨by simpa using top, fun irq => absurd irq isIrq⟩

/-- Whatever context an exception interrupts, the `state_t` in the old area of its kind is that
    context, but for the two registers that the entry of an IRQ uses first, and the stack pointer
    of EL2 is back where it was. -/
theorem old_area_faithful {path : Path} {c : Context} {s : Cpu} {el1Stack : Fin 4 → Word}
    (link : Word) (taken : Taken path c s) (clear : StackClear el1Stack path s)
    {saved : StateT}
    (found : saved = stateT (enter el1Stack link path s).mem (oldarea path.offset (core s))) :
    (∀ k : Fin 29, (path = .irq → k.val ≠ 27 ∧ k.val ≠ 28) →
        saved.generalPurposeRegisters k = c.x ⟨k, by omega⟩) ∧
      saved.framePointer = c.x 29 ∧ saved.linkRegister = c.x 30 ∧ saved.stackPointer = c.sp ∧
      saved.exceptionLinkRegister = c.pc ∧ saved.ttbr0 = c.ttbr0 ∧
      saved.statusRegister = c.pstate.setWidth 32 ∧
      (enter el1Stack link path s).sys .spEl2 = s.sys .spEl2 ∧
      (path = .irq → (enter el1Stack link path s).sys .spEl1 = irqStack el1Stack s) := by
  rw [found, stateT_image (enter_saves link taken clear)]
  have pointers := enter_stacks el1Stack link taken
  by_cases isIrq : path = .irq
  · unfold kept
    rw [if_pos isIrq]
    refine ⟨?_, ?_, ?_, rfl, rfl, rfl, rfl, pointers⟩
    · intro k spared
      obtain ⟨not27, not28⟩ := spared isIrq
      apply reserved_x
      · exact fun same => not27 (congrArg Fin.val same)
      · exact fun same => not28 (congrArg Fin.val same)
    · exact @reserved_x (core s) c 29 (by decide) (by decide)
    · exact @reserved_x (core s) c 30 (by decide) (by decide)
  · unfold kept
    rw [if_neg isIrq]
    exact ⟨fun _ _ => rfl, rfl, rfl, rfl, rfl, rfl, rfl, pointers⟩

/-- The old area of the system call in the context whose registers all differ. -/
theorem old_area_faithful_counting :
    (stateT (enter (fun _ => 0xA0000) 0 .svc (interrupted .svc counting)).mem
        (oldarea synchronousOffset 0)).stackPointer = 0x90000 ∧
      (enter (fun _ => 0xA0000) 0 .svc (interrupted .svc counting)).sys .spEl2 = 0xB0000 := by
  obtain ⟨_, _, _, sp, _, _, _, stack, _⟩ :=
    old_area_faithful 0 counting_taken counting_clear rfl
  exact ⟨sp, stack⟩

end Exceptions
