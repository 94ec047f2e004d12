import MaldOS.Exceptions.OldArea
import MaldOS.Exceptions.Vectors

/-!
What becomes of a context that an exception interrupts: the image of it in the
old area of its kind, and what `LDST` makes of that image.
-/
namespace Exceptions
open Aarch64 Words ByteMemory

def oldarea (offset core : Word) : Word := coreOffset * core + (exceptionOldarea + offset)

def core (s : Cpu) : Word := s.sys .mpidrEl1 &&& 3

theorem storeOldarea_stores {s : Cpu} {c : Context} {offset junk : Word} (link : Word)
    (level : s.level = .el2) (mode : c.AtEl0 ∨ c.AtEl1h)
    (frame : Holds s.mem (s.sys .spEl2)
      [c.x 2, c.x 3, c.x 0, c.x 1, c.x 5, junk, c.x 29, c.x 30])
    (apart : Apart (s.sys .spEl2 + 32) 32 (oldarea offset (core s)) stateBytes)
    (keeps : Keeps c [0, 1, 2, 3, 5, 29, 30] s) :
    (storeOldarea offset link s).mem = storeWords s.mem (oldarea offset (core s)) (image c) := by
  obtain ⟨p, stack⟩ : ∃ p, p = s.sys .spEl2 := ⟨_, rfl⟩
  rw [← stack] at frame apart
  have x2 : word s.mem p = c.x 2 := ((holds_cons _ _ _ _).mp frame).1
  have x3 : word s.mem (p + 8#64) = c.x 3 := holds_get frame (by decide : 1 < 8)
  have x0 : word s.mem (p + 16#64) = c.x 0 := holds_get frame (by decide : 2 < 8)
  have x1 : word s.mem (p + 24#64) = c.x 1 := holds_get frame (by decide : 3 < 8)
  have rest : Holds s.mem (p + 32) [c.x 5, junk, c.x 29, c.x 30] := by
    have split := (holds_append s.mem p [c.x 2, c.x 3, c.x 0, c.x 1]
      [c.x 5, junk, c.x 29, c.x 30]).mp frame
    exact split.2
  obtain ⟨t, popped⟩ : ∃ t, t = s.run [.mrs 5 .mpidrEl1, .and 5 5 3, .movImm 1 exceptionOldarea,
    .add 1 1 offset, .movImm 2 coreOffset, .madd 1 2 5 1, .mov (.x 5) (.x 1),
    .ldp 2 3 (.post .sp 16), .ldp 0 1 (.post .sp 16), .bl link] := ⟨_, rfl⟩
  have same : t.level = .el2 ∧ t.sys = Function.update s.sys .spEl2 (p + 32) ∧
      t.x 5 = oldarea offset (core s) ∧ t.mem = s.mem := by
    rw [popped]
    simp [Cpu.sp, level, ← stack, BitVec.add_assoc, oldarea, core]
  obtain ⟨level', sys, ptr, mem⟩ := same
  have top : t.sys .spEl2 = p + 32 := by rw [sys, Function.update_self]
  have other : ∀ r, r ≠ .spEl2 → t.sys r = s.sys r := by
    intro r ne
    rw [sys, Function.update_of_ne ne]
  have registers : ∀ k, k ∉ [(5 : XReg), 29, 30] → t.x k = c.x k := by
    intro k clear
    by_cases low : k ∈ [(0 : XReg), 1, 2, 3]
    · rw [popped]
      simp only [List.mem_cons, List.not_mem_nil, or_false] at low
      rcases low with rfl | rfl | rfl | rfl
      · simp [Cpu.sp, level, ← stack, BitVec.add_assoc, x0]
      · simp [Cpu.sp, level, ← stack, BitVec.add_assoc, x1]
      · simp [Cpu.sp, level, ← stack, x2]
      · simp [Cpu.sp, level, ← stack, x3]
    · have both : ∀ k : XReg, k ∉ [(5 : XReg), 29, 30] → k ∉ [(0 : XReg), 1, 2, 3] →
          k ∉ [(0 : XReg), 1, 2, 3, 5, 29, 30] := by decide
      rw [← keeps.x k (both k clear low), popped]
      simp only [List.mem_cons, List.not_mem_nil, or_false, not_or] at clear low
      simp [clear, low]
  have kept : Keeps c [5, 29, 30] t := by
    constructor
    · exact registers
    · rw [other _ (modeSp_below mode)]
      exact keeps.sp
    · exact (other .elrEl1 (by decide)).trans keeps.pc
    · exact (other .ttbr0El1 (by decide)).trans keeps.ttbr0
    · exact (other .spsrEl1 (by decide)).trans keeps.pstate
  have stored := ststAsmEl2_stores level' mode (by rw [mem, top]; exact rest)
    (by rw [top, ptr]; exact apart) kept
  rw [mem, ptr] at stored
  unfold storeOldarea
  rw [← popped]
  exact stored

theorem pushed_frame {m : Memory 64} {q : Word} (x : XReg → Word) :
    ∃ junk, Holds (storeWords (storeWords (storeWords (storeWords m (q + 48#64) [x 29, x 30])
      (q + 32#64) [x 5]) (q + 16#64) [x 0, x 1]) q [x 2, x 3]) q
        [x 2, x 3, x 0, x 1, x 5, junk, x 29, x 30] := by
  obtain ⟨m₁, first⟩ : ∃ m₁, m₁ = storeWords m (q + 48#64) [x 29, x 30] := ⟨_, rfl⟩
  have links : Holds m₁ (q + 48#64) [x 29, x 30] := by
    rw [first]
    exact holds_stored _ _ (by simp)
  have gap : Holds m₁ (q + 40#64) [word m₁ (q + 40#64), x 29, x 30] := by
    rw [holds_cons, BitVec.add_assoc]
    exact ⟨rfl, links⟩
  have five := holds_push [x 5] gap (a := q + 32#64) (by rw [BitVec.add_assoc]; rfl)
    (by simp)
  have pair := holds_push [x 0, x 1] five (a := q + 16#64) (by rw [BitVec.add_assoc]; rfl)
    (by simp)
  have low := holds_push [x 2, x 3] pair (a := q) rfl (by simp)
  rw [← first]
  exact ⟨_, low⟩

/-- What the entry at EL2 has done to the state when it has found the kind of the exception: the
    stack goes down to `q`, and x0 and x1 are lost. -/
structure Pushed (c : Context) (q : Word) (s t : Cpu) : Prop where
  level : t.level = .el2
  sys : t.sys = Function.update s.sys .spEl2 q
  x : ∀ k, k ≠ 0 → k ≠ 1 → t.x k = c.x k
  frame : ∃ junk, Holds t.mem q [c.x 2, c.x 3, c.x 0, c.x 1, c.x 5, junk, c.x 29, c.x 30]

theorem pushed_stores {s t : Cpu} {c : Context} {q : Word} (offset link : Word)
    (interrupts : Interrupts c s) (mode : c.AtEl0 ∨ c.AtEl1h) (pushed : Pushed c q s t)
    (apart : Apart (q + 32) 32 (oldarea offset (core s)) stateBytes) :
    Holds (storeOldarea offset link t).mem (oldarea offset (core s)) (image c) := by
  obtain ⟨level, sys, x, junk, frame⟩ := pushed
  have other : ∀ r, r ≠ .spEl2 → t.sys r = s.sys r := by
    intro r ne
    rw [sys, Function.update_of_ne ne]
  have top : t.sys .spEl2 = q := by rw [sys, Function.update_self]
  have same : core t = core s := by
    unfold core
    rw [other .mpidrEl1 (by decide)]
  have keeps : Keeps c [0, 1, 2, 3, 5, 29, 30] t := by
    constructor
    · intro k clear
      simp only [List.mem_cons, not_or] at clear
      exact x k clear.1 clear.2.1
    · rw [other _ (modeSp_below mode)]
      exact interrupts.sp
    · exact (other .elrEl1 (by decide)).trans interrupts.pc
    · exact (other .ttbr0El1 (by decide)).trans interrupts.ttbr0
    · exact (other .spsrEl1 (by decide)).trans interrupts.pstate
  rw [← top] at frame
  rw [← top, ← same] at apart
  rw [← same, storeOldarea_stores link level mode frame apart keeps]
  exact holds_stored _ _ (by rw [show (image c).length = 35 from rfl]; decide)

def IsSvc (s : Cpu) : Prop := s.sys .esrEl1 >>> 26 = ecSvc

instance (s : Cpu) : Decidable (IsSvc s) := inferInstanceAs (Decidable (_ = _))

def syncOffset (s : Cpu) : Word := if IsSvc s then synchronousOffset else abortOffset

theorem tests_hvc {s t : Cpu} (level : s.level = .el2)
    (first : t = s.run [.stp 29 30 (.pre .sp (-16)), .str 5 (.pre .sp (-16)),
      .stp 0 1 (.pre .sp (-16)), .stp 2 3 (.pre .sp (-16)), .mrs 1 .esrEl2, .lsr 0 1 26,
      .cmp 0 ecHvc]) :
    t.zero = decide (s.sys .esrEl2 >>> 26 = ecHvc) ∧ t.sys .esrEl1 = s.sys .esrEl1 := by
  constructor
  · rw [first]
    simp [level]
  · rw [first]
    simp [level]

theorem syncronousExceptionEl2_branch {s : Cpu} (link : Word) (level : s.level = .el2)
    (hypervisor : s.sys .esrEl2 >>> 26 = ecHvc) :
    (syncronousExceptionEl2 link s).1 = if IsSvc s then .cSwiHandler else .cAbortHandler := by
  obtain ⟨t, first⟩ : ∃ t, t = s.run [.stp 29 30 (.pre .sp (-16)), .str 5 (.pre .sp (-16)),
    .stp 0 1 (.pre .sp (-16)), .stp 2 3 (.pre .sp (-16)), .mrs 1 .esrEl2, .lsr 0 1 26,
    .cmp 0 ecHvc] := ⟨_, rfl⟩
  obtain ⟨zero, esr⟩ := tests_hvc level first
  have kind : (t.run [.mrs 1 .esrEl2, .and 1 1 0xFF, .cmp 1 0, .mrs 1 .esrEl1, .lsr 0 1 26,
      .cmp 0 ecSvc]).zero = decide (IsSvc s) := by
    simp only [run_cons, run_nil, Cpu.exec, Cpu.setX, esr, Function.update_self]
    exact decide_eq_decide.mpr Iff.rfl
  unfold syncronousExceptionEl2
  rw [← first]
  simp only [zero, hypervisor, kind, decide_true, ↓reduceIte]
  by_cases svc : IsSvc s
  · simp [svc]
  · simp [svc]

theorem syncronousExceptionEl2_hangs {s : Cpu} (link : Word) (level : s.level = .el2)
    (other : s.sys .esrEl2 >>> 26 ≠ ecHvc) : (syncronousExceptionEl2 link s).1 = .hang := by
  obtain ⟨t, first⟩ : ∃ t, t = s.run [.stp 29 30 (.pre .sp (-16)), .str 5 (.pre .sp (-16)),
    .stp 0 1 (.pre .sp (-16)), .stp 2 3 (.pre .sp (-16)), .mrs 1 .esrEl2, .lsr 0 1 26,
    .cmp 0 ecHvc] := ⟨_, rfl⟩
  have zero := (tests_hvc level first).1
  rw [decide_eq_false other] at zero
  unfold syncronousExceptionEl2
  rw [← first]
  simp [zero]

theorem syncronousExceptionEl2_saves {s : Cpu} {c : Context} (link : Word) (level : s.level = .el2)
    (interrupts : Interrupts c s) (mode : c.AtEl0 ∨ c.AtEl1h)
    (hypervisor : s.sys .esrEl2 >>> 26 = ecHvc)
    (apart : Apart (s.sys .spEl2 - 32) 32 (oldarea (syncOffset s) (core s)) stateBytes) :
    Holds (syncronousExceptionEl2 link s).2.mem (oldarea (syncOffset s) (core s)) (image c) := by
  obtain ⟨q, stack⟩ : ∃ q, s.sys .spEl2 = q + 64#64 := ⟨s.sys .spEl2 - 64#64, by bv_omega⟩
  have step₁ : q + 64#64 - 16#64 = q + 48#64 := by bv_omega
  have step₂ : q + 48#64 - 16#64 = q + 32#64 := by bv_omega
  have step₃ : q + 32#64 - 16#64 = q + 16#64 := by bv_omega
  have step₄ : q + 16#64 - 16#64 = q := by bv_omega
  have saves : q + 64#64 - 32#64 = q + 32#64 := by bv_omega
  rw [stack, show q + 64#64 - 32 = q + 32 from saves] at apart
  obtain ⟨junk, frame⟩ := @pushed_frame s.mem q c.x
  obtain ⟨t, first⟩ : ∃ t, t = s.run [.stp 29 30 (.pre .sp (-16)), .str 5 (.pre .sp (-16)),
    .stp 0 1 (.pre .sp (-16)), .stp 2 3 (.pre .sp (-16)), .mrs 1 .esrEl2, .lsr 0 1 26,
    .cmp 0 ecHvc] := ⟨_, rfl⟩
  have same : t.level = .el2 ∧ t.sys = Function.update s.sys .spEl2 q ∧ t.zero = true ∧
      t.mem = storeWords (storeWords (storeWords (storeWords s.mem (q + 48#64) [c.x 29, c.x 30])
        (q + 32#64) [c.x 5]) (q + 16#64) [c.x 0, c.x 1]) q [c.x 2, c.x 3] := by
    rw [first]
    simp [Cpu.sp, level, stack, step₁, step₂, step₃, step₄, hypervisor, interrupts.x]
  have rest : ∀ k, k ≠ 0 → k ≠ 1 → t.x k = c.x k := by
    intro k zero one
    rw [first]
    simp [zero, one, interrupts.x]
  obtain ⟨level', sys, zero, mem⟩ := same
  rw [← mem] at frame
  have esr : t.sys .esrEl1 = s.sys .esrEl1 := by rw [sys, Function.update_of_ne (by decide)]
  unfold syncronousExceptionEl2
  rw [← first]
  simp only [zero, ↓reduceIte]
  obtain ⟨u, second⟩ : ∃ u, u = t.run [.mrs 1 .esrEl2, .and 1 1 0xFF, .cmp 1 0, .mrs 1 .esrEl1,
    .lsr 0 1 26, .cmp 0 ecSvc] := ⟨_, rfl⟩
  have kind : u.zero = decide (IsSvc s) := by
    rw [second]
    simp only [run_cons, run_nil, Cpu.exec, Cpu.setX, esr, Function.update_self]
    exact decide_eq_decide.mpr Iff.rfl
  have pushed : Pushed c q s u := by
    rw [second]
    constructor
    · simp [level']
    · simp [sys]
    · intro k notZero notOne
      simp [notZero, notOne, rest]
    · exact ⟨junk, by simpa using frame⟩
  rw [← second]
  by_cases svc : IsSvc s
  · simp only [kind, svc, decide_true, ↓reduceIte]
    rw [syncOffset, if_pos svc] at apart ⊢
    exact pushed_stores _ link interrupts mode pushed apart
  · simp only [kind, svc, decide_false, ↓reduceIte, Bool.false_eq_true]
    rw [syncOffset, if_neg svc] at apart ⊢
    have pushed' : Pushed c q s (u.run [.and 1 1 0x1FFFFFF]) := by
      obtain ⟨level, sys, x, frame⟩ := pushed
      refine ⟨level, sys, fun k notZero notOne => ?_, frame⟩
      simp [notOne, x k notZero notOne]
    exact pushed_stores _ link interrupts mode pushed' apart

/-- What `STST_asm` finds of a context: x27 and x28 were used to get there. -/
def reserved (core : Word) (c : Context) : Context :=
  { c with x := Function.update (Function.update c.x 27 core) 28 c.ttbr0 }

theorem irq_frame {m : Memory 64} {q : Word} (v x26 fp lr : Word) :
    ∃ junk, Holds (storeWords (storeWords (storeWords (storeWords m (q + 32#64) [v])
      (q + 16#64) [fp, lr]) q [v, v]) (q - 8#64) [x26]) q [v, v, fp, lr, v, junk] := by
  obtain ⟨m₁, first⟩ : ∃ m₁, m₁ = storeWords m (q + 32#64) [v] := ⟨_, rfl⟩
  have top : Holds m₁ (q + 32#64) [v, word m₁ (q + 40#64)] := by
    have stored : Holds m₁ (q + 32#64) [v] := by
      rw [first]
      exact holds_stored _ _ (by simp)
    rw [holds_cons, BitVec.add_assoc]
    exact ⟨(holds_singleton _ _ _).mp stored, (holds_singleton _ _ _).mpr rfl⟩
  have links := holds_push [fp, lr] top (a := q + 16#64) (by rw [BitVec.add_assoc]; rfl)
    (by simp)
  have pair := holds_push [v, v] links (a := q) rfl (by simp)
  have low := holds_push [x26] pair (a := q - 8#64) (BitVec.sub_add_cancel q 8#64)
    (by simp)
  have whole := ((holds_cons _ _ _ _).mp low).2
  rw [show q - 8#64 + BitVec.ofNat 64 8 = q from BitVec.sub_add_cancel q 8#64] at whole
  rw [← first]
  exact ⟨_, whole⟩

theorem reserved_x (core : Word) (c : Context) {k : XReg} (not27 : k ≠ 27) (not28 : k ≠ 28) :
    (reserved core c).x k = c.x k := by
  unfold reserved
  dsimp only
  rw [Function.update_of_ne not28, Function.update_of_ne not27]

/-- What the entry at EL1 leaves in memory: below `top` the frame it has pushed, with the word
    below, and then the old area. -/
def irqStored (c : Context) (top core : Word) (m : Memory 64) : Memory 64 :=
  storeWords (storeWords (storeWords (storeWords (storeWords m (top - 16) [c.ttbr0])
    (top - 32) [c.x 29, c.x 30]) (top - 48) [c.ttbr0, c.ttbr0]) (top - 56) [c.x 26])
    (oldarea 0 core) (image (reserved core c))

theorem irqStored_saves (c : Context) (top core : Word) (m : Memory 64) :
    Holds (irqStored c top core m) (oldarea 0 core) (image (reserved core c)) := by
  apply holds_stored
  rw [show (image (reserved core c)).length = 35 from rfl]
  decide

theorem keepCurrentStack_mem {s : Cpu} {c : Context} (link : Word) (level : s.level = .el1)
    (x : ∀ k, k ≠ 27 → s.x k = c.x k)
    (mode : c.AtEl0 ∧ s.sys .spEl0 = c.sp ∨ c.AtEl1h ∧ s.sys .spEl1 = c.sp)
    (pc : s.sys .elrEl1 = c.pc) (ttbr0 : s.sys .ttbr0El1 = c.ttbr0)
    (pstate : s.sys .spsrEl1 = c.pstate)
    (apart : Apart (s.sys .spEl1 - 48) 48 (oldarea 0 (core s)) stateBytes) :
    (keepCurrentStackIrqHandler link s).mem = irqStored c (s.sys .spEl1) (core s) s.mem := by
  obtain ⟨q, stack⟩ : ∃ q, s.sys .spEl1 = q + 48#64 := ⟨s.sys .spEl1 - 48#64, by bv_omega⟩
  have step₁ : q + 48#64 - 16#64 = q + 32#64 := by bv_omega
  have step₂ : q + 32#64 - 16#64 = q + 16#64 := by bv_omega
  have step₃ : q + 16#64 - 16#64 = q := by bv_omega
  have back : q - 8#64 + 8#64 = q := by bv_omega
  have saves : q + 48#64 - 48#64 = q := by bv_omega
  rw [stack, show q + 48#64 - 48 = q from saves] at apart
  obtain ⟨t, entered⟩ : ∃ t, t = s.run [.mrs 28 .ttbr0El1, .mrs 27 .ttbr1El1, .msr .ttbr0El1 27,
    .str 28 (.pre .sp (-16)), .stp 29 30 (.pre .sp (-16)), .stp 28 28 (.pre .sp (-16)),
    .str 26 (.pre .sp (-8)), .mrs 27 .mpidrEl1, .and 27 27 3, .movImm 28 interruptOldarea,
    .movImm 26 coreOffset, .madd 28 26 27 28, .ldr 26 (.post .sp 8), .bl link] := ⟨_, rfl⟩
  have same : t.level = .el1 ∧ t.sys .spEl1 = q ∧ (∀ r, r ≠ .spEl1 → r ≠ .ttbr0El1 →
      t.sys r = s.sys r) ∧ t.x 28 = oldarea 0 (core s) ∧
      t.mem = storeWords (storeWords (storeWords (storeWords s.mem (q + 32#64) [c.ttbr0])
        (q + 16#64) [c.x 29, c.x 30]) q [c.ttbr0, c.ttbr0]) (q - 8#64) [c.x 26] := by
    rw [entered]
    simp [Cpu.sp, level, stack, step₁, step₂, step₃, back, oldarea, core, ttbr0, x]
    intro r notSp notTtbr0
    rw [Function.update_of_ne notSp, Function.update_of_ne notTtbr0]
  obtain ⟨level', top, other, ptr, mem⟩ := same
  have low : ∀ k, k < 28 → t.x k = (reserved (core s) c).x k := by
    intro k below
    have notLink : ∀ k : XReg, k < 28 → k ≠ 28 ∧ k ≠ 30 := by decide
    obtain ⟨not28, notLink⟩ := notLink k below
    by_cases is27 : k = 27
    · rw [is27, entered]
      simp [Cpu.sp, level, reserved, core]
    · rw [reserved_x _ _ is27 not28]
      by_cases is26 : k = 26
      · rw [is26, entered]
        simp [Cpu.sp, level, stack, step₁, step₂, step₃, word_stored, x]
      · rw [entered]
        simp [is26, is27, not28, notLink, x]
  obtain ⟨junk, frame⟩ := @irq_frame s.mem q c.ttbr0 (c.x 26) (c.x 29) (c.x 30)
  have stored : (ststAsm t).mem = storeWords t.mem (t.x 28) (image (reserved (core s) c)) := by
    apply ststAsm_stores level'
    · rcases mode with ⟨user, sp⟩ | ⟨kernel, sp⟩
      · left
        exact ⟨user, (other .spEl0 (by decide) (by decide)).trans sp⟩
      · right
        rw [top]
        exact ⟨kernel, stack.symm.trans sp⟩
    · rw [mem, top]
      exact frame
    · rw [top, ptr]
      exact apart
    · exact low
    · exact (other .elrEl1 (by decide) (by decide)).trans pc
    · exact (other .spsrEl1 (by decide) (by decide)).trans pstate
  have top₁ : q + 48#64 - 16 = q + 32#64 := step₁
  have top₂ : q + 48#64 - 32 = q + 16#64 := by bv_omega
  have top₃ : q + 48#64 - 56 = q - 8#64 := by bv_omega
  unfold keepCurrentStackIrqHandler irqStored
  rw [← entered, stored, ptr, mem, stack, top₁, top₂, show q + 48#64 - 48 = q from saves, top₃]

theorem core_cases (s : Cpu) : core s = 0 ∨ core s = 1 ∨ core s = 2 ∨ core s = 3 := by
  have small : (core s).toNat ≤ 3 := by
    unfold core
    rw [BitVec.toNat_and]
    exact Nat.and_le_right
  have value : ∀ n, n ≤ 3 → n = 0 ∨ n = 1 ∨ n = 2 ∨ n = 3 := by omega
  rcases value _ small with zero | one | two | three
  · exact Or.inl (BitVec.eq_of_toNat_eq zero)
  · exact Or.inr (Or.inl (BitVec.eq_of_toNat_eq one))
  · exact Or.inr (Or.inr (Or.inl (BitVec.eq_of_toNat_eq two)))
  · exact Or.inr (Or.inr (Or.inr (BitVec.eq_of_toNat_eq three)))

def chosenStack (el1Stack : Fin 4 → Word) (s : Cpu) : Word := el1Stack (Fin.ofNat 4 (core s).toNat)

theorem irqHandler_eq (el1Stack : Fin 4 → Word) (link : Word) (s : Cpu) :
    ∃ zero, irqHandler el1Stack link s =
      setIrqStack (chosenStack el1Stack s) link { s.setX 27 (core s) with zero := zero } := by
  have test : s.run [.mrs 27 .mpidrEl1, .and 27 27 3, .cmp 27 0] =
      { s.setX 27 (core s) with zero := decide (core s = 0) } := by
    simp [core]
    exact decide_eq_decide.mpr Iff.rfl
  unfold irqHandler chosenStack
  rw [test]
  rcases core_cases s with here | here | here | here
  · rw [show Fin.ofNat 4 (core s).toNat = 0 by rw [here]; rfl]
    exact ⟨true, by simp [here]⟩
  · rw [show Fin.ofNat 4 (core s).toNat = 1 by rw [here]; rfl]
    exact ⟨true, by simp [here]⟩
  · rw [show Fin.ofNat 4 (core s).toNat = 2 by rw [here]; rfl]
    exact ⟨true, by simp [here]⟩
  · rw [show Fin.ofNat 4 (core s).toNat = 3 by rw [here]; rfl]
    exact ⟨true, by simp [here]⟩

/-- The stack that the entry for IRQs pushes on. -/
def irqStack (el1Stack : Fin 4 → Word) (s : Cpu) : Word :=
  if s.sys .spsrEl1 &&& 0xF = 0 then chosenStack el1Stack s else s.sys .spEl1

theorem interruptVector_mem {s : Cpu} {c : Context} (el1Stack : Fin 4 → Word) (link : Word)
    (level : s.level = .el1) (interrupts : Interrupts c s) (mode : c.AtEl0 ∨ c.AtEl1h)
    (apart : Apart (irqStack el1Stack s - 48) 48 (oldarea 0 (core s)) stateBytes) :
    (interruptVector el1Stack link s).mem =
      irqStored c (irqStack el1Stack s) (core s) s.mem := by
  have sp := interrupts.sp
  unfold irqStack at apart ⊢
  unfold interruptVector
  rw [interrupts.pstate] at apart ⊢
  rcases mode with user | kernel
  · have atUser : c.pstate &&& 0xF = 0 := user
    rw [if_pos atUser] at apart
    rw [if_pos atUser, if_pos atUser]
    rw [modeSp_user user] at sp
    obtain ⟨zero, entered⟩ := irqHandler_eq el1Stack link s
    obtain ⟨t, moved⟩ : ∃ t, t = Cpu.run { s.setX 27 (core s) with zero := zero }
      [.movImm 27 (chosenStack el1Stack s), .mov .sp (.x 27)] := ⟨_, rfl⟩
    have same : t.level = .el1 ∧ t.sys = Function.update s.sys .spEl1 (chosenStack el1Stack s) ∧
        (∀ k, k ≠ 27 → t.x k = s.x k) ∧ t.mem = s.mem := by
      rw [moved]
      simp +contextual [level]
    obtain ⟨level', sys, x, mem⟩ := same
    have other : ∀ r, r ≠ .spEl1 → t.sys r = s.sys r := by
      intro r ne
      rw [sys, Function.update_of_ne ne]
    have sameCore : core t = core s := by
      unfold core
      rw [other .mpidrEl1 (by decide)]
    have top : t.sys .spEl1 = chosenStack el1Stack s := by rw [sys, Function.update_self]
    rw [entered, setIrqStack, ← moved, ← sameCore, ← mem, ← top]
    apply keepCurrentStack_mem link level'
    · intro k ne
      rw [x k ne, interrupts.x]
    · exact Or.inl ⟨user, (other .spEl0 (by decide)).trans sp⟩
    · exact (other .elrEl1 (by decide)).trans interrupts.pc
    · exact (other .ttbr0El1 (by decide)).trans interrupts.ttbr0
    · exact (other .spsrEl1 (by decide)).trans interrupts.pstate
    · rw [top, sameCore]
      exact apart
  · have atKernel : ¬ c.pstate &&& 0xF = 0 := by
      rw [show c.pstate &&& 0xF = 5 from kernel]
      decide
    rw [if_neg atKernel] at apart
    rw [if_neg atKernel, if_neg atKernel]
    rw [modeSp_kernel kernel] at sp
    apply keepCurrentStack_mem link level
    · intro k _
      rw [interrupts.x]
    · exact Or.inr ⟨kernel, sp⟩
    · exact interrupts.pc
    · exact interrupts.ttbr0
    · exact interrupts.pstate
    · exact apart

theorem interruptVector_saves {s : Cpu} {c : Context} (el1Stack : Fin 4 → Word) (link : Word)
    (level : s.level = .el1) (interrupts : Interrupts c s) (mode : c.AtEl0 ∨ c.AtEl1h)
    (apart : Apart (irqStack el1Stack s - 48) 48 (oldarea 0 (core s)) stateBytes) :
    Holds (interruptVector el1Stack link s).mem (oldarea 0 (core s))
      (image (reserved (core s) c)) := by
  rw [interruptVector_mem el1Stack link level interrupts mode apart]
  exact irqStored_saves c _ _ _

inductive Path where
  | irq
  | svc
  | abort
  deriving DecidableEq

def Path.offset : Path → Word
  | .irq => 0
  | .svc => synchronousOffset
  | .abort => abortOffset

/-- The processor has taken the exception, and the vector of its kind is next. -/
structure Taken (path : Path) (c : Context) (s : Cpu) : Prop where
  interrupts : Interrupts c s
  mode : c.AtEl0 ∨ c.AtEl1h
  level : s.level = if path = .irq then .el1 else .el2
  hypervisor : path ≠ .irq → s.sys .esrEl2 >>> 26 = ecHvc
  kind : path ≠ .irq → (IsSvc s ↔ path = .svc)

def enter (el1Stack : Fin 4 → Word) (link : Word) (path : Path) (s : Cpu) : Cpu :=
  if path = .irq then interruptVector el1Stack link s else (syncronousExceptionEl2 link s).2

/-- The words on the stack that the context waits in are not in the old area. -/
def StackClear (el1Stack : Fin 4 → Word) (path : Path) (s : Cpu) : Prop :=
  if path = .irq then Apart (irqStack el1Stack s - 48) 48 (oldarea path.offset (core s)) stateBytes
  else Apart (s.sys .spEl2 - 32) 32 (oldarea path.offset (core s)) stateBytes

/-- `LDST` is about to load the old area as the entry left it, and saves its own two words
    elsewhere. -/
structure Reloads (area : Word) (saved t : Cpu) : Prop where
  pointer : t.x 0 = area
  unmodified : load t.mem area stateBytes = load saved.mem area stateBytes
  apart : Apart area stateBytes (t.sp - 16) 16

def Restores (path : Path) (c c' : Context) : Prop :=
  (∀ k, (path = .irq → k ≠ 27 ∧ k ≠ 28) → c'.x k = c.x k) ∧ c'.sp = c.sp ∧ c'.pc = c.pc ∧
    c'.ttbr0 = c.ttbr0 ∧ c'.pstate = c.pstate

/-- Registers that agree with their neighbours do not show the shift. -/
def Unshifted (path : Path) (core : Word) (c : Context) : Prop :=
  if path = .irq then
    (∀ k, 2 ≤ k → k < 26 → c.x (k + 1) = c.x k) ∧ core = c.x 26 ∧ c.x 30 = c.x 29
  else ∀ k, 2 ≤ k → k < 30 → c.x (k + 1) = c.x k

def kept (path : Path) (core : Word) (c : Context) : Context :=
  if path = .irq then reserved core c else c

theorem enter_saves {path : Path} {c : Context} {s : Cpu} {el1Stack : Fin 4 → Word} (link : Word)
    (taken : Taken path c s) (clear : StackClear el1Stack path s) :
    Holds (enter el1Stack link path s).mem (oldarea path.offset (core s))
      (image (kept path (core s) c)) := by
  obtain ⟨interrupts, mode, level, hypervisor, kind⟩ := taken
  unfold enter kept
  unfold StackClear at clear
  by_cases isIrq : path = .irq
  · subst isIrq
    simp only [↓reduceIte] at level clear ⊢
    exact interruptVector_saves el1Stack link level interrupts mode clear
  · have offset : syncOffset s = path.offset := by
      unfold syncOffset
      cases path with
      | irq => exact absurd rfl isIrq
      | svc => rw [if_pos ((kind isIrq).mpr rfl), Path.offset]
      | abort =>
        rw [if_neg, Path.offset]
        intro svc
        cases (kind isIrq).mp svc
    simp only [if_neg isIrq] at level clear ⊢
    rw [← offset] at clear ⊢
    exact syncronousExceptionEl2_saves link level interrupts mode (hypervisor isIrq) clear

theorem reload_resumes {path : Path} {c : Context} {s t : Cpu} {el1Stack : Fin 4 → Word}
    (link : Word) (taken : Taken path c s) (clear : StackClear el1Stack path s)
    (reloads : Reloads (oldarea path.offset (core s)) (enter el1Stack link path s) t) :
    ldst t = { kept path (core s) c with x := shifted (kept path (core s) c).x } := by
  have saved := enter_saves link taken clear
  obtain ⟨pointer, unmodified, apart⟩ := reloads
  have held : Holds t.mem (t.x 0) (image (kept path (core s) c)) := by
    rw [pointer]
    exact holds_of_load unmodified saved
  rw [← pointer] at apart
  apply ldst_spec held apart
  unfold kept
  split_ifs
  · exact taken.mode
  · exact taken.mode

/-- The registers of a reloaded context are those of the interrupted one exactly where the shift
    does not show. -/
theorem shifted_restores (path : Path) (core : Word) (c : Context) :
    (∀ k, (path = .irq → k ≠ 27 ∧ k ≠ 28) → shifted (kept path core c).x k = c.x k) ↔
      Unshifted path core c := by
  unfold Unshifted kept
  by_cases isIrq : path = .irq
  · have spread : ∀ k : XReg, k ≠ 27 → k ≠ 28 → k < 2 ∨ (2 ≤ k ∧ k < 26) ∨ k = 26 ∨ k = 29 ∨
        k = 30 := by decide
    have low : ∀ k : XReg, 2 ≤ k → k < 26 → k < 30 ∧ k + 1 ≠ 27 ∧ k + 1 ≠ 28 ∧ k ≠ 27 ∧ k ≠ 28 := by
      decide
    simp only [isIrq, ↓reduceIte, true_implies]
    constructor
    · intro same
      refine ⟨fun k above below => ?_, ?_, ?_⟩
      · obtain ⟨inside, not27, not28, notCore, notTtbr0⟩ := low k above below
        rw [← same k ⟨notCore, notTtbr0⟩, shifted, if_pos ⟨above, inside⟩, reserved_x _ _ not27 not28]
      · exact same 26 (by decide)
      · exact same 29 (by decide)
    · rintro ⟨rows, last, link⟩ k ⟨notCore, notTtbr0⟩
      rcases spread k notCore notTtbr0 with first | ⟨above, below⟩ | rfl | rfl | rfl
      · have outside : ∀ k : XReg, k < 2 → ¬ (2 ≤ k ∧ k < 30) := by decide
        rw [shifted, if_neg (outside k first), reserved_x _ _ notCore notTtbr0]
      · obtain ⟨inside, not27, not28, _, _⟩ := low k above below
        rw [← rows k above below, shifted, if_pos ⟨above, inside⟩, reserved_x _ _ not27 not28]
      · exact last
      · exact link
      · rfl
  · simp only [isIrq, ↓reduceIte, false_implies, true_implies]
    constructor
    · intro same k above below
      rw [← same k, shifted, if_pos ⟨above, below⟩]
    · intro rows k
      unfold shifted
      split_ifs with inside
      · exact rows k inside.1 inside.2
      · rfl

/-- A context comes back from its old area exactly if the registers from x2 to x29 have what the
    next higher one has, in the row that was saved. -/
theorem restores_iff {path : Path} {c : Context} {s t : Cpu} {el1Stack : Fin 4 → Word}
    (link : Word) (taken : Taken path c s) (clear : StackClear el1Stack path s)
    (reloads : Reloads (oldarea path.offset (core s)) (enter el1Stack link path s) t) :
    Restores path c (ldst t) ↔ Unshifted path (core s) c := by
  have resumed := reload_resumes link taken clear reloads
  have others : (kept path (core s) c).sp = c.sp ∧ (kept path (core s) c).pc = c.pc ∧
      (kept path (core s) c).ttbr0 = c.ttbr0 ∧ (kept path (core s) c).pstate = c.pstate := by
    unfold kept
    split_ifs
    · exact ⟨rfl, rfl, rfl, rfl⟩
    · exact ⟨rfl, rfl, rfl, rfl⟩
  unfold Restores
  rw [resumed]
  simp only [others, and_self, and_true]
  exact shifted_restores path (core s) c

def counting : Context :=
  ⟨fun k => BitVec.ofNat 64 k.val, 0x90000, 0x80000, 0x20000, 0⟩

def interrupted (path : Path) (c : Context) : Cpu where
  level := if path = .irq then .el1 else .el2
  x := c.x
  sys
    | .spEl0 => c.sp
    | .elrEl1 => c.pc
    | .spsrEl1 => c.pstate
    | .ttbr0El1 => c.ttbr0
    | .esrEl1 => if path = .svc then 0x56000000 else 0x92000000
    | .esrEl2 => 0x5A000000
    | .spEl1 => 0xA0000
    | .spEl2 => 0xB0000
    | _ => 0
  zero := false
  mem := fun _ => 0

def reloading (area : Word) (saved : Cpu) : Cpu := ⟨.el2, fun _ => area, fun _ => 0xB0000, false, saved.mem⟩

theorem counting_taken : Taken .svc counting (interrupted .svc counting) where
  interrupts := ⟨rfl, rfl, rfl, rfl, rfl⟩
  mode := Or.inl rfl
  level := rfl
  hypervisor _ := by decide
  kind _ := by decide

theorem counting_clear : StackClear (fun _ => 0xA0000) .svc (interrupted .svc counting) :=
  apart_offsets (0 : Word) (i := 0xAFFE0) (n := 32) (j := 0x70800) (k := stateBytes) (by decide)
    (by decide) (by decide)

theorem counting_reloads : Reloads (oldarea synchronousOffset 0)
    (enter (fun _ => 0xA0000) 0 .svc (interrupted .svc counting))
    (reloading (oldarea synchronousOffset 0)
      (enter (fun _ => 0xA0000) 0 .svc (interrupted .svc counting))) where
  pointer := rfl
  unmodified := rfl
  apart := apart_offsets (0 : Word) (i := 0x70800) (n := stateBytes) (j := 0xAFFF0) (k := 16)
    (by decide) (by decide) (by decide)

theorem restores_counting :
    Restores .svc counting (ldst (reloading (oldarea synchronousOffset 0)
        (enter (fun _ => 0xA0000) 0 .svc (interrupted .svc counting)))) ↔
      Unshifted .svc 0 counting :=
  restores_iff 0 counting_taken counting_clear counting_reloads

/-- After that system call x2 holds what was in x3. -/
theorem counting_comes_back_shifted :
    Taken .svc counting (interrupted .svc counting) ∧
      StackClear (fun _ => 0xA0000) .svc (interrupted .svc counting) ∧
      Reloads (oldarea synchronousOffset 0)
        (enter (fun _ => 0xA0000) 0 .svc (interrupted .svc counting))
        (reloading (oldarea synchronousOffset 0)
          (enter (fun _ => 0xA0000) 0 .svc (interrupted .svc counting))) ∧
      ¬ Restores .svc counting (ldst (reloading (oldarea synchronousOffset 0)
        (enter (fun _ => 0xA0000) 0 .svc (interrupted .svc counting)))) := by
  refine ⟨counting_taken, counting_clear, counting_reloads, ?_⟩
  rintro ⟨same, _⟩
  have second := same 2 (by decide)
  rw [reload_resumes 0 counting_taken counting_clear counting_reloads] at second
  exact absurd second (by decide)

end Exceptions
