import MaldOS.Exceptions.Loading

/-!
`STST_asm_el2` and `STST_asm`: the row of words that they leave in an old area,
for a context some of whose registers wait on the stack.
-/
namespace Exceptions
open Aarch64 Words ByteMemory

/-- The pairs that `STST_asm_el2` stores after it has fetched x5. -/
def storePairs : List (XReg × XReg) :=
  [(4, 0), (6, 7), (8, 9), (10, 11), (12, 13), (14, 15), (16, 17), (18, 19), (20, 21), (22, 23),
    (24, 25), (26, 27)]

theorem ststAsmEl2Stores_eq :
    ststAsmEl2Stores = (.stp 0 1 (.offset (.x 5) 0) :: stpChain 5 [(2, 3)]) ++
      ([.ldr 0 (.post .sp 16)] ++ (stpChain 5 storePairs ++
        [.str 28 (.pre (.x 5) 16), .ldp 1 2 (.post .sp 16), .str 1 (.pre (.x 5) 8),
          .str 2 (.pre (.x 5) 8)])) := rfl

/-- The registers of a context in the order of a `state_t`, with x5, x29 and x30 given. -/
def row (x : XReg → Word) (v fp lr : Word) : List Word :=
  [x 0, x 1, x 2, x 3, x 4, v, x 6, x 7, x 8, x 9, x 10, x 11, x 12, x 13, x 14, x 15, x 16, x 17,
    x 18, x 19, x 20, x 21, x 22, x 23, x 24, x 25, x 26, x 27, x 28, fp, lr]

theorem ststAsmEl2Stores_spec {s : Cpu} {v junk fp lr : Word} (level : s.level = .el2)
    (frame : Holds s.mem (s.sys .spEl2) [v, junk, fp, lr])
    (apart : Apart (s.sys .spEl2) 32 (s.x 5) stateBytes) :
    (s.run ststAsmEl2Stores).level = .el2 ∧
      (∀ r, r ≠ .spEl2 → (s.run ststAsmEl2Stores).sys r = s.sys r) ∧
      (s.run ststAsmEl2Stores).x 5 = s.x 5 + 240 ∧
      (s.run ststAsmEl2Stores).mem = storeWords s.mem (s.x 5) (row s.x v fp lr) := by
  obtain ⟨a, base⟩ : ∃ a, a = s.x 5 := ⟨_, rfl⟩
  obtain ⟨p, stack⟩ : ∃ p, p = s.sys .spEl2 := ⟨_, rfl⟩
  rw [← base, ← stack] at apart
  rw [← stack] at frame
  have stays : ∀ ws, 8 * ws.length ≤ stateBytes →
      Holds (storeWords s.mem a ws) p [v, junk, fp, lr] := by
    intro ws inside
    exact holds_clear frame apart le_rfl inside
  obtain ⟨m, first⟩ : ∃ m, m = storeWords s.mem a [s.x 0, s.x 1, s.x 2, s.x 3] := ⟨_, rfl⟩
  have fetched : word m p = v := by
    rw [first]
    exact ((holds_cons _ _ _ _).mp (stays _ (by simp [stateBytes]))).1
  obtain ⟨t, early⟩ : ∃ t : Cpu, t = { s with
    x := Function.update (Function.update s.x 5 (a + 16)) 0 v
    sys := Function.update s.sys .spEl2 (p + 16)
    mem := m } := ⟨_, rfl⟩
  have start : Cpu.run (s.run (.stp 0 1 (.offset (.x 5) 0) :: stpChain 5 [(2, 3)]))
      [.ldr 0 (.post .sp 16)] = t := by
    have written : storeWords s.mem (s.x 5) ((registers [(0, 1), (2, 3)]).map s.x) = m := by
      rw [first, base]
      rfl
    rw [run_stpRow [(2, 3)] (by decide) (by decide), written, early]
    simp [← base, Cpu.sp, level, ← stack, fetched]
  have ptr : t.x 5 = a + 16 := by rw [early]; rfl
  obtain ⟨m', second⟩ : ∃ m', m' = storeWords s.mem a ((row s.x v fp lr).take 28) := ⟨_, rfl⟩
  have joined : storeWords t.mem (a + 16 + 16) ((registers storePairs).map t.x) = m' := by
    have next : a + 16 + 16 =
        a + BitVec.ofNat 64 (8 * [s.x 0, s.x 1, s.x 2, s.x 3].length) := by
      rw [BitVec.add_assoc]
      rfl
    rw [early, next, second]
    dsimp only
    rw [first, storeWords_append]
    · rfl
    · simp [registers, storePairs]
  have middle : t.run (stpChain 5 storePairs) = { t with
      x := Function.update t.x 5 (a + 208), mem := m' } := by
    have sum : a + 16 + BitVec.ofNat 64 (16 * storePairs.length) = a + 208 := by
      rw [BitVec.add_assoc]
      rfl
    rw [run_stpChain storePairs (by decide) (by decide), ptr, joined, sum]
  obtain ⟨m'', third⟩ : ∃ m'', m'' = storeWords s.mem a ((row s.x v fp lr).take 29) := ⟨_, rfl⟩
  have frame'' : Holds m'' p [v, junk, fp, lr] := by
    rw [third]
    exact stays _ (by simp [row, stateBytes])
  have fp_read : word m'' (p + 16#64) = fp := holds_get frame'' (by decide : 2 < 4)
  have lr_read : word m'' (p + 24#64) = lr := holds_get frame'' (by decide : 3 < 4)
  have slot28 : storeWords m' (a + 224#64) [s.x 28] = m'' := by
    rw [second, third]
    exact storeWords_take s.mem (by simp [row] : 28 < (row s.x v fp lr).length) rfl (by simp [row])
  have last : storeWords (storeWords m'' (a + 232#64) [fp]) (a + 240#64) [lr] =
      storeWords s.mem a (row s.x v fp lr) := by
    have slot29 : storeWords m'' (a + 232#64) [fp] =
        storeWords s.mem a ((row s.x v fp lr).take 30) := by
      rw [third]
      exact storeWords_take s.mem (by simp [row] : 29 < (row s.x v fp lr).length) rfl (by simp [row])
    rw [slot29]
    exact storeWords_take s.mem (by simp [row] : 30 < (row s.x v fp lr).length) rfl (by simp [row])
  have kept : t.level = .el2 ∧ t.sys .spEl2 = p + 16 ∧ t.x 28 = s.x 28 := by
    rw [early]
    exact ⟨level, Function.update_self SysReg.spEl2 (p + 16) s.sys, rfl⟩
  obtain ⟨level', sp, high⟩ := kept
  rw [ststAsmEl2Stores_eq, run_append, run_append, start, run_append, middle, ← base]
  simp [Cpu.sp, level', sp, high, BitVec.add_assoc, slot28, fp_read, lr_read, last]
  intro r other
  rw [Function.update_of_ne other, early]
  exact Function.update_of_ne other (p + 16) s.sys

/-- The state has the system registers of a context, and the registers but `apart`. -/
structure Keeps (c : Context) (apart : List XReg) (s : Cpu) : Prop where
  x : ∀ k, k ∉ apart → s.x k = c.x k
  sp : s.sys (modeSp c.pstate) = c.sp
  pc : s.sys .elrEl1 = c.pc
  ttbr0 : s.sys .ttbr0El1 = c.ttbr0
  pstate : s.sys .spsrEl1 = c.pstate

theorem row_image {c : Context} {x : XReg → Word}
    (same : ∀ k, k ∉ [(5 : XReg), 29, 30] → x k = c.x k) :
    row x (c.x 5) (c.x 29) (c.x 30) = (List.finRange 31).map c.x := by
  have listed : (List.finRange 31).map c.x = row c.x (c.x 5) (c.x 29) (c.x 30) := rfl
  rw [listed]
  simp [row, same]

theorem storeWords_image (m : Memory 64) (a : Word) (c : Context) :
    storeWords (storeWords (storeWords (storeWords
      (storeWords m a ((List.finRange 31).map c.x)) (a + 248#64) [c.sp]) (a + 256#64) [c.pc])
        (a + 264#64) [c.ttbr0]) (a + 272#64) [c.pstate] = storeWords m a (image c) := by
  have room : 8 * (image c).length ≤ 2 ^ 64 := by
    rw [show (image c).length = 35 from rfl]
    decide
  have start : (List.finRange 31).map c.x = (image c).take 31 := rfl
  have sp : storeWords (storeWords m a ((image c).take 31)) (a + 248#64) [c.sp] = _ :=
    storeWords_take m (by decide : 31 < 35) rfl room
  have pc : storeWords (storeWords m a ((image c).take 32)) (a + 256#64) [c.pc] = _ :=
    storeWords_take m (by decide : 32 < 35) rfl room
  have ttbr0 : storeWords (storeWords m a ((image c).take 33)) (a + 264#64) [c.ttbr0] = _ :=
    storeWords_take m (by decide : 33 < 35) rfl room
  have pstate : storeWords (storeWords m a ((image c).take 34)) (a + 272#64) [c.pstate] = _ :=
    storeWords_take m (by decide : 34 < 35) rfl room
  rw [start, sp, pc, ttbr0, pstate]
  rfl

theorem ststAsmEl2_stores {s : Cpu} {c : Context} {junk : Word} (level : s.level = .el2)
    (mode : c.AtEl0 ∨ c.AtEl1h)
    (frame : Holds s.mem (s.sys .spEl2) [c.x 5, junk, c.x 29, c.x 30])
    (apart : Apart (s.sys .spEl2) 32 (s.x 5) stateBytes) (keeps : Keeps c [5, 29, 30] s) :
    (ststAsmEl2 s).mem = storeWords s.mem (s.x 5) (image c) := by
  obtain ⟨level', same, base, mem⟩ := ststAsmEl2Stores_spec level frame apart
  rw [row_image keeps.x] at mem
  have pc := (same .elrEl1 (by decide)).trans keeps.pc
  have ttbr0 := (same .ttbr0El1 (by decide)).trans keeps.ttbr0
  have pstate := (same .spsrEl1 (by decide)).trans keeps.pstate
  have sp := keeps.sp
  have user := same .spEl0 (by decide)
  have kernel := same .spEl1 (by decide)
  unfold ststAsmEl2
  generalize s.run ststAsmEl2Stores = t at level' base mem pc ttbr0 pstate user kernel
  rcases mode with atUser | atKernel
  · rw [modeSp_user atUser] at sp
    simp [pstate, (user_masks atUser).1, base, BitVec.add_assoc, mem, user, sp, pc, ttbr0,
      storeWords_image]
  · rw [modeSp_kernel atKernel] at sp
    simp [pstate, (kernel_masks atKernel).1, base, BitVec.add_assoc, mem, kernel, sp, pc, ttbr0,
      storeWords_image]

def irqPairs : List (XReg × XReg) :=
  [(2, 3), (4, 5), (6, 7), (8, 9), (10, 11), (12, 13), (14, 15), (16, 17), (18, 19), (20, 21),
    (22, 23), (24, 25), (26, 27)]

theorem ststAsmStores_eq :
    ststAsmStores = (.stp 0 1 (.offset (.x 28) 0) :: stpChain 28 irqPairs) ++
      [.ldp 26 27 (.post .sp 16), .str 26 (.pre (.x 28) 16), .ldp 26 27 (.post .sp 16),
        .str 26 (.pre (.x 28) 8), .str 27 (.pre (.x 28) 8)] := rfl

theorem registers_image {c : Context} {x : XReg → Word} (same : ∀ k, k < 28 → x k = c.x k) :
    (registers ((0, 1) :: irqPairs)).map x = (image c).take 28 := by
  have listed : (image c).take 28 = (registers ((0, 1) :: irqPairs)).map c.x := rfl
  rw [listed]
  apply List.map_congr_left
  intro k member
  exact same k (by revert k; decide)

theorem ststAsmStores_spec {s : Cpu} {c : Context} {junk junk' : Word} (level : s.level = .el1)
    (frame : Holds s.mem (s.sys .spEl1) [c.x 28, junk, c.x 29, c.x 30, c.ttbr0, junk'])
    (apart : Apart (s.sys .spEl1) 48 (s.x 28) stateBytes) (low : ∀ k, k < 28 → s.x k = c.x k) :
    (s.run ststAsmStores).level = .el1 ∧
      (s.run ststAsmStores).sys = Function.update s.sys .spEl1 (s.sys .spEl1 + 32) ∧
      (s.run ststAsmStores).x 28 = s.x 28 + 240 ∧
      (s.run ststAsmStores).mem = storeWords s.mem (s.x 28) ((image c).take 31) := by
  obtain ⟨a, base⟩ : ∃ a, a = s.x 28 := ⟨_, rfl⟩
  obtain ⟨p, stack⟩ : ∃ p, p = s.sys .spEl1 := ⟨_, rfl⟩
  rw [← base, ← stack] at apart
  rw [← stack] at frame
  have room : 8 * (image c).length ≤ 2 ^ 64 := by
    rw [show (image c).length = 35 from rfl]
    decide
  obtain ⟨m, first⟩ : ∃ m, m = storeWords s.mem a ((image c).take 28) := ⟨_, rfl⟩
  obtain ⟨m', second⟩ : ∃ m', m' = storeWords s.mem a ((image c).take 29) := ⟨_, rfl⟩
  have frame₁ : Holds m p [c.x 28, junk, c.x 29, c.x 30, c.ttbr0, junk'] := by
    rw [first]
    exact holds_clear frame apart le_rfl (by simp [image, stateBytes])
  have frame₂ : Holds m' p [c.x 28, junk, c.x 29, c.x 30, c.ttbr0, junk'] := by
    rw [second]
    exact holds_clear frame apart le_rfl (by simp [image, stateBytes])
  have top : word m p = c.x 28 := ((holds_cons _ _ _ _).mp frame₁).1
  have fp : word m' (p + 16#64) = c.x 29 := holds_get frame₂ (by decide : 2 < 6)
  have lr : word m' (p + 24#64) = c.x 30 := holds_get frame₂ (by decide : 3 < 6)
  have slot28 : storeWords m (a + 224#64) [c.x 28] = m' := by
    rw [first, second]
    exact storeWords_take s.mem (by decide : 28 < 35) rfl room
  have last : storeWords (storeWords m' (a + 232#64) [c.x 29]) (a + 240#64) [c.x 30] =
      storeWords s.mem a ((image c).take 31) := by
    have slot29 : storeWords m' (a + 232#64) [c.x 29] = storeWords s.mem a ((image c).take 30) := by
      rw [second]
      exact storeWords_take s.mem (by decide : 29 < 35) rfl room
    rw [slot29]
    exact storeWords_take s.mem (by decide : 30 < 35) rfl room
  have start : s.run (.stp 0 1 (.offset (.x 28) 0) :: stpChain 28 irqPairs) = { s with
      x := Function.update s.x 28 (a + 208), mem := m } := by
    have size : BitVec.ofNat 64 (16 * irqPairs.length) = 208 := rfl
    rw [run_stpRow irqPairs (by decide) (by decide), registers_image low, size, ← base, ← first]
  rw [ststAsmStores_eq, run_append, start, ← base]
  simp [Cpu.sp, level, ← stack, BitVec.add_assoc, top, slot28, fp, lr, last]

theorem ststAsm_stores {s : Cpu} {c : Context} {junk junk' : Word} (level : s.level = .el1)
    (mode : c.AtEl0 ∧ s.sys .spEl0 = c.sp ∨ c.AtEl1h ∧ s.sys .spEl1 + 48 = c.sp)
    (frame : Holds s.mem (s.sys .spEl1) [c.x 28, junk, c.x 29, c.x 30, c.ttbr0, junk'])
    (apart : Apart (s.sys .spEl1) 48 (s.x 28) stateBytes) (low : ∀ k, k < 28 → s.x k = c.x k)
    (pc : s.sys .elrEl1 = c.pc) (pstate : s.sys .spsrEl1 = c.pstate) :
    (ststAsm s).mem = storeWords s.mem (s.x 28) (image c) := by
  obtain ⟨level', sys, base, mem⟩ := ststAsmStores_spec level frame apart low
  obtain ⟨a, area⟩ : ∃ a, a = s.x 28 := ⟨_, rfl⟩
  obtain ⟨p, stack⟩ : ∃ p, p = s.sys .spEl1 := ⟨_, rfl⟩
  rw [← area, ← stack] at apart
  rw [← area] at base mem
  rw [← stack] at frame sys mode
  rw [← area]
  obtain ⟨m, saved⟩ : ∃ m, m = storeWords s.mem a ((image c).take 33) := ⟨_, rfl⟩
  have room : 8 * (image c).length ≤ 2 ^ 64 := by
    rw [show (image c).length = 35 from rfl]
    decide
  have slots : storeWords (storeWords (storeWords s.mem a ((image c).take 31)) (a + 248#64) [c.sp])
      (a + 256#64) [c.pc] = m := by
    have sp : storeWords (storeWords s.mem a ((image c).take 31)) (a + 248#64) [c.sp] = _ :=
      storeWords_take s.mem (by decide : 31 < 35) rfl room
    rw [sp, saved]
    exact storeWords_take s.mem (by decide : 32 < 35) rfl room
  have ttbr0 : word m (p + 32#64) = c.ttbr0 := by
    have held : Holds m p [c.x 28, junk, c.x 29, c.x 30, c.ttbr0, junk'] := by
      rw [saved]
      exact holds_clear frame apart le_rfl (by simp [image, stateBytes])
    exact holds_get held (by decide : 4 < 6)
  have last : storeWords (storeWords m (a + 264#64) [c.ttbr0]) (a + 272#64) [c.pstate] =
      storeWords s.mem a (image c) := by
    have slot33 : storeWords m (a + 264#64) [c.ttbr0] = storeWords s.mem a ((image c).take 34) := by
      rw [saved]
      exact storeWords_take s.mem (by decide : 33 < 35) rfl room
    rw [slot33]
    exact storeWords_take s.mem (by decide : 34 < 35) rfl room
  unfold ststAsm
  generalize s.run ststAsmStores = t at level' sys base mem
  rcases mode with ⟨atUser, sp⟩ | ⟨atKernel, sp⟩
  · simp [Cpu.sp, level', sys, pstate, (user_masks atUser).1, base, BitVec.add_assoc, mem, sp, pc,
      slots, ttbr0, last]
  · have top : p + 48#64 = c.sp := sp
    simp [Cpu.sp, level', sys, pstate, (kernel_masks atKernel).1, base, BitVec.add_assoc, mem, pc,
      top, slots, ttbr0, last]

end Exceptions
