import MaldOS.Exceptions.Asmlib

/-!
`LDST`: the context that it resumes from a `state_t`. The registers from x2 on
come from the slot after their own.
-/
namespace Exceptions
open Aarch64 Words ByteMemory

/-- What `LDST` makes of the saved registers. -/
def shifted (x : XReg → Word) : XReg → Word := fun k => if 2 ≤ k ∧ k < 30 then x (k + 1) else x k

theorem image_chain (c : Context) :
    image c = ((List.finRange 31).map c.x).take 3 ++
      (((List.finRange 31).map c.x).drop 3 ++ [c.sp, c.pc, c.ttbr0, c.pstate]) := rfl

def loadPairs : List (XReg × XReg) :=
  [(2, 3), (4, 5), (6, 7), (8, 9), (10, 11), (12, 13), (14, 15), (16, 17), (18, 19), (20, 21),
    (22, 23), (24, 25), (26, 27), (28, 29)]

theorem assign_chain {y : XReg → Word} (x : XReg → Word) {k : XReg} (low : 2 ≤ k)
    (link : k ≠ 30) :
    assign y (registers loadPairs) (((List.finRange 31).map x).drop 3) k = x (k + 1) := by
  have place : ∀ k : XReg, 2 ≤ k → k ≠ 30 → ∃ i : Fin 28, (registers loadPairs)[i.val]? = some k ∧
      ((List.finRange 31).drop 3)[i.val]? = some (k + 1) := by decide
  obtain ⟨i, named, given⟩ := place k low link
  refine assign_at (by decide) named ?_
  rw [← List.map_drop, List.getElem?_map, given]
  rfl

/-- The first pair is loaded from 24 bytes on, so the chain starts as if x0 were 8 higher. -/
theorem ldstLoads_eq (s : Cpu) {t : Cpu} (spilt : t = s.exec (.str 0 (.offset .sp (-8)))) :
    s.run ldstLoads = Cpu.run ((t.setX 0 (t.x 0 + 8)).run (ldpChain 0 loadPairs))
      [.ldr 30 (.pre (.x 0) 8), .ldr 1 (.pre (.x 0) 8), .str 1 (.offset .sp (-16))] := by
  have first : t.exec (.ldp 2 3 (.pre (.x 0) 24)) =
      (t.setX 0 (t.x 0 + 8)).exec (.ldp 2 3 (.pre (.x 0) 16)) := by
    have sum : t.x 0 + 8#64 + 16#64 = t.x 0 + 24#64 := by
      rw [BitVec.add_assoc]
      rfl
    simp [sum]
  have code : ldstLoads = .str 0 (.offset .sp (-8)) :: .ldp 2 3 (.pre (.x 0) 24) ::
      (ldpChain 0 loadPairs.tail ++
        [.ldr 30 (.pre (.x 0) 8), .ldr 1 (.pre (.x 0) 8), .str 1 (.offset .sp (-16))]) := rfl
  have chain : ldpChain 0 loadPairs = .ldp 2 3 (.pre (.x 0) 16) :: ldpChain 0 loadPairs.tail := rfl
  rw [code, run_cons, ← spilt, run_cons, first, run_append, chain, run_cons (t.setX 0 _)]

/-- Words 3 to 30 go to x2 to x29, and word 30 to x30 as well. -/
theorem ldstLoads_spec {s : Cpu} {c : Context} (held : Holds s.mem (s.x 0) (image c))
    (apart : Apart (s.x 0) stateBytes (s.sp - 16) 16) :
    (s.run ldstLoads).level = s.level ∧ (s.run ldstLoads).sys = s.sys ∧
      (s.run ldstLoads).x 0 = s.x 0 + 248 ∧
      (∀ k, 2 ≤ k → (s.run ldstLoads).x k = shifted c.x k) ∧
      Holds (s.run ldstLoads).mem (s.x 0) (image c) ∧
      Holds (s.run ldstLoads).mem (s.sp - 16) [c.sp, s.x 0] := by
  obtain ⟨a, base⟩ : ∃ a, a = s.x 0 := ⟨_, rfl⟩
  obtain ⟨t, spilt⟩ : ∃ t, t = s.exec (.str 0 (.offset .sp (-8))) := ⟨_, rfl⟩
  have above : s.sp - 16 + BitVec.ofNat 64 8 = s.sp - 8 := by bv_omega
  have mem : t.mem = storeWords s.mem (s.sp - 16 + BitVec.ofNat 64 8) [a] := by
    rw [spilt, base, above]
    rfl
  have ptr : t.x 0 = a := by rw [spilt, base]; rfl
  have held₁ : Holds t.mem a (image c) := by
    rw [mem, holds_apart]
    · exact base ▸ held
    · have inner := apart.sub 0 8 stateBytes 8 (by omega) (by omega)
      rwa [← base, show a + BitVec.ofNat 64 0 = a from BitVec.add_zero a] at inner
  have row : Holds t.mem (a + 8 + 16) (((List.finRange 31).map c.x).drop 3) := by
    rw [image_chain, holds_append, holds_append] at held₁
    rw [BitVec.add_assoc]
    exact held₁.2.1
  obtain ⟨x, loaded⟩ : ∃ x, x = assign (Function.update t.x 0 (a + 232)) (registers loadPairs)
      (((List.finRange 31).map c.x).drop 3) := ⟨_, rfl⟩
  have chain : (t.setX 0 (t.x 0 + 8)).run (ldpChain 0 loadPairs) = { t with x := x } := by
    rw [ptr, @run_ldpChain 0 loadPairs (t.setX 0 (a + 8)) _ (by decide)
      (by simpa [Cpu.setX] using row) rfl, loaded]
    have sum : a + 8 + BitVec.ofNat 64 (16 * loadPairs.length) = a + 232 := by
      rw [BitVec.add_assoc]
      rfl
    simp only [Cpu.setX, Function.update_self, Function.update_idem, sum]
  have ptr' : x 0 = a + 232 := by
    rw [loaded, assign_other (by decide), Function.update_self]
  have next : a + 232#64 + 8#64 = a + 240#64 := by
    rw [BitVec.add_assoc]
    rfl
  have last : a + 240#64 + 8#64 = a + 248#64 := by
    rw [BitVec.add_assoc]
    rfl
  have lr : word t.mem (a + 240#64) = c.x 30 := holds_get held₁ (by decide : 30 < 35)
  have sp : word t.mem (a + 248#64) = c.sp := holds_get held₁ (by decide : 31 < 35)
  have run : s.run ldstLoads = { t with
      x := Function.update (Function.update (Function.update (Function.update x 0 (a + 240)) 30
        (c.x 30)) 0 (a + 248)) 1 c.sp
      mem := storeWords t.mem (t.sp - 16) [c.sp] } := by
    rw [ldstLoads_eq s spilt, chain]
    simp [Cpu.sp, ptr', next, last, lr, sp]
  have same : t.level = s.level ∧ t.sys = s.sys ∧ t.sp = s.sp := by
    rw [spilt]
    exact ⟨rfl, rfl, rfl⟩
  obtain ⟨level, sys, sp_same⟩ := same
  rw [sp_same] at run
  rw [run]
  refine ⟨level, sys, ?_, ?_, ?_, ?_⟩
  · simp [base]
  · intro k low
    have others : ∀ k : XReg, 2 ≤ k → k ≠ 0 ∧ k ≠ 1 ∧ (k ≠ 30 → k < 30) := by decide
    obtain ⟨notZero, notOne, inside⟩ := others k low
    dsimp only
    rw [Function.update_of_ne notOne, Function.update_of_ne notZero]
    by_cases link : k = 30
    · rw [link, Function.update_self]
      rfl
    · rw [Function.update_of_ne link, Function.update_of_ne notZero, loaded, shifted,
        if_pos ⟨low, inside link⟩]
      exact assign_chain c.x low link
  · rw [holds_apart]
    · exact base ▸ held₁
    · exact apart.mono le_rfl (by simp)
  · have top : Holds t.mem (s.sp - 16 + 8) [a] := by
      rw [mem]
      exact holds_stored _ _ (by simp)
    have pair := holds_push [c.sp] top (a := s.sp - 16) rfl (by simp)
    exact base ▸ pair

theorem user_masks {c : Context} (mode : c.AtEl0) :
    c.pstate &&& 7#64 = 0#64 ∧ c.pstate &&& 1#64 = 0#64 := by
  constructor
  · rw [show 7#64 = 0xF &&& 7#64 by rfl, ← BitVec.and_assoc, mode]
    rfl
  · rw [show 1#64 = 0xF &&& 1#64 by rfl, ← BitVec.and_assoc, mode]
    rfl

theorem kernel_masks {c : Context} (mode : c.AtEl1h) :
    c.pstate &&& 7#64 = 5#64 ∧ c.pstate &&& 1#64 = 1#64 ∧ c.pstate &&& 8#64 = 0#64 := by
  refine ⟨?_, ?_, ?_⟩
  · rw [show 7#64 = 0xF &&& 7#64 by rfl, ← BitVec.and_assoc, mode]
    rfl
  · rw [show 1#64 = 0xF &&& 1#64 by rfl, ← BitVec.and_assoc, mode]
    rfl
  · rw [show 8#64 = 0xF &&& 8#64 by rfl, ← BitVec.and_assoc, mode]
    rfl

theorem user_not_kernel {c : Context} (user : c.AtEl0) (kernel : c.AtEl1h) : False := by
  have both : (0 : Word) = 5 := Eq.trans (Eq.symm user) kernel
  exact absurd both (by decide)

theorem modeSp_user {c : Context} (mode : c.AtEl0) : modeSp c.pstate = .spEl0 := by
  simp [modeSp, (user_masks mode).2]

theorem modeSp_kernel {c : Context} (mode : c.AtEl1h) : modeSp c.pstate = .spEl1 := by
  obtain ⟨_, select, own⟩ := kernel_masks mode
  simp [modeSp, select, own]

theorem modeSp_below {c : Context} (mode : c.AtEl0 ∨ c.AtEl1h) : modeSp c.pstate ≠ .spEl2 := by
  rcases mode with user | kernel
  · rw [modeSp_user user]
    decide
  · rw [modeSp_kernel kernel]
    decide

theorem first_two {y z : XReg → Word} {u v : Word} (first : z 0 = u) (second : z 1 = v)
    (same : ∀ k, k ≠ 0 → k ≠ 1 → y k = z k) :
    Function.update (Function.update y 1 v) 0 u = z := by
  funext k
  by_cases zero : k = 0
  · rw [zero, Function.update_self, first]
  by_cases one : k = 1
  · rw [one, Function.update_of_ne (by decide), Function.update_self, second]
  · rw [Function.update_of_ne zero, Function.update_of_ne one, same k zero one]

/-- What is left to do when the stack pointer of the context has been loaded: the rest is at `a`,
    and `a` and the stack pointer are below the stack. -/
structure Loaded (c : Context) (a : Word) (t : Cpu) : Prop where
  base : t.x 0 = a + 248
  tail : ∀ k, k ≠ 0 → k ≠ 1 → t.x k = shifted c.x k
  first : word t.mem a = c.x 0
  second : word t.mem (a + 8#64) = c.x 1
  pc : word t.mem (a + 256#64) = c.pc
  ttbr0 : word t.mem (a + 264#64) = c.ttbr0
  pstate : word t.mem (a + 272#64) = c.pstate
  spiltX : word t.mem (t.sys t.level.sp - 8#64) = a
  spiltSp : word t.mem (t.sys t.level.sp - 16#64) = c.sp

theorem ldstLoads_loaded {s : Cpu} {c : Context} (held : Holds s.mem (s.x 0) (image c))
    (apart : Apart (s.x 0) stateBytes (s.sp - 16) 16) : Loaded c (s.x 0) (s.run ldstLoads) := by
  obtain ⟨level, sys, base, rest, held, spilt⟩ := ldstLoads_spec held apart
  have low : ∀ k : XReg, k ≠ 0 → k ≠ 1 → 2 ≤ k := by decide
  have below : s.sp - 8#64 = s.sp - 16 + BitVec.ofNat 64 (8 * 1) := by bv_omega
  have sp : (s.run ldstLoads).sys (s.run ldstLoads).level.sp = s.sp := by
    rw [level, sys]
    rfl
  constructor
  · exact base
  · exact fun k notZero notOne => rest k (low k notZero notOne)
  · exact ((holds_cons _ _ _ _).mp held).1
  · exact holds_get held (by decide : 1 < 35)
  · exact holds_get held (by decide : 32 < 35)
  · exact holds_get held (by decide : 33 < 35)
  · exact holds_get held (by decide : 34 < 35)
  · rw [sp, below]
    exact holds_get spilt (by decide : 1 < 2)
  · rw [sp]
    exact ((holds_cons _ _ _ _).mp spilt).1

def ldstEnd : List Instr := [.ldr 1 (.offset (.x 0) 8), .ldr 0 (.offset (.x 0) 0)]

theorem systemEl1_resumes {c : Context} {a : Word} {t : Cpu} (loaded : Loaded c a t)
    (level : t.level = .el1) (mode : c.AtEl0 ∨ c.AtEl1h) (current : Word) (zero : Bool) :
    ((systemEl1 { t.setX 1 current with zero := zero }).run ldstEnd).eret =
      { c with x := shifted c.x } := by
  obtain ⟨base, tail, first, second, pc, ttbr0, pstate, spiltX, spiltSp⟩ := loaded
  rw [level, Level.sp] at spiltX spiltSp
  rcases mode with user | kernel
  · obtain ⟨low, select⟩ := user_masks user
    simp [Cpu.sp, Cpu.eret, modeSp, systemEl1, ldstEnd, BitVec.add_assoc, level, base, pc, ttbr0,
      pstate, spiltSp, spiltX, first, second, low, select]
    refine first_two rfl rfl fun k zero one => ?_
    simp [zero, one, tail]
  · obtain ⟨low, select, own⟩ := kernel_masks kernel
    simp [Cpu.sp, Cpu.eret, modeSp, systemEl1, ldstEnd, BitVec.add_assoc, level, base, pc, ttbr0,
      pstate, spiltSp, spiltX, first, second, low, select, own]
    refine first_two rfl rfl fun k zero one => ?_
    simp [zero, one, tail]

theorem systemEl2_resumes {c : Context} {a : Word} {t : Cpu} (loaded : Loaded c a t)
    (level : t.level = .el2) (mode : c.AtEl0 ∨ c.AtEl1h) (current : Word) (zero : Bool) :
    ((systemEl2 { t.setX 1 current with zero := zero }).run ldstEnd).eret =
      { c with x := shifted c.x } := by
  obtain ⟨base, tail, first, second, pc, ttbr0, pstate, spiltX, spiltSp⟩ := loaded
  rw [level, Level.sp] at spiltX spiltSp
  rcases mode with user | kernel
  · obtain ⟨low, select⟩ := user_masks user
    simp [Cpu.sp, Cpu.eret, modeSp, systemEl2, ldstEnd, BitVec.add_assoc, level, base, pc, ttbr0,
      pstate, spiltSp, spiltX, first, second, low, select]
    refine first_two rfl rfl fun k zero one => ?_
    simp [zero, one, tail]
  · obtain ⟨low, select, own⟩ := kernel_masks kernel
    simp [Cpu.sp, Cpu.eret, modeSp, systemEl2, ldstEnd, BitVec.add_assoc, level, base, pc, ttbr0,
      pstate, spiltSp, spiltX, first, second, low, select, own]
    refine first_two rfl rfl fun k zero one => ?_
    simp [zero, one, tail]

/-- `LDST` resumes the context it is given with the registers shifted. -/
theorem ldst_spec {s : Cpu} {c : Context} (held : Holds s.mem (s.x 0) (image c))
    (apart : Apart (s.x 0) stateBytes (s.sp - 16) 16) (mode : c.AtEl0 ∨ c.AtEl1h) :
    ldst s = { c with x := shifted c.x } := by
  have loaded := ldstLoads_loaded held apart
  unfold ldst
  generalize s.run ldstLoads = t at loaded
  cases level : t.level with
  | el1 =>
    have test : t.run [.currentEl 1, .ands 1 1 0xC, .cmp 1 4] =
        { t.setX 1 4 with zero := true } := by
      simp [level]
    simp only [test, ↓reduceIte]
    exact systemEl1_resumes loaded level mode 4 true
  | el2 =>
    have test : t.run [.currentEl 1, .ands 1 1 0xC, .cmp 1 4] =
        { t.setX 1 8 with zero := false } := by
      simp [level]
    simp only [test]
    exact systemEl2_resumes loaded level mode 8 false

end Exceptions
