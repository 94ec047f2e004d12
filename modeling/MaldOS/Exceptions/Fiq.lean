import MaldOS.Exceptions.El2Stack

/-!
A FIQ is transparent. The registers that `fiq_handler_el2` and its two routines
push come back from the stack, whatever the C handler does to them.
-/
namespace Exceptions
open Aarch64 Words ByteMemory

/-- The pairs in the order of `pushRegisters`; x28 goes alone. -/
def pushedPairs : List (XReg × XReg) :=
  [(0, 1), (2, 3), (4, 5), (6, 7), (8, 9), (10, 11), (12, 13), (14, 15), (16, 17), (18, 19),
    (20, 21), (22, 23), (24, 25), (26, 27)]

theorem pushRegisters_eq : pushRegisters = pushes pushedPairs ++ [.str 28 (.pre .sp (-16))] := rfl

theorem popRegisters_eq :
    popRegisters = .ldr 28 (.post .sp 16) :: pops pushedPairs.reverse := rfl

/-- The 256 bytes that the handler has pushed, of which x28 leaves the second word unused. -/
def frameBytes : Nat := 256

def atCall (link : Word) (s : Cpu) : Cpu :=
  s.run (.stp 29 30 (.pre .sp (-16)) :: .bl link :: pushRegisters ++ [.bl link])

theorem fiq_pushes (link : Word) (s : Cpu) :
    ∃ junk, Holds (atCall link s).mem (atCall link s).sp
      (s.x 28 :: junk :: ((registers pushedPairs.reverse).map s.x ++ [s.x 29, s.x 30])) := by
  obtain ⟨t, called⟩ : ∃ t, t = s.run [.stp 29 30 (.pre .sp (-16)), .bl link] := ⟨_, rfl⟩
  have x : t.x = Function.update s.x 30 link := by rw [called]; rfl
  have links : Holds t.mem t.sp [s.x 29, s.x 30] := by
    have stored : Holds (storeWords s.mem (s.sp - 16) [s.x 29, s.x 30]) (s.sp - 16)
        [s.x 29, s.x 30] := holds_stored _ _ (by simp)
    have mem : t.mem = storeWords s.mem (s.sp - 16) [s.x 29, s.x 30] := by rw [called]; rfl
    have sp : t.sp = s.sp - 16 := by
      rw [called]
      exact Function.update_self _ _ _
    rw [mem, sp]
    exact stored
  obtain ⟨same, pairs⟩ := run_pushes pushedPairs links (by simp [pushedPairs])
  have kept : (registers pushedPairs.reverse).map t.x = (registers pushedPairs.reverse).map s.x := by
    rw [x]
    exact map_update (by decide)
  obtain ⟨u, pushed⟩ : ∃ u, u = t.run (pushes pushedPairs) := ⟨_, rfl⟩
  rw [← pushed] at same pairs
  rw [kept] at pairs
  have last : atCall link s = u.run [.str 28 (.pre .sp (-16)), .bl link] := by
    have code : (.stp 29 30 (.pre .sp (-16)) :: .bl link :: pushRegisters ++ [.bl link]) =
        [.stp 29 30 (.pre .sp (-16)), .bl link] ++ (pushes pushedPairs ++
          [.str 28 (.pre .sp (-16)), .bl link]) := by
      rw [pushRegisters_eq]
      rfl
    rw [atCall, code, run_append, ← called, run_append, ← pushed]
  have x28 : u.x 28 = s.x 28 := by
    rw [same, x]
    exact Function.update_of_ne (by decide) _ _
  have gap : Holds u.mem (u.sp - 8) (word u.mem (u.sp - 8) ::
      ((registers pushedPairs.reverse).map s.x ++ [s.x 29, s.x 30])) := by
    rw [holds_cons]
    refine ⟨rfl, ?_⟩
    rw [show u.sp - 8 + BitVec.ofNat 64 8 = u.sp from BitVec.sub_add_cancel u.sp 8]
    exact pairs
  have below : u.sp - 16 + BitVec.ofNat 64 (8 * [s.x 28].length) = u.sp - 8 := by
    simp only [List.length_singleton]
    bv_omega
  have top := holds_push [s.x 28] gap below (by simp [registers_length, pushedPairs])
  have mem : (u.run [.str 28 (.pre .sp (-16)), .bl link]).mem =
      storeWords u.mem (u.sp - 16) [s.x 28] := by
    rw [← x28]
    rfl
  have sp : (u.run [.str 28 (.pre .sp (-16)), .bl link]).sp = u.sp - 16 :=
    Function.update_self _ _ _
  rw [last, mem, sp]
  exact ⟨_, top⟩

/-- What the entry and the exit of the handler do, around a C function that leaves the pushed
    words alone. -/
theorem fiq_pops {s t : Cpu} {junk : Word} (link : Word)
    (holds : Holds t.mem t.sp
      (s.x 28 :: junk :: ((registers pushedPairs.reverse).map s.x ++ [s.x 29, s.x 30]))) :
    (t.run (.bl link :: popRegisters ++ [.ldp 29 30 (.post .sp 16)])).x = s.x := by
  obtain ⟨first, rest⟩ := (holds_cons _ _ _ _).mp holds
  obtain ⟨-, rest⟩ := (holds_cons _ _ _ _).mp rest
  obtain ⟨u, popped⟩ : ∃ u, u = t.run [.bl link, .ldr 28 (.post .sp 16)] := ⟨_, rfl⟩
  have x28 : u.x 28 = s.x 28 := by
    rw [popped, ← first]
    simp [Cpu.sp]
  have sp : u.sp = t.sp + 16 := by
    rw [popped]
    exact Function.update_self _ _ _
  have mem : u.mem = t.mem := by rw [popped]; rfl
  have above : t.sp + BitVec.ofNat 64 8 + BitVec.ofNat 64 8 = u.sp := by
    rw [sp, BitVec.add_assoc]
    rfl
  rw [above, ← mem] at rest
  obtain ⟨loaded, memory, links⟩ := run_pops pushedPairs.reverse rest
  obtain ⟨v, spread⟩ : ∃ v, v = u.run (pops pushedPairs.reverse) := ⟨_, rfl⟩
  rw [← spread] at loaded memory links
  obtain ⟨fp, lr⟩ := (holds_cons _ _ _ _).mp links
  rw [holds_singleton] at lr
  have last : t.run (.bl link :: popRegisters ++ [.ldp 29 30 (.post .sp 16)]) =
      v.exec (.ldp 29 30 (.post .sp 16)) := by
    have code : (.bl link :: popRegisters ++ [.ldp 29 30 (.post .sp 16)]) =
        [.bl link, .ldr 28 (.post .sp 16)] ++ (pops pushedPairs.reverse ++
          [.ldp 29 30 (.post .sp 16)]) := by
      rw [popRegisters_eq]
      rfl
    rw [code, run_append, ← popped, run_append, ← spread]
    rfl
  have final : (v.exec (.ldp 29 30 (.post .sp 16))).x =
      Function.update (Function.update v.x 29 (s.x 29)) 30 (s.x 30) := by
    rw [← fp, ← lr, ← memory]
    rfl
  rw [last, final]
  funext k
  have listed : ∀ k : XReg, k = 30 ∨ k = 29 ∨ k = 28 ∨ k ∈ registers pushedPairs.reverse := by
    decide
  have pair : ∀ k : XReg, k ∈ registers pushedPairs.reverse → k ≠ 30 ∧ k ≠ 29 := by decide
  rcases listed k with rfl | rfl | rfl | member
  · exact Function.update_self _ _ _
  · rw [Function.update_of_ne (by decide), Function.update_self]
  · rw [Function.update_of_ne (by decide), Function.update_of_ne (by decide), loaded,
      if_neg (by decide), x28]
  · obtain ⟨not30, not29⟩ := pair k member
    rw [Function.update_of_ne not30, Function.update_of_ne not29, loaded, if_pos member]

/-- The C function that is called in state `t` leaves the bytes at and above its stack pointer, up
    to the one of the interrupted code. -/
def SparesStack (frame : Word) (body : Body) (t : Cpu) : Prop :=
  load (called frame body t).mem t.sp frameBytes = load t.mem t.sp frameBytes

/-- Whatever the C handler does to the registers and to the rest of the memory, the interrupted
    code finds its registers and the stack pointer of EL2 as they were. -/
theorem fiq_transparent {s : Cpu} {body : Body} (link frame : Word) (level : s.level = .el2)
    (spares : SparesStack frame body (atCall link s)) :
    (fiqHandlerEl2 link frame body s).x = s.x ∧
      (fiqHandlerEl2 link frame body s).sys .spEl2 = s.sys .spEl2 := by
  constructor
  · obtain ⟨junk, pushed⟩ := fiq_pushes link s
    have run : fiqHandlerEl2 link frame body s = (called frame body (atCall link s)).run
        (.bl link :: popRegisters ++ [.ldp 29 30 (.post .sp 16)]) := rfl
    rw [run]
    apply fiq_pops link
    rw [(called_moved frame body (atCall link s)).2]
    refine holds_of_load ?_ pushed
    have size : 8 * (s.x 28 :: junk :: ((registers pushedPairs.reverse).map s.x ++
        [s.x 29, s.x 30])).length = frameBytes := by
      simp [registers_length, pushedPairs, frameBytes]
    rw [size]
    exact spares
  · obtain ⟨sameLevel, sp⟩ := fiqHandlerEl2_moved link frame body s
    rw [Cpu.sp, Cpu.sp, sameLevel, level] at sp
    exact sp

/-- A handler that loses every register and writes to a variable of its own. -/
def wreckingBody : Body :=
  ⟨fun s => { s with x := fun _ => 0, mem := storeWords s.mem 0x90000 [1] }, fun _ => rfl,
    fun _ => rfl⟩

theorem fiq_transparent_counting :
    (fiqHandlerEl2 0x100 0x30 wreckingBody (interrupted .svc counting)).x = counting.x ∧
      (fiqHandlerEl2 0x100 0x30 wreckingBody (interrupted .svc counting)).sys .spEl2 = 0xB0000 := by
  have sp : (atCall 0x100 (interrupted .svc counting)).sp = 0xAFF00 := by decide +kernel
  have written : ∀ t, (called 0x30 wreckingBody t).mem = storeWords t.mem 0x90000 [1] :=
    fun _ => rfl
  apply fiq_transparent 0x100 0x30 rfl
  unfold SparesStack
  have apart : Apart (0xAFF00 : Word) frameBytes 0x90000 (8 * [(1 : Word)].length) :=
    apart_offsets (0 : Word) (i := 0xAFF00) (j := 0x90000) (by decide) (by decide) (by decide)
  rw [← encode_length] at apart
  rw [written, sp, storeWords, load_store_apart _ _ _ _ _ apart]

end Exceptions
