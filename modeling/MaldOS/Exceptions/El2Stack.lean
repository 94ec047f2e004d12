import MaldOS.Exceptions.Dispatch

/-!
The stack of EL2 over sequences of exceptions: what each of them leaves of it
when it returns. The C handlers of synchronous exceptions leave through `LDST`
from inside their frames.
-/
namespace Exceptions
open Aarch64 Words Runs

/-- `LDST`, up to the `eret` -/
def ldstState (s : Cpu) : Cpu :=
  let s := s.run ldstLoads
  let s := s.run [.currentEl 1, .ands 1 1 0xC, .cmp 1 4]
  let s := if s.zero then systemEl1 s else systemEl2 s
  s.run [.ldr 1 (.offset (.x 0) 8), .ldr 0 (.offset (.x 0) 0)]

theorem ldst_eq (s : Cpu) : ldst s = (ldstState s).eret := rfl

/-- `LDST_RESTORESP` -/
def ldstRestoresp (s : Cpu) : Cpu := ldstState (s.run [.mov .sp (.x 1)])

def pushRegisters : List Instr := [
  .stp 0 1 (.pre .sp (-16)),
  .stp 2 3 (.pre .sp (-16)),
  .stp 4 5 (.pre .sp (-16)),
  .stp 6 7 (.pre .sp (-16)),
  .stp 8 9 (.pre .sp (-16)),
  .stp 10 11 (.pre .sp (-16)),
  .stp 12 13 (.pre .sp (-16)),
  .stp 14 15 (.pre .sp (-16)),
  .stp 16 17 (.pre .sp (-16)),
  .stp 18 19 (.pre .sp (-16)),
  .stp 20 21 (.pre .sp (-16)),
  .stp 22 23 (.pre .sp (-16)),
  .stp 24 25 (.pre .sp (-16)),
  .stp 26 27 (.pre .sp (-16)),
  .str 28 (.pre .sp (-16))]

def popRegisters : List Instr := [
  .ldr 28 (.post .sp 16),
  .ldp 26 27 (.post .sp 16),
  .ldp 24 25 (.post .sp 16),
  .ldp 22 23 (.post .sp 16),
  .ldp 20 21 (.post .sp 16),
  .ldp 18 19 (.post .sp 16),
  .ldp 16 17 (.post .sp 16),
  .ldp 14 15 (.post .sp 16),
  .ldp 12 13 (.post .sp 16),
  .ldp 10 11 (.post .sp 16),
  .ldp 8 9 (.post .sp 16),
  .ldp 6 7 (.post .sp 16),
  .ldp 4 5 (.post .sp 16),
  .ldp 2 3 (.post .sp 16),
  .ldp 0 1 (.post .sp 16)]

/-- What compiled code does between its prologue and its epilogue, calls included. -/
structure Body where
  run : Cpu → Cpu
  level : ∀ s, (run s).level = s.level
  sp : ∀ s, (run s).sp = s.sp

/-- A C function that returns. -/
def called (frame : Word) (body : Body) (s : Cpu) : Cpu :=
  let s := body.run (inFrame frame s)
  s.setSys s.level.sp (s.sp + frame)

/-- `fiq_handler_el2`, up to the `eret` -/
def fiqHandlerEl2 (link frame : Word) (body : Body) (s : Cpu) : Cpu :=
  let s := s.run (.stp 29 30 (.pre .sp (-16)) :: .bl link :: pushRegisters ++ [.bl link])
  let s := called frame body s
  s.run (.bl link :: popRegisters ++ [.ldp 29 30 (.post .sp 16)])

theorem called_moved (frame : Word) (body : Body) (s : Cpu) :
    (called frame body s).level = s.level ∧ (called frame body s).sp = s.sp := by
  have level : (body.run (inFrame frame s)).level = s.level := body.level _
  have sp : (body.run (inFrame frame s)).sp = s.sp - frame := by
    rw [body.sp]
    exact Function.update_self _ _ _
  refine ⟨level, ?_⟩
  unfold called
  simp only [Cpu.sp, Cpu.setSys, Function.update_self]
  rw [show (body.run (inFrame frame s)).sys (body.run (inFrame frame s)).level.sp = _ from sp,
    BitVec.sub_add_cancel]
  rfl

theorem fiqHandlerEl2_moved (link frame : Word) (body : Body) (s : Cpu) :
    (fiqHandlerEl2 link frame body s).level = s.level ∧
      (fiqHandlerEl2 link frame body s).sp = s.sp := by
  obtain ⟨t, pushed⟩ : ∃ t, t = s.run (.stp 29 30 (.pre .sp (-16)) :: .bl link :: pushRegisters ++
    [.bl link]) := ⟨_, rfl⟩
  have pushes : Moved (-256) [] s t := by
    rw [pushed]
    exact run_moves (by simp [pushRegisters]) rfl rfl
  obtain ⟨level, sp⟩ := called_moved frame body t
  obtain ⟨u, returned⟩ : ∃ u, u = called frame body t := ⟨_, rfl⟩
  rw [← returned] at level sp
  have pops : Moved 256 [] u (u.run (.bl link :: popRegisters ++ [.ldp 29 30 (.post .sp 16)])) :=
    run_moves (by simp [popRegisters]) rfl rfl
  unfold fiqHandlerEl2
  dsimp only
  rw [← pushed, ← returned]
  refine ⟨(pops.level.trans level).trans pushes.level, ?_⟩
  rw [pops.sp, sp, pushes.sp, BitVec.add_assoc, ← BitVec.ofInt_add]
  simp

theorem systemEl2_moved {s : Cpu} (level : s.level = .el2) :
    (systemEl2 s).level = .el2 ∧ (systemEl2 s).sp = s.sp := by
  obtain ⟨t, loaded⟩ : ∃ t, t = s.run [.ldr 1 (.pre (.x 0) 8), .msr .elrEl2 1,
    .ldr 1 (.pre (.x 0) 8), .msr .ttbr0El1 1, .ldr 1 (.pre (.x 0) 8), .msr .spsrEl2 1,
    .ldr 0 (.offset .sp (-8)), .and 1 1 7, .cmp 1 0] := ⟨_, rfl⟩
  have loads : Moved 0 [.elrEl2, .ttbr0El1, .spsrEl2] s t := by
    rw [loaded]
    exact run_moves (by simp [level]) rfl rfl
  have level' := loads.level.trans level
  have user : Moved 0 [.spEl0] t (t.run [.ldr 1 (.offset .sp (-16)), .msr .spEl0 1]) :=
    run_moves (by simp [level']) rfl rfl
  have kernel : Moved 0 [.spEl1] t (t.run [.ldr 1 (.offset .sp (-16)), .msr .spEl1 1]) :=
    run_moves (by simp [level']) rfl rfl
  have user' : Moved 0 [.spEl0, .spEl1] t _ := user.weaken (by simp)
  have either := moved_ite (p := t.zero) user' (kernel.weaken (by simp))
  have whole := loads.trans either
  unfold systemEl2
  dsimp only
  rw [← loaded]
  exact ⟨whole.level.trans level, by simpa using whole.sp⟩

theorem ldstState_sp {s : Cpu} (level : s.level = .el2) : (ldstState s).sys .spEl2 = s.sys .spEl2 := by
  obtain ⟨t, loaded⟩ : ∃ t, t = s.run ldstLoads := ⟨_, rfl⟩
  have loads : Moved 0 [] s t := by
    rw [loaded]
    exact run_moves (by simp [ldstLoads]) rfl rfl
  have level' := loads.level.trans level
  have test : t.run [.currentEl 1, .ands 1 1 0xC, .cmp 1 4] = { t.setX 1 8 with zero := false } := by
    simp [level']
  obtain ⟨u, tested⟩ : ∃ u : Cpu, u = { t.setX 1 8 with zero := false } := ⟨_, rfl⟩
  have tests : u.level = .el2 ∧ u.sp = t.sp := by
    rw [tested]
    exact ⟨level', rfl⟩
  have other : u.zero = false := by rw [tested]
  obtain ⟨level'', sp⟩ := systemEl2_moved tests.1
  obtain ⟨v, restored⟩ : ∃ v, v = systemEl2 u := ⟨_, rfl⟩
  rw [← restored] at level'' sp
  have last : Moved 0 [] v (v.run [.ldr 1 (.offset (.x 0) 8), .ldr 0 (.offset (.x 0) 0)]) :=
    run_moves (by simp) rfl rfl
  have whole : (ldstState s).level = .el2 ∧ (ldstState s).sp = s.sp := by
    unfold ldstState
    dsimp only
    rw [← loaded, test, ← tested, other]
    simp only [Bool.false_eq_true, ↓reduceIte]
    rw [← restored]
    refine ⟨last.level.trans level'', ?_⟩
    rw [last.sp, sp, tests.2, loads.sp]
    simp
  have equal := whole.2
  rw [Cpu.sp, Cpu.sp, whole.1, level] at equal
  exact equal

structure Frames where
  cSwiHandler : Word
  cAbortHandler : Word
  cFiqHandler : Word

inductive Event where
  /-- `kernel` is what the local of the handler holds, and `place` where it is. -/
  | sync (cpu : Cpu) (kernel : Context) (place : Word)
  | fiq (cpu : Cpu) (body : Body)

def Event.cpu : Event → Cpu
  | .sync cpu _ _ => cpu
  | .fiq cpu _ => cpu

/-- At EL2, with the stack pointer that the last return left. -/
def taken (sp : Word) (cpu : Cpu) : Cpu :=
  { cpu with level := .el2, sys := Function.update cpu.sys .spEl2 sp }

/-- The call of `LDST` that a handler ends with, `none` where it loops. -/
def leaving (place : Word) (s : Cpu) : Exit → Option Cpu
  | .kernel k => some { s.setX 0 place with mem := storeWords s.mem place (image k) }
  | .oldarea area => some (s.setX 0 area)
  | .halt => none

/-- From the branch to C to the `eret`. `el2Stack` are the symbols `__EL2_stack_coreN`. -/
def handled (el2Stack : Fin 4 → Word) (frames : Frames) (kernel : Context) (place : Word) :
    Branch × Cpu → Option Cpu
  | (.cSwiHandler, s) =>
    let s := inFrame frames.cSwiHandler s
    (leaving place s (cSwiHandler s kernel)).map fun t =>
      ldstRestoresp (t.setX 1 (el2Stack (coreIndex s)))
  | (.cAbortHandler, s) =>
    let s := inFrame frames.cAbortHandler s
    (leaving place s (cAbortHandler s kernel)).map ldstState
  | (.hang, _) => none

def returns (el2Stack : Fin 4 → Word) (frames : Frames) (link sp : Word) : Event → Option Cpu
  | .sync cpu kernel place =>
    handled el2Stack frames kernel place (syncronousExceptionEl2 link (taken sp cpu))
  | .fiq cpu body => some (fiqHandlerEl2 link frames.cFiqHandler body (taken sp cpu))

def after (el2Stack : Fin 4 → Word) (frames : Frames) (link sp : Word) (e : Event) : Option Word :=
  (returns el2Stack frames link sp e).map fun s => s.sys .spEl2

def Event.Aborts : Event → Prop
  | .sync cpu _ _ => ¬ IsSvc cpu
  | .fiq _ _ => False

theorem leaving_keeps {place : Word} {s t : Cpu} {e : Exit} (left : leaving place s e = some t) :
    t.level = s.level ∧ t.sys = s.sys := by
  cases e with
  | kernel k =>
    cases left
    exact ⟨rfl, rfl⟩
  | oldarea area =>
    cases left
    exact ⟨rfl, rfl⟩
  | halt => cases left

section
variable {el2Stack : Fin 4 → Word} {frames : Frames} {link sp : Word}

theorem after_fiq (cpu : Cpu) (body : Body) :
    after el2Stack frames link sp (.fiq cpu body) = some sp := by
  obtain ⟨level, same⟩ := fiqHandlerEl2_moved link frames.cFiqHandler body (taken sp cpu)
  rw [Cpu.sp, Cpu.sp, level] at same
  have top : (taken sp cpu).sys .spEl2 = sp := by simp [taken]
  exact congrArg some (same.trans top)

/-- What a synchronous exception to EL2 is, when the handler is called. -/
structure Entered (sp : Word) (cpu s : Cpu) : Prop where
  level : s.level = .el2
  sp : s.sys .spEl2 = sp
  core : core s = core cpu

theorem sync_entered {cpu : Cpu} (called : (syncronousExceptionEl2 link (taken sp cpu)).1 ≠ .hang) :
    Entered sp cpu (syncronousExceptionEl2 link (taken sp cpu)).2 := by
  have moved := syncronousExceptionEl2_moved link called
  have below := moved.sp
  rw [Cpu.sp, Cpu.sp, moved.level] at below
  constructor
  · exact moved.level
  · refine below.trans ?_
    simp [taken]
  · unfold core
    rw [moved.sys .mpidrEl1 (by simp [taken]) (by simp)]
    simp [taken]

theorem sync_branch {cpu : Cpu} (called : (syncronousExceptionEl2 link (taken sp cpu)).1 ≠ .hang) :
    (syncronousExceptionEl2 link (taken sp cpu)).1 =
      if IsSvc cpu then .cSwiHandler else .cAbortHandler := by
  by_cases hypervisor : (taken sp cpu).sys .esrEl2 >>> 26 = ecHvc
  · have branch := syncronousExceptionEl2_branch link rfl hypervisor
    rw [branch]
    rfl
  · exact absurd (syncronousExceptionEl2_hangs link rfl hypervisor) called

theorem after_svc {cpu : Cpu} {kernel : Context} {place sp' : Word} (svc : IsSvc cpu)
    (back : after el2Stack frames link sp (.sync cpu kernel place) = some sp') :
    sp' = el2Stack (coreIndex cpu) := by
  have entered := @sync_entered link sp cpu
  have branch := @sync_branch link sp cpu
  obtain ⟨u, handled, top⟩ := Option.map_eq_some_iff.mp back
  rw [returns] at handled
  generalize syncronousExceptionEl2 link (taken sp cpu) = r at entered branch handled
  obtain ⟨b, s⟩ := r
  cases b with
  | hang => cases handled
  | cAbortHandler =>
    have wrong := branch (fun hang => by cases hang)
    rw [if_pos svc] at wrong
    cases wrong
  | cSwiHandler =>
    obtain ⟨level, below, sameCore⟩ := entered (fun hang => by cases hang)
    obtain ⟨t, left, rfl⟩ := Option.map_eq_some_iff.mp handled
    obtain ⟨sameLevel, sys⟩ := leaving_keeps left
    have level' : t.level = .el2 := sameLevel.trans level
    have index : coreIndex (inFrame frames.cSwiHandler s) = coreIndex cpu := by
      have below : core (inFrame frames.cSwiHandler s) = core s := by
        simp [core, inFrame, show s.level = .el2 from level]
      rw [coreIndex, below, show core s = core cpu from sameCore, coreIndex]
    rw [← top, index, ldstRestoresp, ldstState_sp]
    · simp [level']
    · simp [level']

theorem after_abort {cpu : Cpu} {kernel : Context} {place sp' : Word} (abort : ¬ IsSvc cpu)
    (back : after el2Stack frames link sp (.sync cpu kernel place) = some sp') :
    sp' = sp - frames.cAbortHandler := by
  have entered := @sync_entered link sp cpu
  have branch := @sync_branch link sp cpu
  obtain ⟨u, handled, top⟩ := Option.map_eq_some_iff.mp back
  rw [returns] at handled
  generalize syncronousExceptionEl2 link (taken sp cpu) = r at entered branch handled
  obtain ⟨b, s⟩ := r
  cases b with
  | hang => cases handled
  | cSwiHandler =>
    have wrong := branch (fun hang => by cases hang)
    rw [if_neg abort] at wrong
    cases wrong
  | cAbortHandler =>
    obtain ⟨level, below, _⟩ := entered (fun hang => by cases hang)
    obtain ⟨t, left, rfl⟩ := Option.map_eq_some_iff.mp handled
    obtain ⟨sameLevel, sys⟩ := leaving_keeps left
    have level' : t.level = .el2 := sameLevel.trans level
    rw [← top, ldstState_sp level', sys, inFrame, Cpu.sp, show s.level = .el2 from level,
      show sp = s.sys .spEl2 from below.symm]
    simp

def onward (el2Stack : Fin 4 → Word) (frames : Frames) (link sp : Word) (e : Event) : Word :=
  (after el2Stack frames link sp e).getD sp

/-- From an empty stack, all returns of a run of exceptions leave it empty exactly if none of
    them was an abort. -/
theorem balanced_iff (core : Fin 4) (es : List Event) (same : ∀ e ∈ es, coreIndex e.cpu = core)
    (frame : frames.cAbortHandler ≠ 0)
    (back : Along (onward el2Stack frames link)
      (fun sp e => (after el2Stack frames link sp e).isSome) (el2Stack core) es) :
    Along (onward el2Stack frames link)
        (fun sp e => after el2Stack frames link sp e = some (el2Stack core)) (el2Stack core) es ↔
      ∀ e ∈ es, ¬ e.Aborts := by
  induction es with
  | nil => simp [Along]
  | cons e es ih =>
    have here := same e List.mem_cons_self
    have rest : ∀ e ∈ es, coreIndex e.cpu = core := fun e member => same e (List.mem_cons_of_mem _ member)
    obtain ⟨returned, later⟩ := back
    obtain ⟨sp', at_return⟩ := Option.isSome_iff_exists.mp returned
    have final : sp' = el2Stack core ↔ ¬ e.Aborts := by
      cases e with
      | fiq cpu body =>
        rw [after_fiq] at at_return
        cases at_return
        simp [Event.Aborts]
      | sync cpu kernel place =>
        by_cases svc : IsSvc cpu
        · have empty := after_svc svc at_return
          rw [empty, show coreIndex cpu = core from here]
          simp [Event.Aborts, svc]
        · have leaked := after_abort svc at_return
          have lower : sp' ≠ el2Stack core := by
            intro equal
            apply frame
            bv_omega
          simp [Event.Aborts, svc, lower]
    rw [Along]
    rw [List.forall_mem_cons, at_return, Option.some_inj, final]
    by_cases abort : e.Aborts
    · simp [abort]
    · have step : onward el2Stack frames link (el2Stack core) e = el2Stack core := by
        rw [onward, at_return, final.mpr abort]
        rfl
      rw [step] at later ⊢
      simp only [abort, not_false_eq_true, true_and]
      exact ih rest later

end

def sampleFrames : Frames := ⟨0x160, 0x1A0, 0x30⟩

def sampleStacks : Fin 4 → Word := fun i => 0x50000 + 0x2000 * BitVec.ofNat 64 i

def idleBody : Body := ⟨id, fun _ => rfl, fun _ => rfl⟩

/-- A system call with a handler, a FIQ, and a system call without one, on core 0. -/
def sampleEvents : List Event :=
  [.sync registered counting 0x4FF00, .fiq registered idleBody,
    .sync (interrupted .svc counting) counting 0x4FF00]

theorem balanced_sample :
    Along (onward sampleStacks sampleFrames 0)
        (fun sp e => after sampleStacks sampleFrames 0 sp e = some (sampleStacks 0))
        (sampleStacks 0) sampleEvents ↔
      ∀ e ∈ sampleEvents, ¬ e.Aborts := by
  apply balanced_iff
  · decide
  · decide
  · exact ⟨by decide +kernel, by decide +kernel, by decide +kernel, trivial⟩

/-- A data abort at EL0, with a handler registered at 0x81000. -/
def aborted : Cpu :=
  { interrupted .abort counting with mem := storeWords (fun _ => 0) abortHandlerWord [0x81000] }

/-- It leaves the 416 bytes of the frame of `c_abort_handler` on the stack. -/
theorem abort_leaks :
    after sampleStacks sampleFrames 0 (sampleStacks 0) (.sync aborted counting 0x4FE80) =
        some (sampleStacks 0 - 0x1A0) ∧
      ¬ Along (onward sampleStacks sampleFrames 0)
        (fun sp e => after sampleStacks sampleFrames 0 sp e = some (sampleStacks 0))
        (sampleStacks 0) [.sync aborted counting 0x4FE80] := by
  have leaked : after sampleStacks sampleFrames 0 (sampleStacks 0) (.sync aborted counting 0x4FE80) =
      some (sampleStacks 0 - 0x1A0) := by decide +kernel
  refine ⟨leaked, ?_⟩
  rintro ⟨balanced, _⟩
  rw [leaked] at balanced
  exact absurd balanced (by decide)

end Exceptions
