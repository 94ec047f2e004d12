import MaldOS.Emulated.InFlight
import MaldOS.Exceptions.Frames
import MaldOS.Exceptions.Resume

/-!
The choice that the C handlers of `interrupts.c` make: the kernel's handler, on
which stack, or the old area of the interrupted context.
-/
namespace Exceptions
open Aarch64 Words ByteMemory

/-! `bios_const.h`: the words in which the kernel registers its handlers and its stacks -/

abbrev interruptHandler : Word := 0x72000
abbrev synchronousHandler : Word := 0x72200
abbrev abortHandlerWord : Word := 0x72400
abbrev kernelCore0Sp : Word := 0x72C00

def upperHalf : Word := 0xFFFF000000000000

def ismmuactive (s : Cpu) : Word := s.sys .sctlrEl1 &&& 1

def getsavedel (s : Cpu) : Word := s.sys .spsrEl1 &&& 7

def getsp (s : Cpu) : Word := s.sp

def getttbr0 (s : Cpu) : Word := s.sys .ttbr0El1

def handlerPresent (s : Cpu) (address : Word) : Word :=
  if ismmuactive s ≠ 0 then word s.mem address ||| upperHalf else word s.mem address

/-- `*(KERNEL_CORE0_SP + 0x8 * core_id)` -/
def kernelSp (s : Cpu) : Word := word s.mem (kernelCore0Sp + 8 * core s)

/-- The fields that the handlers set in their local `kernel`, which is otherwise as they found
    it; `status_register` is the lower half of its word. -/
def fillKernel (s : Cpu) (kernel : Context) (stackPointer handler : Word) : Context where
  x := kernel.x
  sp := stackPointer
  pc := handler
  ttbr0 := getttbr0 s
  pstate := BitVec.ofNat 64 (kernel.pstate.toNat / 2 ^ 32 * 2 ^ 32 + 0x385)

/-- What a C handler ends with: the `LDST` of its local `kernel` or of an old area, or a loop. -/
inductive Exit where
  | kernel (k : Context)
  | oldarea (area : Word)
  | halt

/-- `s` is the state inside the frame of the function. -/
def cSwiHandler (s : Cpu) (kernel : Context) : Exit :=
  let handler := handlerPresent s synchronousHandler
  if handler ≠ 0 then
    let stackPointer := if getsavedel s = 0 then kernelSp s else getsp s
    .kernel (fillKernel s kernel stackPointer handler)
  else .oldarea (oldarea synchronousOffset (core s))

def cAbortHandler (s : Cpu) (kernel : Context) : Exit :=
  let handler := handlerPresent s abortHandlerWord
  if handler ≠ 0 then
    let stackPointer := if getsavedel s = 0 then kernelSp s else getsp s
    .kernel (fillKernel s kernel stackPointer handler)
  else .halt

/-- The `CoreN_IRQ_Source` registers are `sources`. -/
def pendingRealInterrupt (sources : Fin 4 → BitVec 32) (core : Fin 4) : Bool :=
  sources core &&& 0xFFFD ≠ 0

def coreIndex (s : Cpu) : Fin 4 := Fin.ofNat 4 (core s).toNat

structure Sources where
  devices : Emulated.System
  /-- `Core0_IRQ_Source` at the first look -/
  source : BitVec 32
  /-- `CoreN_IRQ_Source` at the second -/
  later : Fin 4 → BitVec 32

def pendingInterrupt (s : Cpu) (i : Sources) : Bool :=
  Emulated.pendingEmulatedInterrupt (Emulated.cIrqHandler i.devices (coreIndex s) i.source) ||
    pendingRealInterrupt i.later (coreIndex s)

/-- The end of `c_irq_handler`; `Emulated.cIrqHandler` is what comes before. -/
def cIrqHandler (s : Cpu) (i : Sources) (kernel : Context) : Exit :=
  let handler := handlerPresent s interruptHandler
  if handler ≠ 0 ∧ pendingInterrupt s i then .kernel (fillKernel s kernel (kernelSp s) handler)
  else .oldarea (oldarea 0 (core s))

def handle (path : Path) (s : Cpu) (i : Sources) (kernel : Context) : Exit :=
  match path with
  | .irq => cIrqHandler s i kernel
  | .svc => cSwiHandler s kernel
  | .abort => cAbortHandler s kernel

def Path.handler : Path → Word
  | .irq => interruptHandler
  | .svc => synchronousHandler
  | .abort => abortHandlerWord

/-- By way of `LDST`, execution goes on at `pc` with the stack pointer `sp`. -/
def Exit.Enters (e : Exit) (pc sp : Word) : Prop :=
  ∃ k, e = .kernel k ∧ ∀ t : Cpu, Holds t.mem (t.x 0) (image k) →
    Apart (t.x 0) stateBytes (t.sp - 16) 16 → (ldst t).pc = pc ∧ (ldst t).sp = sp

theorem fillKernel_mode (s : Cpu) (kernel : Context) (stackPointer handler : Word) :
    (fillKernel s kernel stackPointer handler).AtEl1h := by
  have mask (n : Nat) : n &&& 15 = n % 16 := Nat.and_two_pow_sub_one_eq_mod n 4
  have bound := kernel.pstate.isLt
  apply BitVec.eq_of_toNat_eq
  rw [BitVec.toNat_and, show (0xF : Word).toNat = 15 from rfl, mask, fillKernel, BitVec.toNat_ofNat,
    show (5 : Word).toNat = 5 from rfl]
  omega

theorem exists_loading (k : Context) :
    ∃ t : Cpu, Holds t.mem (t.x 0) (image k) ∧ Apart (t.x 0) stateBytes (t.sp - 16) 16 := by
  refine ⟨⟨.el2, fun _ => 0, fun _ => 0xFF0 + 16, false, storeWords (fun _ => 0) 0 (image k)⟩,
    ?_, ?_⟩
  · exact holds_stored _ _ (by rw [show (image k).length = 35 from rfl]; decide)
  · rw [Cpu.sp, BitVec.add_sub_cancel]
    exact apart_offsets (0 : Word) (i := 0) (j := 0xFF0) (by decide) (by decide) (by decide)

theorem enters_iff {k : Context} (mode : k.AtEl1h) (pc sp : Word) :
    (Exit.kernel k).Enters pc sp ↔ k.pc = pc ∧ k.sp = sp := by
  constructor
  · rintro ⟨k', same, enters⟩
    cases same
    obtain ⟨t, held, apart⟩ := exists_loading k
    have resumed := enters t held apart
    rw [ldst_spec held apart (Or.inr mode)] at resumed
    exact resumed
  · rintro ⟨rfl, rfl⟩
    refine ⟨k, rfl, fun t held apart => ?_⟩
    rw [ldst_spec held apart (Or.inr mode)]
    exact ⟨rfl, rfl⟩

/-- What a handler word asks for: without a handler the old area is resumed, or the machine
    halts; with one, control goes there, on the right stack. -/
def Honours (path : Path) (c : Context) (s : Cpu) (i : Sources) (e : Exit) : Prop :=
  (word s.mem path.handler = 0 →
    e = if path = .abort then .halt else .oldarea (oldarea path.offset (core s))) ∧
  (word s.mem path.handler ≠ 0 → (path = .irq → pendingInterrupt s i) →
    ∃ sp, e.Enters (if ismmuactive s ≠ 0 then word s.mem path.handler ||| upperHalf
        else word s.mem path.handler) sp ∧
      (path ≠ .irq → (c.AtEl1h → sp = c.sp) ∧ (c.AtEl0 → sp = kernelSp s)))

/-- The MMU is off where there is no handler, and the stack pointer of EL2 is that of EL1 where
    the handler is called from EL1. -/
def Dispatchable (path : Path) (c : Context) (s : Cpu) (i : Sources) : Prop :=
  (word s.mem path.handler = 0 → ismmuactive s = 0 ∨ path = .irq ∧ ¬ pendingInterrupt s i) ∧
    (word s.mem path.handler ≠ 0 → path ≠ .irq → c.AtEl1h → getsp s = c.sp)

theorem handlerPresent_zero (s : Cpu) (a : Word) :
    handlerPresent s a = 0 ↔ word s.mem a = 0 ∧ ismmuactive s = 0 := by
  unfold handlerPresent
  by_cases active : ismmuactive s ≠ 0
  · rw [if_pos active]
    constructor
    · intro none
      have both := BitVec.or_eq_zero_iff.mp none
      exact absurd both.2 (by decide)
    · rintro ⟨_, off⟩
      exact absurd off active
  · rw [if_neg active]
    exact ⟨fun none => ⟨none, not_not.mp active⟩, fun both => both.1⟩

theorem exit_ne_kernel {path : Path} {area : Word} {k : Context} :
    Exit.kernel k ≠ if path = .abort then .halt else .oldarea area := by
  split_ifs
  · intro wrong
    cases wrong
  · intro wrong
    cases wrong

theorem sync_honours_iff {path : Path} {c : Context} {s : Cpu} {i : Sources} {e : Exit}
    {kernel : Context} (sync : path ≠ .irq) (saved : s.sys .spsrEl1 = c.pstate)
    (mode : c.AtEl0 ∨ c.AtEl1h)
    (enters : handlerPresent s path.handler ≠ 0 → e = .kernel (fillKernel s kernel
      (if getsavedel s = 0 then kernelSp s else getsp s) (handlerPresent s path.handler)))
    (rests : handlerPresent s path.handler = 0 →
      e = if path = .abort then .halt else .oldarea (oldarea path.offset (core s))) :
    Honours path c s i e ↔ Dispatchable path c s i := by
  unfold Honours Dispatchable
  by_cases absent : word s.mem path.handler = 0
  · simp only [absent, sync, ne_eq, not_true_eq_false, false_implies, true_implies, and_true,
      false_and, or_false]
    by_cases off : ismmuactive s = 0
    · simp only [off, iff_true]
      exact rests ((handlerPresent_zero _ _).mpr ⟨absent, off⟩)
    · simp only [off, iff_false]
      rw [enters (fun none => off ((handlerPresent_zero _ _).mp none).2)]
      exact exit_ne_kernel
  · have present : handlerPresent s path.handler ≠ 0 :=
      fun none => absent ((handlerPresent_zero _ _).mp none).1
    simp only [absent, sync, ne_eq, not_false_eq_true, false_implies, true_implies, true_and]
    rw [enters present]
    simp only [enters_iff (fillKernel_mode _ _ _ _)]
    have level : getsavedel s = c.pstate &&& 7 := by rw [getsavedel, saved]
    rcases mode with user | kernelMode
    · have other : ¬ c.AtEl1h := fun kernelMode => user_not_kernel user kernelMode
      have zero : getsavedel s = 0 := level.trans (user_masks user).1
      rw [if_pos zero]
      simp only [other, false_implies, iff_true, true_and]
      exact ⟨kernelSp s, ⟨rfl, rfl⟩, fun _ => rfl⟩
    · have other : ¬ c.AtEl0 := fun user => user_not_kernel user kernelMode
      have nonzero : getsavedel s ≠ 0 := by
        rw [level, show c.pstate &&& 7 = 5 from (kernel_masks kernelMode).1]
        decide
      rw [if_neg nonzero]
      simp only [kernelMode, other, false_implies, true_implies, and_true]
      constructor
      · rintro ⟨sp, ⟨_, same⟩, own⟩
        exact same.trans own
      · intro same
        exact ⟨getsp s, ⟨rfl, rfl⟩, same⟩

theorem irq_honours_iff {c : Context} {s : Cpu} {i : Sources} {kernel : Context} :
    Honours .irq c s i (cIrqHandler s i kernel) ↔ Dispatchable .irq c s i := by
  have zero := handlerPresent_zero s interruptHandler
  have chosen (taken : handlerPresent s interruptHandler ≠ 0 ∧ pendingInterrupt s i) :
      cIrqHandler s i kernel = .kernel (fillKernel s kernel (kernelSp s)
        (handlerPresent s interruptHandler)) := if_pos taken
  have rests (none : ¬ (handlerPresent s interruptHandler ≠ 0 ∧ pendingInterrupt s i)) :
      cIrqHandler s i kernel = .oldarea (oldarea 0 (core s)) := if_neg none
  by_cases absent : word s.mem interruptHandler = 0
  · constructor
    · intro honours
      refine ⟨fun _ => ?_, fun present => absurd absent present⟩
      by_contra wrong
      simp only [true_and, not_or, not_not] at wrong
      have present : handlerPresent s interruptHandler ≠ 0 := fun none => wrong.1 (zero.mp none).2
      have resumed := honours.1 absent
      rw [chosen ⟨present, wrong.2⟩] at resumed
      exact exit_ne_kernel resumed
    · intro quiet
      have idle := quiet.1 absent
      refine ⟨fun _ => ?_, fun present => absurd absent present⟩
      apply rests
      rintro ⟨present, pending⟩
      rcases idle with off | ⟨_, none⟩
      · exact present (zero.mpr ⟨absent, off⟩)
      · exact none pending
  · have present : handlerPresent s interruptHandler ≠ 0 := fun none => absent (zero.mp none).1
    constructor
    · intro _
      exact ⟨fun none => absurd none absent, fun _ sync => absurd rfl sync⟩
    · intro _
      refine ⟨fun none => absurd none absent, fun _ pending => ?_⟩
      rw [chosen ⟨present, pending rfl⟩]
      refine ⟨kernelSp s, ?_, fun sync => absurd rfl sync⟩
      exact (enters_iff (fillKernel_mode _ _ _ _) _ _).mpr ⟨rfl, rfl⟩

theorem handle_honours_iff {path : Path} {c : Context} {s : Cpu} (i : Sources) (kernel : Context)
    (saved : path ≠ .irq → s.sys .spsrEl1 = c.pstate) (mode : c.AtEl0 ∨ c.AtEl1h) :
    Honours path c s i (handle path s i kernel) ↔ Dispatchable path c s i := by
  cases path with
  | irq => exact irq_honours_iff
  | svc =>
    apply sync_honours_iff (by decide) (saved (by decide)) mode
    · intro present
      exact if_pos present
    · intro none
      exact if_neg (not_not.mpr none)
  | abort =>
    apply sync_honours_iff (by decide) (saved (by decide)) mode
    · intro present
      exact if_pos present
    · intro none
      exact if_neg (not_not.mpr none)

theorem sync_saved {path : Path} {c : Context} {s : Cpu} (el1Stack : Fin 4 → Word) (link : Word)
    (frame : Word) (taken : Taken path c s) (sync : path ≠ .irq) :
    (inFrame frame (enter el1Stack link path s)).sys .spsrEl1 = c.pstate := by
  obtain ⟨interrupts, mode, level, hypervisor, _⟩ := taken
  rw [if_neg sync] at level
  have called : (syncronousExceptionEl2 link s).1 ≠ .hang := by
    rw [syncronousExceptionEl2_branch link level (hypervisor sync)]
    split_ifs <;> decide
  have moved := syncronousExceptionEl2_moved link called
  have level' := moved.level.trans level
  unfold enter inFrame
  rw [if_neg sync, Cpu.setSys, level']
  dsimp only
  rw [Function.update_of_ne (by decide), moved.sys _ (by rw [level]; decide) (by simp)]
  exact interrupts.pstate

/-- The handlers do what the handler words ask for exactly if the MMU is off where there is no
    handler, and if no handler is called from EL1 off the stack of EL2. -/
theorem dispatch_iff {path : Path} {c : Context} {s : Cpu} (el1Stack : Fin 4 → Word) (link : Word)
    (frame : Word) (i : Sources) (kernel : Context) (taken : Taken path c s) :
    Honours path c (inFrame frame (enter el1Stack link path s)) i
        (handle path (inFrame frame (enter el1Stack link path s)) i kernel) ↔
      Dispatchable path c (inFrame frame (enter el1Stack link path s)) i :=
  handle_honours_iff i kernel (sync_saved el1Stack link frame taken) taken.mode

def quietSources : Sources := ⟨Emulated.bareSystem, 0, fun _ => 0⟩

/-- The state in `c_swi_handler` with a frame of 512 bytes, after a system call. -/
def swiFrame (s : Cpu) : Cpu := inFrame 0x200 (enter (fun _ => 0xA0000) 0 .svc s)

theorem dispatch_counting :
    Honours .svc counting (swiFrame (interrupted .svc counting)) quietSources
        (handle .svc (swiFrame (interrupted .svc counting)) quietSources counting) ↔
      Dispatchable .svc counting (swiFrame (interrupted .svc counting)) quietSources :=
  dispatch_iff (fun _ => 0xA0000) 0 0x200 quietSources counting counting_taken

def translated : Cpu := (interrupted .svc counting).setSys .sctlrEl1 1

def kernelCounting : Context := { counting with sp := 0xA0000, pstate := 5 }

/-- Its system call, with a handler registered at 0x81000. -/
def registered : Cpu :=
  { interrupted .svc kernelCounting with
    mem := storeWords (fun _ => 0) synchronousHandler [0x81000] }

theorem translated_taken : Taken .svc counting translated where
  interrupts := ⟨rfl, rfl, rfl, rfl, rfl⟩
  mode := Or.inl rfl
  level := rfl
  hypervisor _ := by decide
  kind _ := by decide

theorem registered_taken : Taken .svc kernelCounting registered where
  interrupts := ⟨rfl, rfl, rfl, rfl, rfl⟩
  mode := Or.inr rfl
  level := rfl
  hypervisor _ := by decide
  kind _ := by decide

/-- With the MMU on, a missing handler is called all the same; and a handler called from EL1 is
    given the stack of EL2. -/
theorem handlers_misdirected :
    Taken .svc counting translated ∧
      word (swiFrame translated).mem synchronousHandler = 0 ∧
      ¬ Honours .svc counting (swiFrame translated) quietSources
        (handle .svc (swiFrame translated) quietSources counting) ∧
      Taken .svc kernelCounting registered ∧
      ¬ Honours .svc kernelCounting (swiFrame registered) quietSources
        (handle .svc (swiFrame registered) quietSources counting) := by
  have none : word (swiFrame translated).mem synchronousHandler = 0 := by decide +kernel
  have some : word (swiFrame registered).mem synchronousHandler ≠ 0 := by decide +kernel
  refine ⟨translated_taken, none, ?_, registered_taken, ?_⟩
  · intro honours
    have good := (handle_honours_iff quietSources counting
      (sync_saved _ _ _ translated_taken) translated_taken.mode).mp honours
    rcases good.1 none with off | ⟨isIrq, _⟩
    · exact absurd off (by decide +kernel)
    · cases isIrq
  · intro honours
    have good := (handle_honours_iff quietSources counting
      (sync_saved _ _ _ registered_taken) registered_taken.mode).mp honours
    exact absurd (good.2 some (by decide) rfl) (by decide +kernel)

end Exceptions
