import MaldOS.Exceptions.Resume
import MaldOS.Library.Runs

/-!
The two processes of the example application. At each interrupt of core 0 its
handler copies the old area to the `state_t` of the process that ran, goes over to
the other one if the timer has expired, and loads it.
-/
namespace Exceptions
open Aarch64 Words ByteMemory Runs

inductive Task where
  | t1
  | t2
  deriving DecidableEq

def Task.other : Task → Task
  | .t1 => .t2
  | .t2 => .t1

def copyWord (dest src : Word) (m : Memory 64) (k : Nat) : Memory 64 :=
  storeWords m (dest + BitVec.ofNat 64 (8 * k)) [word m (src + BitVec.ofNat 64 (8 * k))]

/-- The loop goes up to `i < 30`, which is the frame pointer. -/
def copyState (dest src : Word) (m : Memory 64) : Memory 64 :=
  let m := (List.range 30).foldl (copyWord dest src) m
  let m := copyWord dest src m 29
  let m := copyWord dest src m 30
  let m := copyWord dest src m 31
  let m := copyWord dest src m 32
  let m := copyWord dest src m 33
  storeWord 4 m (dest + 272) (loadWord 4 m (src + 272))

def Narrow (c : Context) : Prop := c.pstate.toNat < 2 ^ 32

section
variable {m : Memory 64} {dest src : Word} {ws : List Word}

theorem copyWord_next (held : Holds m src ws)
    (apart : Apart src (8 * ws.length) dest (8 * ws.length)) (room : 8 * ws.length ≤ 2 ^ 64)
    {k : Nat} (inside : k < ws.length) :
    copyWord dest src (storeWords m dest (ws.take k)) k = storeWords m dest (ws.take (k + 1)) := by
  have short : 8 * (ws.take k).length ≤ 8 * ws.length := by
    rw [List.length_take]
    omega
  have kept : Holds (storeWords m dest (ws.take k)) src ws :=
    holds_clear held apart (Nat.le_refl _) short
  unfold copyWord
  rw [holds_get kept inside]
  exact storeWords_take m inside rfl room

theorem copyWords (held : Holds m src ws)
    (apart : Apart src (8 * ws.length) dest (8 * ws.length)) (room : 8 * ws.length ≤ 2 ^ 64)
    {n : Nat} (inside : n ≤ ws.length) :
    (List.range n).foldl (copyWord dest src) m = storeWords m dest (ws.take n) := by
  induction n with
  | zero => exact (storeWords_nil m dest).symm
  | succ n ih =>
    rw [List.range_succ, List.foldl_append, ih (by omega)]
    exact copyWord_next held apart room inside

theorem copyWord_again (held : Holds m src ws)
    (apart : Apart src (8 * ws.length) dest (8 * ws.length)) (room : 8 * ws.length ≤ 2 ^ 64)
    {k n : Nat} (inside : n ≤ ws.length) (copied : k < n) :
    copyWord dest src (storeWords m dest (ws.take n)) k = storeWords m dest (ws.take n) := by
  have length : (ws.take n).length = n := List.length_take_of_le inside
  have kept : Holds (storeWords m dest (ws.take n)) src ws :=
    holds_clear held apart (Nat.le_refl _) (by omega)
  have there : word (storeWords m dest (ws.take n)) (dest + BitVec.ofNat 64 (8 * k)) = ws[k] := by
    rw [holds_get (holds_stored m dest (by omega)) (by omega), List.getElem_take]
  unfold copyWord
  rw [holds_get kept (by omega)]
  exact storeWords_held ((holds_singleton _ _ _).mpr there)

end

theorem image_length (c : Context) : (image c).length = 35 := rfl

theorem copyState_eq {m : Memory 64} {dest src : Word} {c : Context}
    (held : Holds m src (image c)) (apart : Apart src stateBytes dest stateBytes) :
    copyState dest src m =
      storeWord 4 (storeWords m dest ((image c).take 34)) (dest + 272) (c.pstate.setWidth 32) := by
  have length := image_length c
  have size : stateBytes = 280 := rfl
  have room : 8 * (image c).length ≤ 2 ^ 64 := by omega
  have next : ∀ k, k < 35 → copyWord dest src (storeWords m dest ((image c).take k)) k =
      storeWords m dest ((image c).take (k + 1)) :=
    fun k inside => copyWord_next held apart room inside
  have again : copyWord dest src (storeWords m dest ((image c).take 30)) 29 =
      storeWords m dest ((image c).take 30) :=
    copyWord_again held apart room (by omega) (by omega)
  have kept : Holds (storeWords m dest ((image c).take 34)) src (image c) :=
    holds_clear held apart (by omega) (by rw [List.length_take]; omega)
  have last : word (storeWords m dest ((image c).take 34)) (src + 272) = c.pstate :=
    holds_get kept (by decide : 34 < 35)
  have low : loadWord 4 (storeWords m dest ((image c).take 34)) (src + 272) =
      c.pstate.setWidth 32 := by
    rw [← last]
    unfold word
    exact loadWord_low 4 4 _ _
  unfold copyState
  dsimp only
  rw [copyWords held apart room (by omega), again, next 30 (by decide), next 31 (by decide),
    next 32 (by decide), next 33 (by decide), low]

theorem upper_half {m : Memory 64} {a : Word} {c : Context} (held : Holds m a (image c))
    (narrow : Narrow c) : load m (a + 276) 4 = toBytes 4 0 := by
  have last : word m (a + 272) = c.pstate := holds_get held (by decide : 34 < 35)
  have none : c.pstate.toNat / 256 ^ 4 = 0 := Nat.div_eq_of_lt narrow
  have whole : load m (a + 272) (4 + 4) = toBytes (4 + 4) c.pstate.toNat := by
    rw [← last]
    unfold word
    exact (toBytes_loadWord 8 m (a + 272)).symm
  rw [load_append, toBytes_split, none, BitVec.add_assoc] at whole
  exact (List.append_inj whole (by rw [load_length, toBytes_length])).2

theorem members_apart (a : Word) {i n j k : Nat} (disjoint : i + n ≤ j ∨ j + k ≤ i)
    (first : i + n ≤ stateBytes) (second : j + k ≤ stateBytes) :
    Apart (a + BitVec.ofNat 64 i) n (a + BitVec.ofNat 64 j) k := by
  have size : stateBytes = 280 := rfl
  exact apart_offsets a disjoint (by omega) (by omega)

theorem image_parts {m : Memory 64} {a : Word} {c : Context}
    (rest : Holds m a ((image c).take 34)) (last : word m (a + 272) = c.pstate) :
    Holds m a (image c) := by
  have length := image_length c
  have start : ((image c).take 34).length = 34 := List.length_take_of_le (by omega)
  have split : image c = (image c).take 34 ++ [c.pstate] := rfl
  rw [split, holds_append, start]
  exact ⟨rest, (holds_singleton _ _ _).mpr last⟩

/-- The upper half of the last member stays as it was. -/
theorem copyState_holds {m : Memory 64} {dest src : Word} {c d : Context}
    (held : Holds m src (image c)) (before : Holds m dest (image d))
    (apart : Apart src stateBytes dest stateBytes) (narrow : Narrow c) (narrow' : Narrow d) :
    Holds (copyState dest src m) dest (image c) := by
  have length := image_length c
  have start : ((image c).take 34).length = 34 := List.length_take_of_le (by omega)
  have rows : (encode ((image c).take 34)).length = 272 := by rw [encode_length, start]
  have low : (c.pstate.setWidth 32).toNat = c.pstate.toNat := by
    rw [BitVec.toNat_setWidth, Nat.mod_eq_of_lt narrow]
  have bytes : (toBytes 4 c.pstate.toNat).length = 4 := toBytes_length _ _
  have first : Apart dest 272 (dest + 272) 4 := by
    have offsets := @members_apart dest 0 272 272 4 (by decide) (by decide) (by decide)
    rwa [BitVec.add_zero] at offsets
  have above : Apart (dest + 276) 4 dest 272 := by
    have offsets := @members_apart dest 276 4 0 272 (by decide) (by decide) (by decide)
    rwa [BitVec.add_zero] at offsets
  have beside : Apart (dest + 276) 4 (dest + 272) 4 :=
    @members_apart dest 276 4 272 4 (by decide) (by decide) (by decide)
  rw [copyState_eq held apart]
  unfold storeWord
  rw [low]
  apply image_parts
  · apply holds_of_load _ (holds_stored m dest (by omega))
    rw [start]
    exact load_store_apart _ dest (dest + 272) 272 _ (by rwa [bytes])
  · have lower : load (store (storeWords m dest ((image c).take 34)) (dest + 272)
        (toBytes 4 c.pstate.toNat)) (dest + 272) 4 = toBytes 4 c.pstate.toNat := by
      have back := load_store_same (storeWords m dest ((image c).take 34)) (dest + 272)
        (toBytes 4 c.pstate.toNat) (by omega)
      rwa [bytes] at back
    have upper : load (store (storeWords m dest ((image c).take 34)) (dest + 272)
        (toBytes 4 c.pstate.toNat)) (dest + 276) 4 = toBytes 4 0 := by
      rw [load_store_apart _ _ _ _ _ (by rwa [bytes]), storeWords,
        load_store_apart _ _ _ _ _ (by rwa [rows])]
      exact upper_half before narrow'
    have none : c.pstate.toNat / 256 ^ 4 = 0 := Nat.div_eq_of_lt narrow
    have halves : toBytes (4 + 4) c.pstate.toNat = toBytes 4 c.pstate.toNat ++ toBytes 4 0 := by
      rw [toBytes_split, none]
    have next : dest + 272 + BitVec.ofNat 64 4 = dest + 276 := BitVec.add_assoc _ _ _
    unfold word
    apply loadWord_of_load
    refine (load_append _ (dest + 272) 4 4).trans ?_
    rw [lower, next, upper]
    exact halves.symm

theorem copyState_spares {m : Memory 64} {dest src a : Word} {c : Context} {ws : List Word}
    (held : Holds m src (image c)) (apart : Apart src stateBytes dest stateBytes)
    (row : Holds m a ws) (away : Apart a (8 * ws.length) dest stateBytes) :
    Holds (copyState dest src m) a ws := by
  have length := image_length c
  have size : stateBytes = 280 := rfl
  have start : ((image c).take 34).length = 34 := List.length_take_of_le (by omega)
  have last := away.sub 0 272 (8 * ws.length) 4 (by omega) (by omega)
  rw [BitVec.add_zero] at last
  rw [copyState_eq held apart]
  have inside : 8 * ((image c).take 34).length ≤ stateBytes := by omega
  have kept := holds_clear row away (Nat.le_refl _) inside
  apply holds_of_load _ kept
  unfold storeWord
  exact load_store_apart _ _ _ _ _ (by rwa [toBytes_length])

theorem irqStored_spares {m : Memory 64} {a top core : Word} {c : Context} {ws : List Word}
    (row : Holds m a ws) (stack : Apart a (8 * ws.length) (top - 56) 56)
    (area : Apart a (8 * ws.length) (oldarea 0 core) stateBytes) :
    Holds (irqStored c top core m) a ws := by
  have part : ∀ (j : Nat) (vs : List Word) (b : Word), b = top - 56 + BitVec.ofNat 64 j →
      j + 8 * vs.length ≤ 56 → Apart a (8 * ws.length) b (8 * vs.length) := by
    intro j vs b place inside
    have sub := stack.sub 0 j (8 * ws.length) (8 * vs.length) (by omega) inside
    rwa [BitVec.add_zero, ← place] at sub
  have first := part 40 [c.ttbr0] (top - 16) (by bv_omega) (by simp)
  have second := part 24 [c.x 29, c.x 30] (top - 32) (by bv_omega) (by simp)
  have third := part 8 [c.ttbr0, c.ttbr0] (top - 48) (by bv_omega) (by simp)
  have fourth := part 0 [c.x 26] (top - 56) (by bv_omega) (by simp)
  unfold irqStored
  apply holds_clear _ area (Nat.le_refl _) (by rw [image_length])
  rw [holds_apart fourth, holds_apart third, holds_apart second, holds_apart first]
  exact row

/-- What is left in memory between two interrupts, and `current`. -/
structure Switcher where
  mem : Memory 64
  current : Task

/-- The process that runs is interrupted in `context`, `cpu` has taken the exception; `timer` is
    `interrupt_lines[IL_TIMER]`, `copying` the memory before `copy_state` and `leaving` the
    processor that calls `LDST(current)`. -/
structure Slice where
  context : Context
  cpu : Cpu
  timer : Byte
  copying : Memory 64
  leaving : Cpu

def Slice.chosen (r : Slice) (current : Task) : Task :=
  if r.timer ≠ 0 then current.other else current

def switch (k : Switcher) (r : Slice) : Switcher := ⟨r.leaving.mem, r.chosen k.current⟩

/-- The last context that each process was interrupted in, as far as the entry saves it. -/
def noted (p : Switcher × (Task → Context)) (r : Slice) : Switcher × (Task → Context) :=
  (switch p.1 r, Function.update p.2 p.1.current (reserved 0 r.context))

section
variable (state : Task → Word) (el1Stack : Fin 4 → Word) (link : Word)

structure Disjoint : Prop where
  tasks : Apart (state .t1) stateBytes (state .t2) stateBytes
  area : ∀ q, Apart (state q) stateBytes (oldarea 0 0) stateBytes

/-- A slice of core 0 that goes on in the memory `k` has. The processes leave the two `state_t`
    alone; so do the stacks, the devices and the rest of the handlers, which leave the old area
    alone as well. -/
structure Follows (k : Switcher) (r : Slice) : Prop where
  taken : Taken .irq r.context r.cpu
  core0 : core r.cpu = 0
  narrow : Narrow r.context
  clear : StackClear el1Stack .irq r.cpu
  stack : ∀ q, Apart (state q) stateBytes (irqStack el1Stack r.cpu - 56) 56
  ran : ∀ q, load r.cpu.mem (state q) stateBytes = load k.mem (state q) stateBytes
  entered : ∀ q, load r.copying (state q) stateBytes =
    load (enter el1Stack link .irq r.cpu).mem (state q) stateBytes
  area : load r.copying (oldarea 0 0) stateBytes =
    load (enter el1Stack link .irq r.cpu).mem (oldarea 0 0) stateBytes
  served : ∀ q, load r.leaving.mem (state q) stateBytes =
    load (copyState (state k.current) (oldarea 0 0) r.copying) (state q) stateBytes
  pointer : r.leaving.x 0 = state (r.chosen k.current)
  frame : Apart (state (r.chosen k.current)) stateBytes (r.leaving.sp - 16) 16

/-- The process that is chosen goes on where it was interrupted last, with x2 to x29 as `LDST`
    moves them. -/
def Resumes (p : Switcher × (Task → Context)) (r : Slice) : Prop :=
  let c := (noted p r).2 (r.chosen p.1.current)
  ldst r.leaving = { c with x := shifted c.x }

structure Saved (p : Switcher × (Task → Context)) : Prop where
  held : ∀ q, Holds p.1.mem (state q) (image (p.2 q))
  narrow : ∀ q, Narrow (p.2 q)
  mode : ∀ q, (p.2 q).AtEl0 ∨ (p.2 q).AtEl1h

end

variable {state : Task → Word} {el1Stack : Fin 4 → Word} {link : Word}

theorem tasks_apart (disjoint : Disjoint state) {q other : Task} (differ : q ≠ other) :
    Apart (state q) stateBytes (state other) stateBytes := by
  cases q with
  | t1 =>
    cases other with
    | t1 => exact absurd rfl differ
    | t2 => exact disjoint.tasks
  | t2 =>
    cases other with
    | t1 => exact disjoint.tasks.symm
    | t2 => exact absurd rfl differ

theorem follows_copying {p : Switcher × (Task → Context)} {r : Slice} (disjoint : Disjoint state)
    (saved : Saved state p) (follows : Follows state el1Stack link p.1 r) :
    Holds r.copying (oldarea 0 0) (image (reserved 0 r.context)) ∧
      ∀ q, Holds r.copying (state q) (image (p.2 q)) := by
  obtain ⟨interrupts, mode, level, _, _⟩ := follows.taken
  have clear : Apart (irqStack el1Stack r.cpu - 48) 48 (oldarea 0 (core r.cpu)) stateBytes :=
    follows.clear
  have memory : (enter el1Stack link .irq r.cpu).mem =
      irqStored r.context (irqStack el1Stack r.cpu) 0 r.cpu.mem := by
    have whole := interruptVector_mem el1Stack link level interrupts mode clear
    rwa [follows.core0] at whole
  constructor
  · apply holds_of_load follows.area
    rw [memory]
    exact irqStored_saves _ _ _ _
  · intro q
    apply holds_of_load (follows.entered q)
    rw [memory]
    exact irqStored_spares (holds_of_load (follows.ran q) (saved.held q)) (follows.stack q)
      (disjoint.area q)

theorem noted_own (p : Switcher × (Task → Context)) (r : Slice) :
    (noted p r).2 p.1.current = reserved 0 r.context := Function.update_self _ _ _

theorem noted_other {p : Switcher × (Task → Context)} (r : Slice) {q : Task}
    (ran : q ≠ p.1.current) : (noted p r).2 q = p.2 q := Function.update_of_ne ran _ _

theorem switch_saves {p : Switcher × (Task → Context)} {r : Slice} (disjoint : Disjoint state)
    (saved : Saved state p) (follows : Follows state el1Stack link p.1 r) :
    Saved state (noted p r) := by
  obtain ⟨area, tasks⟩ := follows_copying disjoint saved follows
  have apart := (disjoint.area p.1.current).symm
  have narrow : Narrow (reserved 0 r.context) := follows.narrow
  refine ⟨?_, ?_, ?_⟩
  · intro q
    apply holds_of_load (follows.served q)
    by_cases ran : q = p.1.current
    · rw [ran, noted_own]
      exact copyState_holds area (tasks p.1.current) apart narrow (saved.narrow p.1.current)
    · rw [noted_other r ran]
      exact copyState_spares area apart (tasks q) (tasks_apart disjoint ran)
  · intro q
    by_cases ran : q = p.1.current
    · rw [ran, noted_own]
      exact narrow
    · rw [noted_other r ran]
      exact saved.narrow q
  · intro q
    by_cases ran : q = p.1.current
    · rw [ran, noted_own]
      exact follows.taken.mode
    · rw [noted_other r ran]
      exact saved.mode q

theorem switch_resumes {p : Switcher × (Task → Context)} {r : Slice} (disjoint : Disjoint state)
    (saved : Saved state p) (follows : Follows state el1Stack link p.1 r) : Resumes p r := by
  have after := switch_saves disjoint saved follows
  have held := after.held (r.chosen p.1.current)
  rw [← follows.pointer] at held
  have frame := follows.frame
  rw [← follows.pointer] at frame
  exact ldst_spec held frame (after.mode _)

/-- However the timer and the processes take turns, a process always goes on where it was
    interrupted last itself. -/
theorem processes_resume {p : Switcher × (Task → Context)} (disjoint : Disjoint state)
    (saved : Saved state p) (slices : List Slice)
    (follow : Along noted (fun p r => Follows state el1Stack link p.1 r) p slices) :
    Along noted Resumes p slices := by
  induction slices generalizing p with
  | nil => trivial
  | cons r slices ih =>
    have after := switch_saves disjoint saved follow.1
    exact ⟨switch_resumes disjoint saved follow.1, ih after follow.2⟩

def sampleState : Task → Word
  | .t1 => 0x100000
  | .t2 => 0x101000

def sampleContexts : Task → Context
  | .t1 => counting
  | .t2 => { counting with pc := 0x81000 }

def sampleStart : Switcher × (Task → Context) :=
  (⟨storeWords (storeWords (fun _ => 0) (sampleState .t1) (image (sampleContexts .t1)))
    (sampleState .t2) (image (sampleContexts .t2)), .t2⟩, sampleContexts)

/-- Handlers that touch nothing but what they have to. -/
def sampleSlice (k : Switcher) (c : Context) (timer : Byte) : Slice where
  context := c
  cpu := { interrupted .irq c with mem := k.mem }
  timer := timer
  copying := (enter (fun _ => 0xA0000) 0 .irq { interrupted .irq c with mem := k.mem }).mem
  leaving := ⟨.el1, fun _ => sampleState (if timer ≠ 0 then k.current.other else k.current),
    fun _ => 0xB0000, false, copyState (sampleState k.current) (oldarea 0 0)
      (enter (fun _ => 0xA0000) 0 .irq { interrupted .irq c with mem := k.mem }).mem⟩

theorem sample_apart (q : Task) {j k : Nat} (below : j + k ≤ 0x100000) :
    Apart (sampleState q) stateBytes (BitVec.ofNat 64 j) k := by
  have room : j + k ≤ 2 ^ 64 := by omega
  have away : ∀ i, 0x100000 ≤ i → i + stateBytes ≤ 2 ^ 64 →
      Apart (BitVec.ofNat 64 i) stateBytes (BitVec.ofNat 64 j) k := by
    intro i above inside
    have offsets := apart_offsets 0#64 (i := i) (n := stateBytes) (j := j) (k := k)
      (Or.inr (by omega)) inside room
    rwa [BitVec.zero_add, BitVec.zero_add] at offsets
  cases q with
  | t1 => exact away 0x100000 (by decide) (by decide)
  | t2 => exact away 0x101000 (by decide) (by decide)

theorem sample_disjoint : Disjoint sampleState where
  tasks := apart_offsets (0 : Word) (i := 0x100000) (n := stateBytes) (j := 0x101000)
    (k := stateBytes) (by decide) (by decide) (by decide)
  area q := @sample_apart q 0x70000 stateBytes (by decide)

theorem sample_saved : Saved sampleState sampleStart where
  held q := by
    have room (c : Context) : 8 * (image c).length ≤ 2 ^ 64 := by
      rw [image_length]
      decide
    cases q with
    | t1 =>
      exact holds_clear (holds_stored _ _ (room _)) sample_disjoint.tasks (Nat.le_refl 280)
        (Nat.le_refl 280)
    | t2 => exact holds_stored _ _ (room _)
  narrow q := by
    have none : (sampleStart.2 q).pstate = 0 := by
      cases q with
      | t1 | t2 => rfl
    unfold Narrow
    rw [none]
    decide
  mode q := by
    cases q with
    | t1 | t2 => exact Or.inl rfl

theorem sample_follows (k : Switcher) {c : Context} (user : c.AtEl0) (narrow : Narrow c)
    (timer : Byte) :
    Follows sampleState (fun _ => 0xA0000) 0 k (sampleSlice k c timer) := by
  have stack : irqStack (fun _ => 0xA0000) (sampleSlice k c timer).cpu = 0xA0000 := by
    have saved : c.pstate &&& 0xF = 0 := user
    unfold irqStack
    exact if_pos saved
  have sp : (sampleSlice k c timer).cpu.sys (modeSp c.pstate) = c.sp := by
    rw [modeSp_user user]
    rfl
  have zero : core (sampleSlice k c timer).cpu = 0 := by
    have number : (sampleSlice k c timer).cpu.sys .mpidrEl1 = 0 := rfl
    unfold core
    rw [number]
    decide
  constructor
  · exact ⟨⟨rfl, sp, rfl, rfl, rfl⟩, Or.inl user, rfl, fun other => absurd rfl other,
      fun other => absurd rfl other⟩
  · exact zero
  · exact narrow
  · unfold StackClear
    rw [if_pos rfl, stack, zero]
    exact apart_offsets (0 : Word) (i := 0x9FFD0) (n := 48) (j := 0x70000) (k := stateBytes)
      (by decide) (by decide) (by decide)
  · intro q
    rw [stack]
    exact @sample_apart q 0x9FFC8 56 (by decide)
  · exact fun q => rfl
  · exact fun q => rfl
  · rfl
  · exact fun q => rfl
  · rfl
  · have top : (sampleSlice k c timer).leaving.sp = 0xB0000 := rfl
    rw [top]
    exact @sample_apart _ 0xAFFF0 16 (by decide)

/-- The timer expires while t2 runs, and t1 goes on. -/
def sampleFirst : Slice := sampleSlice sampleStart.1 { counting with pc := 0x81004 } 1

/-- The timer expires again, and t2 goes on where it was. -/
def sampleSecond : Slice :=
  sampleSlice (switch sampleStart.1 sampleFirst) { counting with pc := 0x80008 } 1

theorem processes_resume_sample :
    Along noted Resumes sampleStart [sampleFirst, sampleSecond] ∧
      (ldst sampleFirst.leaving).pc = 0x80000 ∧ (ldst sampleSecond.leaving).pc = 0x81004 := by
  have mode : counting.pstate &&& 0xF = 0 := by decide
  have user : ∀ pc, Context.AtEl0 { counting with pc := pc } := fun _ => mode
  have narrow : ∀ pc, Narrow { counting with pc := pc } := fun _ => Nat.two_pow_pos 32
  have along := @processes_resume sampleState (fun _ => 0xA0000) 0 sampleStart sample_disjoint
    sample_saved [sampleFirst, sampleSecond]
    ⟨sample_follows _ (user _) (narrow _) 1, sample_follows _ (user _) (narrow _) 1, trivial⟩
  obtain ⟨first, second, _⟩ := along
  exact ⟨⟨first, second, trivial⟩, congrArg Context.pc first, congrArg Context.pc second⟩

end Exceptions
