import MaldOS.Arch
import MaldOS.Library.Multicore

/-!
`WAIT` of `asmlib.S` and the `wait_lock` that `c_irq_handler` sets to end it, on
four cores that take turns at single instructions. The assembly code takes the
array for one of elements that are sixteen bytes apart and eight wide; in C they
are two bytes wide and next to each other.
-/
namespace WaitLock
open ByteMemory Words Aarch64 Multicore Runs

/-- From `dsb` up to the loop; `lock` is the address of `wait_lock`. -/
def waitAsm (lock : Word) : List Instr := [
  .movImm 0 lock,
  .mrs 1 .mpidrEl1,
  .and 1 1 3,
  .movImm 2 16,
  .madd 0 1 2 0,
  .movImm 1 0,
  .str 1 (.offset (.x 0) 0)]

/-- The test after `wfi`; `b.ne` follows. -/
def waitloop : List Instr := [.ldr 1 (.offset (.x 0) 0), .cmp 1 1]

/-- `pc` counts the instructions of `WAIT`, for a core that is in it. -/
structure State where
  machine : Machine 4
  pc : Fin 4 → Option Nat
  /-- The cores that dispatched an interrupt since a core passed the store of `WAIT`. -/
  since : Fin 4 → Fin 4 → Bool

/-- A core calls `WAIT`, goes on by an instruction in it, or has `c_irq_handler` dispatch an
    interrupt. -/
inductive Act where
  | wait (core : Fin 4)
  | run (core : Fin 4)
  | dispatch (core : Fin 4)

/-- `&wait_lock[core]` -/
def element (lock : Word) (core : Fin 4) : Word := lock + BitVec.ofNat 64 (2 * core.val)

def step (lock : Word) (s : State) : Act → State
  | .wait c => { s with pc := Function.update s.pc c (some 0) }
  | .run c =>
    match s.pc c with
    | none => s
    | some n =>
      match (waitAsm lock ++ waitloop)[n]? with
      | some i =>
        { machine := s.machine.exec c i
          pc := Function.update s.pc c (some (n + 1))
          since := if n = 6 then Function.update s.since c fun _ => false else s.since }
      | none =>
        -- `b.ne waitloop`
        let next := if (s.machine.core c).zero then none else some 7
        { s with pc := Function.update s.pc c next }
  | .dispatch c => { s with
      machine := { s.machine with mem := storeWord 2 s.machine.mem (element lock c) 1 }
      since := fun d => Function.update (s.since d) c true }

def Storing (s : State) : Act → Prop
  | .run c => s.pc c = some 6
  | _ => False

def Testing (s : State) (c : Fin 4) : Act → Prop
  | .run d => d = c ∧ s.pc c = some 7
  | _ => False

/-- `WAIT` stores to nothing but the core's element. -/
def WritesOwn (lock : Word) (s : State) : Act → Prop
  | .run c => ∀ n i, s.pc c = some n → (waitAsm lock ++ waitloop)[n]? = some i →
      ∀ x, Stores (s.machine.cpu c) x i → (x - element lock c).toNat < 2
  | _ => True

/-- A test succeeds if the core dispatched an interrupt since it began to wait. -/
def Released (s : State) (a : Act) : Prop :=
  ∀ c, Testing s c a → s.since c c = true → ((s.machine.cpu c).run waitloop).zero = true

/-- The core is the first one, and no other dispatched an interrupt since it began to wait. -/
def Alone (s : State) (a : Act) : Prop :=
  ∀ c, Testing s c a → s.since c c = true → c = 0 ∧ ∀ d ≠ 0, s.since c d = false

instance (s : State) (c : Fin 4) : (a : Act) → Decidable (Testing s c a)
  | .run d => inferInstanceAs (Decidable (d = c ∧ s.pc c = some 7))
  | .wait _ | .dispatch _ => inferInstanceAs (Decidable False)

instance (s : State) : (a : Act) → Decidable (Storing s a)
  | .run c => inferInstanceAs (Decidable (s.pc c = some 6))
  | .wait _ | .dispatch _ => inferInstanceAs (Decidable False)

instance (s : State) (a : Act) : Decidable (Alone s a) :=
  inferInstanceAs (Decidable (∀ c, Testing s c a → s.since c c = true →
    c = 0 ∧ ∀ d ≠ 0, s.since c d = false))

def Fresh (s : State) : Prop :=
  ∀ c, s.pc c = none ∧ (s.machine.core c).sys .mpidrEl1 &&& 3#64 = BitVec.ofNat 64 c.val

def slot (lock : Word) (c : Fin 4) : Word := lock + BitVec.ofNat 64 (16 * c.val)

/-- What the bytes of that word are once the cores of `since` have dispatched. -/
def Shape (lock : Word) (m : Memory 64) (c : Fin 4) (since : Fin 4 → Bool) : Prop :=
  ∀ i < 8, m (slot lock c + BitVec.ofNat 64 i) =
    if c = 0 ∧ i % 2 = 0 ∧ since (Fin.ofNat 4 (i / 2)) = true then 1 else 0

/-- What a core has in its registers after `n` instructions of `WAIT`. -/
structure Passed (lock : Word) (s : Cpu) (c : Fin 4) (n : Nat) : Prop where
  base : 1 ≤ n → n ≤ 4 → s.x 0 = lock
  raw : n = 2 → s.x 1 &&& 3#64 = BitVec.ofNat 64 c.val
  number : 3 ≤ n → n ≤ 4 → s.x 1 = BitVec.ofNat 64 c.val
  stride : n = 4 → s.x 2 = 16
  slot : 5 ≤ n → s.x 0 = slot lock c
  zero : n = 6 → s.x 1 = 0

structure Waits (lock : Word) (s : State) : Prop where
  number : ∀ c, (s.machine.core c).sys .mpidrEl1 &&& 3#64 = BitVec.ofNat 64 c.val
  registers : ∀ c n, s.pc c = some n → Passed lock (s.machine.core c) c n
  shape : ∀ c n, s.pc c = some n → 7 ≤ n → Shape lock s.machine.mem c (s.since c)

theorem slot_madd (lock : Word) (c : Fin 4) : BitVec.ofNat 64 c.val * 16#64 + lock = slot lock c := by
  have product : ∀ c : Fin 4, BitVec.ofNat 64 c.val * 16#64 = BitVec.ofNat 64 (16 * c.val) := by decide
  rw [product, BitVec.add_comm]
  rfl

theorem code_cases {lock : Word} {n : Nat} {i : Instr}
    (code : (waitAsm lock ++ waitloop)[n]? = some i) : n < 9 := by
  have inside := (List.getElem?_eq_some_iff.mp code).1
  exact inside

theorem passed_exec {lock : Word} {s : Cpu} {c : Fin 4} {n : Nat} {i : Instr}
    (number : s.sys .mpidrEl1 &&& 3#64 = BitVec.ofNat 64 c.val) (passed : Passed lock s c n)
    (code : (waitAsm lock ++ waitloop)[n]? = some i) : Passed lock (s.exec i) c (n + 1) := by
  have inside := code_cases code
  rcases n with _ | _ | _ | _ | _ | _ | _ | _ | _ | n
  · cases code
    constructor <;> simp
  · cases code
    constructor <;> simp [number, passed.base]
  · cases code
    constructor <;> simp [passed.base, passed.raw]
  · cases code
    constructor <;> simp [passed.base, passed.number]
  · cases code
    constructor <;> simp [passed.base, passed.number, passed.stride, slot_madd]
  · cases code
    constructor <;> simp [passed.slot]
  · cases code
    constructor <;> simp [passed.slot]
  · cases code
    constructor <;> simp [passed.slot]
  · cases code
    constructor <;> simp [passed.slot]
  · omega

theorem code_stores {lock : Word} {s : Cpu} {x : Word} {n : Nat} {i : Instr}
    (code : (waitAsm lock ++ waitloop)[n]? = some i) (stores : Stores s x i) :
    n = 6 ∧ i = .str 1 (.offset (.x 0) 0) := by
  have inside := code_cases code
  rcases n with _ | _ | _ | _ | _ | _ | _ | _ | _ | n
  all_goals first
    | omega
    | cases code
      first
        | exact absurd stores id
        | exact ⟨rfl, rfl⟩

theorem slots_apart (lock : Word) {c d : Fin 4} (other : d ≠ c) :
    Apart (slot lock d) 8 (slot lock c) 8 := by
  have distinct : d.val ≠ c.val := fun same => other (Fin.ext same)
  exact apart_offsets lock (by omega) (by omega) (by omega)

theorem element_apart (lock : Word) {c : Fin 4} (later : c ≠ 0) (d : Fin 4) :
    Apart (slot lock c) 8 (element lock d) 2 := by
  have first : c.val ≠ 0 := fun same => later (Fin.ext same)
  exact apart_offsets lock (by omega) (by omega) (by omega)

theorem stored_shape {lock : Word} {s : State} {c : Fin 4}
    (passed : Passed lock (s.machine.core c) c 6) :
    Shape lock (s.machine.exec c (.str 1 (.offset (.x 0) 0))).mem c fun _ => false := by
  intro i inside
  have base : (s.machine.core c).x 0 = slot lock c := passed.slot (by decide)
  have zero : (s.machine.core c).x 1 = 0 := passed.zero rfl
  have memory : (s.machine.exec c (.str 1 (.offset (.x 0) 0))).mem =
      store s.machine.mem (slot lock c) (List.replicate 8 0) := by
    simp [Machine.exec, Machine.cpu, base, zero, storeWords]
    rfl
  rw [memory, store_inside _ _ _ i (by simpa using inside) (by simp), List.getElem_replicate]
  simp

theorem element_offset (lock : Word) (d : Fin 4) {i : Nat} (inside : i < 8) :
    (slot lock 0 + BitVec.ofNat 64 i - element lock d).toNat =
      if 2 * d.val ≤ i then i - 2 * d.val else 2 ^ 64 + i - 2 * d.val := by
  have small := d.isLt
  have shift : slot lock 0 + BitVec.ofNat 64 i - element lock d =
      BitVec.ofNat 64 i - BitVec.ofNat 64 (2 * d.val) := by
    unfold slot element
    rw [← BitVec.sub_sub, BitVec.add_assoc, BitVec.add_comm lock, BitVec.add_sub_cancel]
    simp
  rw [shift, BitVec.toNat_sub, BitVec.toNat_ofNat, BitVec.toNat_ofNat]
  split <;> omega

theorem dispatched_shape {lock : Word} {m : Memory 64} {c : Fin 4} {since : Fin 4 → Bool}
    (shape : Shape lock m c since) (d : Fin 4) :
    Shape lock (storeWord 2 m (element lock d) 1) c (Function.update since d true) := by
  intro i inside
  have here := shape i inside
  have stored : storeWord 2 m (element lock d) 1 = store m (element lock d) [1, 0] := rfl
  rw [stored]
  by_cases first : c = 0
  · subst first
    have small := d.isLt
    have offset := element_offset lock d inside
    have half : Fin.ofNat 4 (i / 2) = d ↔ i / 2 = d.val := by
      rw [Fin.ext_iff, Fin.val_ofNat, Nat.mod_eq_of_lt (by omega)]
    unfold store
    by_cases low : i = 2 * d.val
    · have own : Fin.ofNat 4 (i / 2) = d := half.mpr (by omega)
      rw [offset, if_pos (by omega), own]
      simp [low]
    · by_cases high : i = 2 * d.val + 1
      · rw [offset, if_pos (by omega)]
        simp [high]
      · have other : Fin.ofNat 4 (i / 2) ≠ d := by
          intro own
          have := half.mp own
          omega
        have outside : [(1 : Byte), 0].length ≤
            (slot lock 0 + BitVec.ofNat 64 i - element lock d).toNat := by
          rw [offset, List.length_cons, List.length_singleton]
          split <;> omega
        rw [List.getD_eq_default _ _ outside, Function.update_of_ne other]
        exact here
  · rw [store_outside _ _ [1, 0] _ (element_apart lock first d i inside), here]
    simp [first]

theorem exec_number {s : Cpu} {lock : Word} {n : Nat} {i : Instr}
    (code : (waitAsm lock ++ waitloop)[n]? = some i) : (s.exec i).sys = s.sys := by
  have inside := code_cases code
  rcases n with _ | _ | _ | _ | _ | _ | _ | _ | _ | n
  all_goals first
    | omega
    | cases code
      rfl

theorem exec_shape {lock : Word} {s : State} {c d : Fin 4} {n : Nat} {i : Instr}
    {since : Fin 4 → Bool} (passed : Passed lock (s.machine.core c) c n)
    (code : (waitAsm lock ++ waitloop)[n]? = some i)
    (shape : Shape lock s.machine.mem d since) (apart : n = 6 → d ≠ c) :
    Shape lock (s.machine.exec c i).mem d since := by
  intro j inside
  have spared : ¬ Stores (s.machine.cpu c) (slot lock d + BitVec.ofNat 64 j) i := by
    intro stores
    obtain ⟨store, rfl⟩ := code_stores code stores
    have base : (s.machine.core c).x 0 = slot lock c := passed.slot (by omega)
    have far := slots_apart lock (apart store) j inside
    have near : (slot lock d + BitVec.ofNat 64 j - slot lock c).toNat < 8 := by
      simpa [Stores, Machine.cpu, base] using stores
    omega
  exact (exec_elsewhere spared).trans (shape j inside)

theorem passed_cpu {lock : Word} {m : Machine 4} {c : Fin 4} {n : Nat}
    (passed : Passed lock (m.core c) c n) : Passed lock (m.cpu c) c n :=
  ⟨passed.base, passed.raw, passed.number, passed.stride, passed.slot, passed.zero⟩

theorem passed_call (lock : Word) (s : Cpu) (c : Fin 4) : Passed lock s c 0 := by
  constructor <;> omega

theorem passed_loop {lock : Word} {s : Cpu} {c : Fin 4} {n : Nat} (passed : Passed lock s c n)
    (late : 5 ≤ n) : Passed lock s c 7 := by
  constructor
  · omega
  · omega
  · omega
  · omega
  · exact fun _ => passed.slot late
  · omega

theorem waits_call {lock : Word} {s : State} (waits : Waits lock s) (c : Fin 4) :
    Waits lock (step lock s (.wait c)) := by
  refine ⟨waits.number, ?_, ?_⟩
  · intro d n place
    by_cases own : d = c
    · subst own
      cases (Function.update_self d _ s.pc).symm.trans place
      exact passed_call lock _ d
    · exact waits.registers d n ((Function.update_of_ne own _ _).symm.trans place)
  · intro d n place late
    by_cases own : d = c
    · subst own
      cases (Function.update_self d _ s.pc).symm.trans place
      omega
    · exact waits.shape d n ((Function.update_of_ne own _ _).symm.trans place) late

theorem waits_branch {lock : Word} {s : State} (waits : Waits lock s) {c : Fin 4} {n : Nat}
    (there : s.pc c = some n) (late : 7 ≤ n) (next : Option Nat)
    (target : next = none ∨ next = some 7) :
    Waits lock { s with pc := Function.update s.pc c next } := by
  have back : ∀ d m, Function.update s.pc c next d = some m →
      ∃ k, s.pc d = some k ∧ (m = k ∨ d = c ∧ m = 7 ∧ 7 ≤ k) := by
    intro d m place
    by_cases own : d = c
    · subst own
      rw [Function.update_self] at place
      rcases target with rfl | rfl
      · cases place
      · cases place
        exact ⟨n, there, Or.inr ⟨rfl, rfl, late⟩⟩
    · exact ⟨m, (Function.update_of_ne own _ _).symm.trans place, Or.inl rfl⟩
  refine ⟨waits.number, ?_, ?_⟩
  · intro d m place
    obtain ⟨k, before, rfl | ⟨-, rfl, later⟩⟩ := back d m place
    · exact waits.registers d m before
    · exact passed_loop (waits.registers d k before) (by omega)
  · intro d m place late
    obtain ⟨k, before, rfl | ⟨-, rfl, later⟩⟩ := back d m place
    · exact waits.shape d m before late
    · exact waits.shape d k before later

theorem waits_exec {lock : Word} {s : State} (waits : Waits lock s) {c : Fin 4} {n : Nat}
    {i : Instr} (there : s.pc c = some n) (code : (waitAsm lock ++ waitloop)[n]? = some i) :
    Waits lock { machine := s.machine.exec c i, pc := Function.update s.pc c (some (n + 1)),
                 since := if n = 6 then Function.update s.since c fun _ => false else s.since } := by
  have passed := waits.registers c n there
  refine ⟨?_, ?_, ?_⟩
  · intro d
    by_cases own : d = c
    · subst own
      dsimp only
      rw [exec_self, exec_number code]
      exact waits.number d
    · dsimp only
      rw [exec_others own]
      exact waits.number d
  · intro d m place
    by_cases own : d = c
    · subst own
      cases (Function.update_self d _ s.pc).symm.trans place
      dsimp only
      rw [exec_self]
      exact passed_exec (waits.number d) (passed_cpu passed) code
    · dsimp only
      rw [exec_others own]
      exact waits.registers d m ((Function.update_of_ne own _ _).symm.trans place)
  · intro d m place late
    dsimp only
    by_cases own : d = c
    · subst own
      cases (Function.update_self d _ s.pc).symm.trans place
      by_cases store : n = 6
      · subst store
        cases code
        rw [if_pos rfl, Function.update_self]
        exact stored_shape passed
      · rw [if_neg store]
        exact exec_shape passed code (waits.shape d n there (by omega)) fun same => absurd same store
    · have before := (Function.update_of_ne own _ _).symm.trans place
      have history : (if n = 6 then Function.update s.since c fun _ => false else s.since) d =
          s.since d := by
        split
        · exact Function.update_of_ne own _ _
        · rfl
      rw [history]
      exact exec_shape passed code (waits.shape d m before late) fun _ => own

theorem waits_step (lock : Word) {s : State} (waits : Waits lock s) (a : Act) :
    Waits lock (step lock s a) := by
  cases a with
  | wait c => exact waits_call waits c
  | run c =>
    unfold step
    dsimp only
    cases there : s.pc c with
    | none => exact waits
    | some n =>
      dsimp only
      cases code : (waitAsm lock ++ waitloop)[n]? with
      | some i => exact waits_exec waits there code
      | none =>
        have past : 9 ≤ n := List.getElem?_eq_none_iff.mp code
        refine waits_branch waits there (by omega) _ ?_
        split <;> simp
  | dispatch d =>
    refine ⟨waits.number, waits.registers, ?_⟩
    intro c n place late
    exact dispatched_shape (waits.shape c n place late) d

theorem fresh_waits (lock : Word) {s : State} (fresh : Fresh s) : Waits lock s := by
  refine ⟨fun c => (fresh c).2, ?_, ?_⟩
  · intro c n place
    cases (fresh c).1.symm.trans place
  · intro c n place
    cases (fresh c).1.symm.trans place

/-! What a test finds. -/

theorem waitloop_zero (s : Cpu) :
    (s.run waitloop).zero = true ↔ word s.mem (s.x 0) = 1 := by
  simp [waitloop]

theorem word_one_iff (m : Memory 64) (a : Word) :
    word m a = 1 ↔ ∀ i < 8, m (a + BitVec.ofNat 64 i) = if i = 0 then 1 else 0 := by
  have row : toBytes 8 (1 : BitVec (8 * 8)).toNat =
      (List.range 8).map fun i => if i = 0 then 1 else 0 := by decide
  have loaded : word m a = 1 ↔ load m a 8 = (List.range 8).map fun i => if i = 0 then 1 else 0 := by
    rw [← row]
    unfold word
    constructor
    · intro one
      rw [← toBytes_loadWord, one]
    · exact loadWord_of_load
  rw [loaded]
  unfold load
  constructor
  · intro same i inside
    exact List.map_inj_left.mp same i (List.mem_range.mpr inside)
  · intro same
    exact List.map_congr_left fun i member => same i (List.mem_range.mp member)

theorem shape_one_iff {lock : Word} {m : Memory 64} {c : Fin 4} {since : Fin 4 → Bool}
    (shape : Shape lock m c since) :
    word m (slot lock c) = 1 ↔ c = 0 ∧ since 0 = true ∧ ∀ d ≠ 0, since d = false := by
  rw [word_one_iff]
  constructor
  · intro one
    have low := (shape 0 (by decide)).symm.trans (one 0 (by decide))
    have set : c = 0 ∧ since 0 = true := by
      by_contra unset
      rw [if_neg (by simpa using unset), if_pos rfl] at low
      cases low
    refine ⟨set.1, set.2, ?_⟩
    intro d other
    have small := d.isLt
    have some : d.val ≠ 0 := fun same => other (Fin.ext same)
    have half := (shape (2 * d.val) (by omega)).symm.trans (one (2 * d.val) (by omega))
    have index : Fin.ofNat 4 (2 * d.val / 2) = d := by
      rw [Fin.ext_iff, Fin.val_ofNat]
      omega
    by_contra noted
    rw [if_pos ⟨set.1, by omega, by simpa [index] using noted⟩, if_neg (by omega)] at half
    cases half
  · rintro ⟨first, woken, others⟩ i inside
    rw [shape i inside]
    by_cases low : i = 0
    · subst low
      exact if_pos ⟨first, rfl, woken⟩
    · rw [if_neg low]
      apply if_neg
      rintro ⟨-, even, noted⟩
      have other : Fin.ofNat 4 (i / 2) ≠ 0 := by
        intro same
        have value := congrArg Fin.val same
        rw [Fin.val_ofNat] at value
        have zero : ((0 : Fin 4) : Nat) = 0 := rfl
        omega
      rw [others _ other] at noted
      cases noted

theorem released_iff_step {lock : Word} {s : State} (waits : Waits lock s) (a : Act) :
    Released s a ↔ Alone s a := by
  have test : ∀ c, Testing s c a → (((s.machine.cpu c).run waitloop).zero = true ↔
      c = 0 ∧ s.since c 0 = true ∧ ∀ d ≠ 0, s.since c d = false) := by
    intro c testing
    have there : s.pc c = some 7 := by
      cases a with
      | run d => exact testing.2
      | _ => exact absurd testing id
    have base : (s.machine.cpu c).x 0 = slot lock c :=
      (waits.registers c 7 there).slot (by decide)
    rw [waitloop_zero, base]
    exact shape_one_iff (waits.shape c 7 there le_rfl)
  unfold Released Alone
  constructor
  · intro released c testing woken
    obtain ⟨first, -, others⟩ := (test c testing).mp (released c testing woken)
    exact ⟨first, others⟩
  · intro alone c testing woken
    obtain ⟨rfl, others⟩ := alone c testing woken
    exact (test 0 testing).mpr ⟨rfl, woken, others⟩

/-- The store takes in six bytes next to the element, or none of it. -/
theorem writesOwn_iff_step {lock : Word} {s : State} (waits : Waits lock s) (a : Act) :
    WritesOwn lock s a ↔ ¬ Storing s a := by
  cases a with
  | run c =>
    constructor
    · intro own storing
      have base : (s.machine.core c).x 0 = slot lock c :=
        (waits.registers c 6 storing).slot (by decide)
      have place : (s.machine.cpu c).place (.offset (.x 0) 0) = slot lock c := by
        simp [Machine.cpu, base]
      -- the third byte of the word is none of the two of the element
      have far := apart_offsets lock (i := 16 * c.val + 2) (n := 1) (j := 2 * c.val) (k := 2)
        (by omega) (by omega) (by omega) 0 Nat.one_pos
      have third : lock + BitVec.ofNat 64 (16 * c.val + 2) + BitVec.ofNat 64 0 =
          slot lock c + BitVec.ofNat 64 2 := by
        rw [slot, BitVec.add_assoc lock, ← BitVec.ofNat_add, Nat.add_zero, BitVec.add_assoc lock,
          ← BitVec.ofNat_add]
      rw [third] at far
      have inside : (slot lock c + BitVec.ofNat 64 2 - slot lock c).toNat < 8 := by
        rw [BitVec.add_comm, BitVec.add_sub_cancel]
        decide
      have stores : Stores (s.machine.cpu c) (slot lock c + BitVec.ofNat 64 2)
          (.str 1 (.offset (.x 0) 0)) := by
        rw [Stores, place]
        exact inside
      have near := own 6 _ storing rfl _ stores
      unfold element at near
      omega
    · intro spared n i there code x stores
      obtain ⟨rfl, -⟩ := code_stores code stores
      exact absurd there spared
  | _ => simp [WritesOwn, Storing]

theorem writesOwn_iff (lock : Word) {s : State} (fresh : Fresh s) (as : List Act) :
    Along (step lock) (WritesOwn lock) s as ↔ Along (step lock) (fun s a => ¬ Storing s a) s as :=
  along_same (fun _ a waits => writesOwn_iff_step waits a)
    (fun _ a waits _ => waits_step lock waits a) as (fresh_waits lock fresh)

theorem released_iff (lock : Word) {s : State} (fresh : Fresh s) (as : List Act) :
    Along (step lock) Released s as ↔ Along (step lock) Alone s as :=
  along_same (fun _ a waits => released_iff_step waits a)
    (fun _ a waits _ => waits_step lock waits a) as (fresh_waits lock fresh)

def Early (s : State) : Prop := ∀ c n, s.pc c = some n → n ≤ 6

theorem early_step {lock : Word} {s : State} (early : Early s) {a : Act} (spared : ¬ Storing s a) :
    Early (step lock s a) := by
  have moved : ∀ (c : Fin 4) (next : Option Nat), (∀ m, next = some m → m ≤ 6) →
      ∀ d m, Function.update s.pc c next d = some m → m ≤ 6 := by
    intro c next small d m place
    by_cases own : d = c
    · subst own
      exact small m ((Function.update_self d _ s.pc).symm.trans place)
    · exact early d m ((Function.update_of_ne own _ _).symm.trans place)
  cases a with
  | wait c => exact moved c (some 0) (by simp)
  | run c =>
    unfold step
    dsimp only
    cases there : s.pc c with
    | none => exact early
    | some n =>
      have small := early c n there
      have before : n ≠ 6 := by
        rintro rfl
        exact spared there
      dsimp only
      cases code : (waitAsm lock ++ waitloop)[n]? with
      | some i => exact moved c (some (n + 1)) (by simp; omega)
      | none =>
        have past : 9 ≤ n := List.getElem?_eq_none_iff.mp code
        omega
  | dispatch d => exact early

theorem early_passes {s : State} (early : Early s) (a : Act) : Released s a := by
  intro c testing
  cases a with
  | run d =>
    have small := early c 7 testing.2
    omega
  | _ => exact absurd testing id

/-- `WAIT` stores outside the element on any core, and a core that waits is released for certain
    only if it is the first and none of the others has dispatched an interrupt. -/
theorem wait_lock_iff (lock : Word) {s : State} (fresh : Fresh s) (as : List Act) :
    (Along (step lock) (fun s a => WritesOwn lock s a ∧ Released s a) s as ↔
        Along (step lock) (fun s a => ¬ Storing s a) s as) ∧
      (Along (step lock) Released s as ↔ Along (step lock) Alone s as) := by
  have waits := fresh_waits lock fresh
  refine ⟨?_, released_iff lock fresh as⟩
  constructor
  · exact along_invariant (fun _ a waits holds =>
      ⟨(writesOwn_iff_step waits a).mp holds.1, waits_step lock waits a⟩) as waits
  · have early : Early s := by
      intro c n place
      cases (fresh c).1.symm.trans place
    have each : ∀ s a, Waits lock s ∧ Early s → ¬ Storing s a →
        (WritesOwn lock s a ∧ Released s a) ∧ Waits lock (step lock s a) ∧ Early (step lock s a) := by
      intro s a state spared
      exact ⟨⟨(writesOwn_iff_step state.1 a).mpr spared, early_passes state.2 a⟩,
        waits_step lock state.1 a, early_step state.2 spared⟩
    exact along_invariant each as ⟨waits, early⟩

def idle : State where
  machine := ⟨fun _ => 0, fun c =>
    ⟨.el1, fun _ => 0, fun _ => 0x80000000 + BitVec.ofNat 64 c.val, false, fun _ => 0⟩⟩
  pc := fun _ => none
  since := fun _ _ => false

theorem idle_fresh : Fresh idle := by
  unfold Fresh
  decide

/-- A core waits up to its test, has its interrupt, and tests. -/
def woken (core : Fin 4) : List Act :=
  .wait core :: List.replicate 7 (.run core) ++ [.dispatch core, .run core]

theorem first_core_woken : Along (step 0x90000) Released idle (woken 0) :=
  (wait_lock_iff 0x90000 idle_fresh (woken 0)).2.mpr (by decide)

theorem second_core_waits_on :
    ¬ Along (step 0x90000) Released idle (woken 1) ∧
      ¬ Along (step 0x90000) (WritesOwn 0x90000) idle (woken 1) := by
  constructor
  · rw [released_iff 0x90000 idle_fresh]
    decide
  · rw [writesOwn_iff 0x90000 idle_fresh]
    decide

end WaitLock
