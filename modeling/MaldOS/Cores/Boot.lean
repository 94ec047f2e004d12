import MaldOS.Arch
import MaldOS.Library.Rounds
import MaldOS.Library.Words

/-!
The start of the four cores in `init.S`. Core 0 releases the others one by one
and waits for each to count itself in `CoresReady`, which is what makes the
unguarded increment of `start_kernel` safe.
-/
namespace Boot
open Words Runs Rounds

/-- Where a core is: held on its slot by the firmware, at one of the labels, in `start_kernel`
    before or after the load of `CoresReady` or of a slot, in a task, or at an address that is
    none of its own. -/
inductive Place where
  | parked
  | start
  | multicoreStart
  | alreadyEl2
  | startKernel
  | count
  | counted (w0 : BitVec 32)
  | release (core : Nat)
  | waitAck (core : Nat)
  | crt0
  | startIdleCoreSpin
  | idleCoreSpin
  | loaded (x4 : Word)
  | task
  | astray
  deriving DecidableEq

inductive SysReg where
  | cnthctlEl2
  | cntvoffEl2
  | cntkctlEl1
  | spEl1
  | spEl2
  | hcrEl2
  | vbarEl1
  | vbarEl2
  | spsrEl2
  | elrEl2
  deriving DecidableEq

/-- `currentEl` is what `CurrentEl` reads as. -/
structure Core where
  place : Place
  currentEl : Word
  sys : SysReg → Word

structure State where
  coresReady : BitVec 32
  /-- The words at `spin_cpu0` to `spin_cpu3`. -/
  slot : Nat → Word
  core : Fin 4 → Core

/-- The addresses of the labels, none of which is null. -/
structure Labels where
  multicoreStart : Word
  startKernel : Word
  interruptVector : Word
  interruptVectorEl2 : Word
  given : multicoreStart ≠ 0

/-- `__EL1_stack_core0` to `__EL1_stack_core3` of `mal.ld` -/
def stackEl1 (c : Fin 4) : Word := 0x2000 * (1 + BitVec.ofNat 64 c)

/-- `__EL2_stack_core0` to `__EL2_stack_core3` -/
def stackEl2 (c : Fin 4) : Word := 0x2000 * (5 + BitVec.ofNat 64 c)

/-- The code from `already_el2` to its `eret`. -/
def setUp (l : Labels) (c : Fin 4) (sys : SysReg → Word) : SysReg → Word
  | .cnthctlEl2 => sys .cnthctlEl2 ||| 0x3
  | .cntvoffEl2 => 0
  | .cntkctlEl1 => sys .cntkctlEl1 ||| 0x3
  | .spEl1 => stackEl1 c
  | .spEl2 => stackEl2 c
  | .hcrEl2 => 1 <<< 31 ||| 1 <<< 1 ||| 1 <<< 3
  | .vbarEl1 => l.interruptVector
  | .vbarEl2 => l.interruptVectorEl2
  | .spsrEl2 => 0x305
  | .elrEl2 => l.startKernel

def State.put (s : State) (c : Fin 4) (k : Core) : State :=
  { s with core := Function.update s.core c k }

def State.goto (s : State) (c : Fin 4) (p : Place) : State := s.put c { s.core c with place := p }

/-- A core goes on from its place to its next access of shared memory. -/
def stepAt (l : Labels) (s : State) (c : Fin 4) : Place → State
  | .parked =>
    -- taken for granted of the firmware, which is not in the repository: it holds the core until
    -- its slot is set, and goes to the address that it finds there
    if s.slot c = 0 then s
    else s.goto c (if s.slot c = l.multicoreStart then .multicoreStart else .astray)
  | .start => { s with coresReady := 1 }.goto c .multicoreStart
  | .multicoreStart =>
    -- the `eret` that is to go down from EL3 returns by the registers of EL3, which are not set
    s.goto c (if (s.core c).currentEl &&& 0xC = 0x8 then .alreadyEl2 else .astray)
  | .alreadyEl2 => s.put c ⟨.startKernel, 0x4, setUp l c (s.core c).sys⟩
  | .startKernel => s.goto c (if c = 0 then .release 1 else .count)
  | .count => s.goto c (.counted s.coresReady)
  | .counted w0 => { s with coresReady := w0 + 1 }.goto c .startIdleCoreSpin
  | .release n => { s with slot := Function.update s.slot n l.multicoreStart }.goto c (.waitAck n)
  | .waitAck n =>
    if s.coresReady = BitVec.ofNat 32 (n + 1) then
      s.goto c (if n = 3 then .crt0 else .release (n + 1))
    else s
  | .crt0 => s
  | .startIdleCoreSpin => { s with slot := Function.update s.slot c 0 }.goto c .idleCoreSpin
  | .idleCoreSpin => if s.slot c = 0 then s else s.goto c (.loaded (s.slot c))
  | .loaded x4 => { s with slot := Function.update s.slot c 0 }.goto c
      (if x4 = l.multicoreStart then .multicoreStart else .task)
  | .task => s.goto c .startIdleCoreSpin
  | .astray => s

def step (l : Labels) (s : State) (c : Fin 4) : State := stepAt l s c (s.core c).place

/-- Core 0 at `_start`, the others held on empty slots, all at EL2. -/
structure PoweredOn (s : State) : Prop where
  main : (s.core 0).place = .start
  others : ∀ c, c ≠ 0 → (s.core c).place = .parked
  slot : ∀ c : Fin 4, c ≠ 0 → s.slot c = 0
  level : ∀ c, (s.core c).currentEl = 0x8

/-! Where the workers are, by what core 0 has let go. -/

def released : Place → Nat
  | .release n => n - 1
  | .waitAck n => n
  | .crt0 => 3
  | _ => 0

def Entered : Place → Bool
  | .parked | .start | .multicoreStart | .alreadyEl2 | .astray => false
  | _ => true

/-- What `already_el2` leaves a core with. -/
structure InKernel (l : Labels) (c : Fin 4) (k : Core) : Prop where
  level : k.currentEl = 0x4
  spEl1 : k.sys .spEl1 = stackEl1 c
  spEl2 : k.sys .spEl2 = stackEl2 c
  vbarEl1 : k.sys .vbarEl1 = l.interruptVector
  vbarEl2 : k.sys .vbarEl2 = l.interruptVectorEl2

def Levelled (l : Labels) (c : Fin 4) (k : Core) : Prop :=
  if Entered k.place then InKernel l c k else k.currentEl = 0x8

def Fresh (s : State) (c : Fin 4) : Prop := (s.core c).place = .parked ∧ s.slot c = 0

def Moving (l : Labels) (s : State) (c : Fin 4) : Prop :=
  s.slot c = l.multicoreStart ∧ (s.core c).place ∈ [.parked, .multicoreStart, .alreadyEl2,
    .startKernel, .count, .counted (BitVec.ofNat 32 c)]

def Arrived (l : Labels) (s : State) (c : Fin 4) : Prop :=
  (s.core c).place = .startIdleCoreSpin ∧ s.slot c = l.multicoreStart ∨
    (s.core c).place = .idleCoreSpin ∧ s.slot c = 0

inductive Main : Place → Prop where
  | start : Main .start
  | multicoreStart : Main .multicoreStart
  | alreadyEl2 : Main .alreadyEl2
  | startKernel : Main .startKernel
  | release (n : Nat) (first : 1 ≤ n) (last : n ≤ 3) : Main (.release n)
  | waitAck (n : Nat) (first : 1 ≤ n) (last : n ≤ 3) : Main (.waitAck n)
  | crt0 : Main .crt0

/-- At most one worker is between its slot and its count, and core 0 waits for it. -/
structure Inv (l : Labels) (s : State) : Prop where
  main : Main (s.core 0).place
  fresh : ∀ c : Fin 4, released (s.core 0).place < c → Fresh s c
  arrived : ∀ c : Fin 4, c ≠ 0 → c < released (s.core 0).place → Arrived l s c
  turn : (∃ c : Fin 4, c ≠ 0 ∧ (s.core 0).place = .waitAck c ∧ Moving l s c ∧
      s.coresReady = BitVec.ofNat 32 c) ∨
    (∀ c : Fin 4, c ≠ 0 → c = released (s.core 0).place → Arrived l s c) ∧
      ((s.core 0).place ≠ .start → s.coresReady = BitVec.ofNat 32 (released (s.core 0).place + 1))
  level : ∀ c, Levelled l c (s.core c)

theorem poweredOn_inv (l : Labels) {s : State} (on : PoweredOn s) : Inv l s := by
  have none : released (s.core 0).place = 0 := by
    rw [on.main]
    rfl
  refine ⟨?_, ?_, ?_, Or.inr ⟨?_, ?_⟩, ?_⟩
  · rw [on.main]
    exact .start
  · intro c after
    have worker : c ≠ 0 := by
      rintro rfl
      exact absurd after (Nat.not_lt_zero _)
    exact ⟨on.others c worker, on.slot c worker⟩
  · intro c _ before
    omega
  · intro c worker equal
    exact absurd (Fin.ext (equal.trans none)) worker
  · exact fun later => absurd on.main later
  · intro c
    have early : Entered (s.core c).place = false := by
      by_cases main : c = 0
      · rw [main, on.main]
        rfl
      · rw [on.others c main]
        rfl
    unfold Levelled
    rw [early]
    exact on.level c

theorem fresh_still {l : Labels} {s : State} {c : Fin 4} (fresh : Fresh s c) :
    ¬ Moving l s c := by
  intro moving
  exact l.given (moving.1.symm.trans fresh.2)

theorem arrived_still {l : Labels} {s : State} {c : Fin 4} (arrived : Arrived l s c) :
    ¬ Moving l s c := by
  rcases arrived with ⟨place, _⟩ | ⟨place, _⟩ <;> simp [Moving, place]

/-! One step. -/

theorem put_self (s : State) (c : Fin 4) (k : Core) : (s.put c k).core c = k :=
  Function.update_self _ _ _

theorem goto_self (s : State) (c : Fin 4) (p : Place) :
    (s.goto c p).core c = { s.core c with place := p } := Function.update_self _ _ _

theorem step_at {l : Labels} {s : State} {c : Fin 4} {p : Place} (place : (s.core c).place = p) :
    step l s c = stepAt l s c p := by
  rw [step, place]

theorem step_other (l : Labels) (s : State) {c d : Fin 4} (other : d ≠ c) :
    (step l s c).core d = s.core d := by
  unfold step stepAt
  split <;> (try split_ifs) <;> first | rfl | exact Function.update_of_ne other _ _

/-- What a step of a worker can do while core 0 starts the others. -/
inductive Turn (l : Labels) (s : State) (c : Fin 4) : State → Prop where
  | waits : Turn l s c s
  | moves (t : State) (before : Moving l s c) (after : Moving l t c)
      (ready : t.coresReady = s.coresReady) (slot : t.slot = s.slot) : Turn l s c t
  | counts (t : State) (before : Moving l s c) (after : Arrived l t c)
      (ready : t.coresReady = BitVec.ofNat 32 (c + 1)) (slot : t.slot = s.slot) : Turn l s c t
  | clears (t : State) (before : (s.core c).place = .startIdleCoreSpin)
      (after : (t.core c).place = .idleCoreSpin) (ready : t.coresReady = s.coresReady)
      (slot : t.slot = Function.update s.slot c 0) : Turn l s c t

theorem parked_next {l : Labels} {s : State} {c : Fin 4} (place : (s.core c).place = .parked)
    (slot : s.slot c = l.multicoreStart) : step l s c = s.goto c .multicoreStart := by
  simp only [step_at place, stepAt, slot, l.given, ↓reduceIte]

theorem moving_turn {l : Labels} {s : State} {c : Fin 4} (worker : c ≠ 0)
    (level : Levelled l c (s.core c)) (moving : Moving l s c)
    (ready : s.coresReady = BitVec.ofNat 32 c) :
    Turn l s c (step l s c) ∧ Levelled l c ((step l s c).core c) := by
  obtain ⟨slot, place⟩ := moving
  have before : Moving l s c := ⟨slot, place⟩
  simp only [List.mem_cons, List.not_mem_nil, or_false] at place
  unfold Levelled at level
  rcases place with place | place | place | place | place | place
  · rw [parked_next place slot, Levelled, goto_self]
    rw [place] at level
    refine ⟨.moves _ before ⟨slot, ?_⟩ rfl rfl, level⟩
    rw [goto_self]
    simp
  · rw [place] at level
    have next : step l s c = s.goto c .alreadyEl2 := by
      have el2 : (s.core c).currentEl = 0x8 := level
      simp only [step_at place, stepAt, el2]
      rfl
    rw [next, Levelled, goto_self]
    refine ⟨.moves _ before ⟨slot, ?_⟩ rfl rfl, level⟩
    rw [goto_self]
    simp
  · have next : step l s c = s.put c ⟨.startKernel, 0x4, setUp l c (s.core c).sys⟩ := by
      simp only [step_at place, stepAt]
    have own : (step l s c).core c = ⟨.startKernel, 0x4, setUp l c (s.core c).sys⟩ := by
      rw [next, put_self]
    rw [Levelled, own]
    refine ⟨.moves _ before ⟨?_, ?_⟩ ?_ ?_, ⟨rfl, rfl, rfl, rfl, rfl⟩⟩
    · rw [next]
      exact slot
    · rw [own]
      simp
    · rw [next]
      rfl
    · rw [next]
      rfl
  · have next : step l s c = s.goto c .count := by
      simp only [step_at place, stepAt, worker, ↓reduceIte]
    rw [next, Levelled, goto_self]
    rw [place] at level
    refine ⟨.moves _ before ⟨slot, ?_⟩ rfl rfl, ⟨level.level, level.spEl1, level.spEl2,
      level.vbarEl1, level.vbarEl2⟩⟩
    rw [goto_self]
    simp
  · have next : step l s c = s.goto c (.counted (BitVec.ofNat 32 c)) := by
      simp only [step_at place, stepAt, ready]
    rw [next, Levelled, goto_self]
    rw [place] at level
    refine ⟨.moves _ before ⟨slot, ?_⟩ rfl rfl, ⟨level.level, level.spEl1, level.spEl2,
      level.vbarEl1, level.vbarEl2⟩⟩
    rw [goto_self]
    simp
  · have next : step l s c =
        { s with coresReady := BitVec.ofNat 32 c + 1 }.goto c .startIdleCoreSpin := by
      simp only [step_at place, stepAt]
    rw [next, Levelled, goto_self]
    rw [place] at level
    refine ⟨.counts _ before (Or.inl ⟨?_, slot⟩) ?_ rfl, ⟨level.level, level.spEl1, level.spEl2,
      level.vbarEl1, level.vbarEl2⟩⟩
    · rw [goto_self]
    · exact (BitVec.ofNat_add _ _).symm

theorem inKernel_place {l : Labels} {c : Fin 4} {k : Core} (inside : InKernel l c k) (p : Place) :
    InKernel l c { k with place := p } :=
  ⟨inside.level, inside.spEl1, inside.spEl2, inside.vbarEl1, inside.vbarEl2⟩

theorem arrived_turn {l : Labels} {s : State} {c : Fin 4} (level : Levelled l c (s.core c))
    (arrived : Arrived l s c) :
    Turn l s c (step l s c) ∧ Levelled l c ((step l s c).core c) := by
  rcases arrived with ⟨place, slot⟩ | ⟨place, slot⟩
  · have next : step l s c =
        { s with slot := Function.update s.slot c 0 }.goto c .idleCoreSpin := by
      simp only [step_at place, stepAt]
    unfold Levelled at level
    rw [place] at level
    rw [next, Levelled, goto_self]
    refine ⟨.clears _ place ?_ rfl rfl, inKernel_place level _⟩
    rw [goto_self]
  · have next : step l s c = s := by
      simp only [step_at place, stepAt, slot, ↓reduceIte]
    rw [next]
    exact ⟨.waits, level⟩

theorem fresh_waits (l : Labels) {s : State} {c : Fin 4} (fresh : Fresh s c) : step l s c = s := by
  simp only [step_at fresh.1, stepAt, fresh.2, ↓reduceIte]

theorem worker_turn {l : Labels} {s : State} (inv : Inv l s) {c : Fin 4} (worker : c ≠ 0) :
    Turn l s c (step l s c) ∧ Levelled l c ((step l s c).core c) := by
  rcases Nat.lt_trichotomy c (released (s.core 0).place) with before | equal | after
  · exact arrived_turn (inv.level c) (inv.arrived c worker before)
  · rcases inv.turn with ⟨d, other, waits, moving, ready⟩ | ⟨all, -⟩
    · have same : c = d := by
        rw [waits] at equal
        exact Fin.ext equal
      subst same
      exact moving_turn worker (inv.level c) moving ready
    · exact arrived_turn (inv.level c) (all c worker equal)
  · rw [fresh_waits l (inv.fresh c after)]
    exact ⟨.waits, inv.level c⟩

/-! What one core's step leaves of the others. -/

theorem slot_apart {s t : State} {c d : Fin 4} (other : d ≠ c)
    (slot : t.slot = s.slot ∨ ∃ w, t.slot = Function.update s.slot c w) : t.slot d = s.slot d := by
  rcases slot with same | ⟨w, changed⟩
  · rw [same]
  · rw [changed]
    exact Function.update_of_ne (fun equal => other (Fin.ext equal)) _ _

theorem turn_slot {l : Labels} {s t : State} {c d : Fin 4} (turn : Turn l s c t) (other : d ≠ c) :
    t.slot d = s.slot d := by
  cases turn with
  | waits => rfl
  | moves _ _ _ _ slot => rw [slot]
  | counts _ _ _ _ slot => rw [slot]
  | clears _ _ _ _ slot => exact slot_apart other (Or.inr ⟨0, slot⟩)

theorem arrived_kept {l : Labels} {s t : State} {c d : Fin 4} (turn : Turn l s c t)
    (cores : ∀ e, e ≠ c → t.core e = s.core e) (arrived : Arrived l s d) : Arrived l t d := by
  by_cases own : d = c
  · subst own
    cases turn with
    | waits => exact arrived
    | moves _ before => exact absurd before (arrived_still arrived)
    | counts _ _ after => exact after
    | clears _ _ after _ slot =>
      right
      rw [slot]
      exact ⟨after, Function.update_self _ _ _⟩
  · unfold Arrived
    rw [cores d own, turn_slot turn own]
    exact arrived

theorem fresh_kept {l : Labels} {s t : State} {c d : Fin 4} (turn : Turn l s c t)
    (cores : ∀ e, e ≠ c → t.core e = s.core e) (other : d ≠ c) (fresh : Fresh s d) : Fresh t d := by
  unfold Fresh
  rw [cores d other, turn_slot turn other]
  exact fresh

theorem worker_inv {l : Labels} {s : State} (inv : Inv l s) {c : Fin 4} (worker : c ≠ 0) :
    Inv l (step l s c) := by
  obtain ⟨turn, level⟩ := worker_turn inv worker
  have cores := fun e other => @step_other l s c e other
  have main := cores 0 worker.symm
  generalize step l s c = t at turn level cores main
  refine ⟨?_, ?_, ?_, ?_, ?_⟩
  · rw [main]
    exact inv.main
  · intro d after
    rw [main] at after
    have fresh := inv.fresh d after
    by_cases own : d = c
    · subst own
      cases turn with
      | waits => exact fresh
      | moves _ before => exact absurd before (fresh_still fresh)
      | counts _ before => exact absurd before (fresh_still fresh)
      | clears _ before => cases fresh.1.symm.trans before
    · exact fresh_kept turn cores own fresh
  · intro d other before
    rw [main] at before
    exact arrived_kept turn cores (inv.arrived d other before)
  · rw [main]
    rcases inv.turn with ⟨d, other, waits, moving, ready⟩ | ⟨all, ready⟩
    · by_cases own : d = c
      · subst own
        cases turn with
        | waits => exact Or.inl ⟨d, other, waits, moving, ready⟩
        | moves _ _ after same => exact Or.inl ⟨d, other, waits, after, same.trans ready⟩
        | counts _ _ after grown =>
          right
          rw [waits]
          refine ⟨?_, fun _ => grown⟩
          intro e _ equal
          rwa [show e = d from Fin.ext equal]
        | clears _ before => simp [Moving, before] at moving
      · have same : t.coresReady = s.coresReady := by
          cases turn with
          | waits => rfl
          | moves _ _ _ same => exact same
          | clears _ _ _ same => exact same
          | counts _ before =>
            exfalso
            have fresh := inv.fresh c
            have done := inv.arrived c worker
            rw [waits] at fresh done
            rcases Nat.lt_or_gt_of_ne (fun equal => own (Fin.ext equal) : (d : Nat) ≠ c) with a | b
            · exact fresh_still (fresh a) before
            · exact arrived_still (done b) before
        refine Or.inl ⟨d, other, waits, ?_, same.trans ready⟩
        unfold Moving
        rw [cores d own, turn_slot turn own]
        exact moving
    · right
      constructor
      · intro d other equal
        exact arrived_kept turn cores (all d other equal)
      · intro begun
        cases turn with
        | waits => exact ready begun
        | moves _ _ _ same => exact same.trans (ready begun)
        | clears _ _ _ same => exact same.trans (ready begun)
        | counts _ before =>
          exfalso
          have fresh := inv.fresh c
          have done : c ≤ released (s.core 0).place → Arrived l s c := by
            intro near
            rcases Nat.lt_or_eq_of_le near with less | equal
            · exact inv.arrived c worker less
            · exact all c worker equal
          rcases Nat.lt_or_ge (released (s.core 0).place) c with a | b
          · exact fresh_still (fresh a) before
          · exact arrived_still (done b) before
  · intro d
    by_cases own : d = c
    · rw [own]
      exact level
    · rw [cores d own]
      exact inv.level d

theorem main_moves {l : Labels} {s t : State} (inv : Inv l s)
    (cores : ∀ d, d ≠ 0 → t.core d = s.core d) (slot : t.slot = s.slot)
    (main : Main (t.core 0).place) (level : Levelled l 0 (t.core 0))
    (fresh : released (s.core 0).place ≤ released (t.core 0).place)
    (before : ∀ c : Fin 4, c ≠ 0 → c < released (t.core 0).place →
      c ≤ released (s.core 0).place)
    (all : ∀ c : Fin 4, c ≠ 0 → c = released (s.core 0).place → Arrived l s c)
    (equal : ∀ c : Fin 4, c ≠ 0 → c = released (t.core 0).place →
      c = released (s.core 0).place)
    (ready : t.coresReady = BitVec.ofNat 32 (released (t.core 0).place + 1)) : Inv l t := by
  have done : ∀ c : Fin 4, c ≠ 0 → Arrived l s c → Arrived l t c := by
    intro c worker arrived
    unfold Arrived
    rw [cores c worker, slot]
    exact arrived
  refine ⟨main, ?_, ?_, Or.inr ⟨?_, fun _ => ready⟩, ?_⟩
  · intro c after
    have worker : c ≠ 0 := by
      rintro rfl
      exact absurd after (Nat.not_lt_zero _)
    unfold Fresh
    rw [cores c worker, slot]
    exact inv.fresh c (Nat.lt_of_le_of_lt fresh after)
  · intro c worker less
    rcases Nat.lt_or_eq_of_le (before c worker less) with near | same
    · exact done c worker (inv.arrived c worker near)
    · exact done c worker (all c worker same)
  · intro c worker same
    exact done c worker (all c worker (equal c worker same))
  · intro c
    by_cases own : c = 0
    · rw [own]
      exact level
    · rw [cores c own]
      exact inv.level c

theorem inv_settled {l : Labels} {s : State} (inv : Inv l s)
    (idle : ∀ c : Fin 4, (s.core 0).place ≠ .waitAck c) :
    (∀ c : Fin 4, c ≠ 0 → c = released (s.core 0).place → Arrived l s c) ∧
      ((s.core 0).place ≠ .start →
        s.coresReady = BitVec.ofNat 32 (released (s.core 0).place + 1)) := by
  rcases inv.turn with ⟨c, _, waits, _⟩ | settled
  · exact absurd waits (idle c)
  · exact settled

theorem release_inv {l : Labels} {s : State} (inv : Inv l s) {n : Nat} (first : 1 ≤ n)
    (last : n ≤ 3) (place : (s.core 0).place = .release n) : Inv l (step l s 0) := by
  have cores := fun e other => @step_other l s 0 e other
  have next : step l s 0 =
      { s with slot := Function.update s.slot n l.multicoreStart }.goto 0 (.waitAck n) := by
    simp only [step_at place, stepAt]
  have here : ((step l s 0).core 0) = { s.core 0 with place := .waitAck n } := by
    rw [next, goto_self]
  have slot : (step l s 0).slot = Function.update s.slot n l.multicoreStart := by
    rw [next]
    rfl
  have ready : (step l s 0).coresReady = s.coresReady := by
    rw [next]
    rfl
  generalize step l s 0 = t at cores here slot ready
  obtain ⟨-, count⟩ := inv_settled inv (by simp [place])
  have one : released (s.core 0).place + 1 = n := by
    rw [place]
    exact Nat.sub_add_cancel first
  have apart : ∀ c : Fin 4, (c : Nat) ≠ n → t.slot c = s.slot c := by
    intro c other
    rw [slot, Function.update_of_ne other]
  refine ⟨?_, ?_, ?_, ?_, ?_⟩
  · rw [here]
    exact .waitAck n first last
  · intro c after
    rw [here] at after
    have later : n < c := after
    have worker : c ≠ 0 := by
      rintro rfl
      exact absurd later (Nat.not_lt_zero _)
    unfold Fresh
    rw [cores c worker, apart c (by omega)]
    exact inv.fresh c (by omega)
  · intro c worker before
    rw [here] at before
    have less : c < n := before
    unfold Arrived
    rw [cores c worker, apart c (by omega)]
    rcases Nat.lt_or_ge c (released (s.core 0).place) with near | far
    · exact inv.arrived c worker near
    · exact (inv_settled inv (by simp [place])).1 c worker (by omega)
  · left
    have worker : (⟨n, by omega⟩ : Fin 4) ≠ 0 := by
      intro zero
      have none : n = 0 := congrArg Fin.val zero
      omega
    obtain ⟨parked, -⟩ := inv.fresh ⟨n, by omega⟩ (by
      show released _ < n
      omega)
    refine ⟨⟨n, by omega⟩, worker, ?_, ⟨?_, ?_⟩, ?_⟩
    · rw [here]
    · rw [slot]
      exact Function.update_self _ _ _
    · rw [cores _ worker, parked]
      simp
    · rw [ready, count (by simp [place]), one]
  · intro c
    by_cases own : c = 0
    · have level := inv.level 0
      unfold Levelled at level
      rw [place] at level
      rw [own, Levelled, here]
      exact inKernel_place level _
    · rw [cores c own]
      exact inv.level c

theorem early_inv {l : Labels} {s : State} (inv : Inv l s) {ready : BitVec 32} {k : Core}
    (none : released (s.core 0).place = 0) (none' : released k.place = 0) (main : Main k.place)
    (level : Levelled l 0 k) (one : ready = 1) :
    Inv l ({ s with coresReady := ready }.put 0 k) := by
  have zero : ∀ c : Fin 4, c ≠ 0 → (c : Nat) ≠ 0 := fun c worker equal => worker (Fin.ext equal)
  have here : ({ s with coresReady := ready }.put 0 k).core 0 = k := put_self _ 0 k
  have cores : ∀ d, d ≠ 0 → ({ s with coresReady := ready }.put 0 k).core d = s.core d :=
    fun d other => Function.update_of_ne other _ _
  refine main_moves inv cores rfl (here ▸ main) (here ▸ level) ?_ ?_ ?_ ?_ ?_
  · omega
  · intro c _ less
    rw [here, none'] at less
    exact absurd less (Nat.not_lt_zero _)
  · intro c worker equal
    exact absurd (equal.trans none) (zero c worker)
  · intro c worker equal
    rw [here, none'] at equal
    exact absurd equal (zero c worker)
  · rw [here, none']
    exact one

theorem main_inv {l : Labels} {s : State} (inv : Inv l s) : Inv l (step l s 0) := by
  have cores := fun e other => @step_other l s 0 e other
  have level := inv.level 0
  have main := inv.main
  have settled := @inv_settled l s inv
  unfold Levelled at level
  generalize place : (s.core 0).place = p at main level settled
  cases main with
  | start =>
    rw [step_at place]
    exact early_inv inv (by rw [place]; rfl) rfl .multicoreStart level rfl
  | multicoreStart =>
    have el2 : (s.core 0).currentEl = 0x8 := level
    have next : step l s 0 = s.goto 0 .alreadyEl2 := by
      simp only [step_at place, stepAt, el2]
      rfl
    rw [next]
    exact early_inv inv (by rw [place]; rfl) rfl .alreadyEl2 el2
      ((settled (by simp)).2 (by simp))
  | alreadyEl2 =>
    rw [step_at place]
    exact early_inv inv (by rw [place]; rfl) rfl .startKernel ⟨rfl, rfl, rfl, rfl, rfl⟩
      ((settled (by simp)).2 (by simp))
  | startKernel =>
    rw [step_at place]
    exact early_inv inv (by rw [place]; rfl) rfl (.release 1 (by decide) (by decide))
      (inKernel_place level _) ((settled (by simp)).2 (by simp))
  | release n first last => exact release_inv inv first last place
  | waitAck n first last =>
    by_cases acked : s.coresReady = BitVec.ofNat 32 (n + 1)
    · have next : step l s 0 = s.goto 0 (if n = 3 then .crt0 else .release (n + 1)) := by
        simp only [step_at place, stepAt, acked, ↓reduceIte]
      have here : (step l s 0).core 0 =
          { s.core 0 with place := if n = 3 then .crt0 else .release (n + 1) } := by
        rw [next, goto_self]
      have same : released (if n = 3 then Place.crt0 else .release (n + 1)) = n := by
        split_ifs with all
        · exact all.symm
        · rfl
      have count : released (Place.waitAck n) = n := rfl
      have all : ∀ c : Fin 4, c ≠ 0 → (c : Nat) = n → Arrived l s c := by
        rcases inv.turn with ⟨c, _, waits, _, ready⟩ | ⟨all, -⟩
        · rw [place] at waits
          cases waits
          rw [ready] at acked
          have small := c.isLt
          have wrong := congrArg BitVec.toNat acked
          simp only [BitVec.toNat_ofNat] at wrong
          omega
        · rw [place] at all
          exact all
      apply main_moves inv cores
      · rw [next]
        rfl
      · rw [here]
        dsimp only
        split_ifs with last'
        · exact .crt0
        · exact .release (n + 1) (Nat.le_add_left 1 n) (by omega)
      · rw [here, Levelled]
        have inside : Entered (if n = 3 then Place.crt0 else .release (n + 1)) = true := by
          split_ifs <;> rfl
        rw [if_pos inside]
        exact inKernel_place level _
      · rw [here, same, place, count]
      · intro c _ less
        rw [here, same] at less
        rw [place, count]
        exact Nat.le_of_lt less
      · rw [place]
        exact all
      · intro c _ equal
        rw [here, same] at equal
        rw [place, count]
        exact equal
      · rw [here, same, next]
        exact acked
    · have next : step l s 0 = s := by
        simp only [step_at place, stepAt, acked, ↓reduceIte]
      rw [next]
      exact inv
  | crt0 =>
    have next : step l s 0 = s := by
      simp only [step_at place, stepAt]
    rw [next]
    exact inv

theorem step_inv {l : Labels} (s : State) (c : Fin 4) (inv : Inv l s) : Inv l (step l s c) := by
  by_cases main : c = 0
  · rw [main]
    exact main_inv inv
  · exact worker_inv inv main

theorem run_inv (l : Labels) {s : State} (on : PoweredOn s) (as : List (Fin 4)) :
    Inv l (run (step l) s as) :=
  run_invariant step_inv as (poweredOn_inv l on)

theorem released_le {p : Place} (main : Main p) : released p ≤ 3 := by
  cases main with
  | release n first last => exact (Nat.sub_le n 1).trans last
  | waitAck n first last => exact last
  | _ => decide

/-- A worker has not been let go, is on its way, or has arrived. -/
theorem worker_cases {l : Labels} {s : State} (inv : Inv l s) {c : Fin 4} (worker : c ≠ 0) :
    Fresh s c ∨ (Moving l s c ∧ (s.core 0).place = .waitAck c ∧
      s.coresReady = BitVec.ofNat 32 c) ∨ Arrived l s c := by
  rcases Nat.lt_trichotomy c (released (s.core 0).place) with before | equal | after
  · exact Or.inr (Or.inr (inv.arrived c worker before))
  · rcases inv.turn with ⟨d, _, waits, moving, ready⟩ | ⟨all, -⟩
    · have same : d = c := by
        rw [waits] at equal
        exact Fin.ext equal.symm
      subst same
      exact Or.inr (Or.inl ⟨moving, waits, ready⟩)
    · exact Or.inr (Or.inr (all c worker equal))
  · exact Or.inl (inv.fresh c after)

/-! Every core gets on until core 0 is at `_crt0`. -/

def rank : Place → Nat
  | .parked => 0
  | .start => 0
  | .multicoreStart => 1
  | .alreadyEl2 => 2
  | .startKernel => 3
  | .count => 4
  | .counted _ => 5
  | .startIdleCoreSpin => 6
  | .idleCoreSpin => 7
  | .release n => 2 * n + 2
  | .waitAck n => 2 * n + 3
  | .crt0 => 10
  | .loaded _ => 0
  | .task => 0
  | .astray => 0

def progress (s : State) : Nat :=
  rank (s.core 0).place + rank (s.core 1).place + rank (s.core 2).place + rank (s.core 3).place

theorem progress_step (l : Labels) (s : State) {c : Fin 4}
    (further : rank (s.core c).place < rank ((step l s c).core c).place) :
    progress s < progress (step l s c) := by
  have others : ∀ d, d ≠ c → rank ((step l s c).core d).place = rank (s.core d).place := by
    intro d other
    rw [step_other l s other]
  have each : c = 0 ∨ c = 1 ∨ c = 2 ∨ c = 3 := by omega
  unfold progress
  rcases each with rfl | rfl | rfl | rfl
  · have one := others 1 (by decide)
    have two := others 2 (by decide)
    have three := others 3 (by decide)
    omega
  · have zero := others 0 (by decide)
    have two := others 2 (by decide)
    have three := others 3 (by decide)
    omega
  · have zero := others 0 (by decide)
    have one := others 1 (by decide)
    have three := others 3 (by decide)
    omega
  · have zero := others 0 (by decide)
    have one := others 1 (by decide)
    have two := others 2 (by decide)
    omega

theorem moving_further {l : Labels} {s : State} {c : Fin 4} (worker : c ≠ 0)
    (level : Levelled l c (s.core c)) (moving : Moving l s c) :
    rank (s.core c).place < rank ((step l s c).core c).place := by
  obtain ⟨slot, place⟩ := moving
  simp only [List.mem_cons, List.not_mem_nil, or_false] at place
  unfold Levelled at level
  rcases place with place | place | place | place | place | place
  · rw [parked_next place slot, goto_self, place]
    exact Nat.zero_lt_one
  · have el2 : (s.core c).currentEl = 0x8 := by
      rw [place] at level
      exact level
    simp [step_at place, stepAt, el2, goto_self, place, rank]
  · simp [step_at place, stepAt, put_self, place, rank]
  · simp [step_at place, stepAt, worker, goto_self, place, rank]
  · simp [step_at place, stepAt, goto_self, place, rank]
  · simp [step_at place, stepAt, goto_self, place, rank]

theorem main_further {l : Labels} {s : State} (inv : Inv l s) :
    (s.core 0).place = .crt0 ∨ (∃ n, (s.core 0).place = .waitAck n ∧
      s.coresReady ≠ BitVec.ofNat 32 (n + 1)) ∨
      rank (s.core 0).place < rank ((step l s 0).core 0).place := by
  have level := inv.level 0
  have main := inv.main
  unfold Levelled at level
  generalize place : (s.core 0).place = p at main level
  cases main with
  | start => simp [step_at place, stepAt, goto_self, rank]
  | multicoreStart =>
    have el2 : (s.core 0).currentEl = 0x8 := level
    simp [step_at place, stepAt, el2, goto_self, rank]
  | alreadyEl2 => simp [step_at place, stepAt, put_self, rank]
  | startKernel => simp [step_at place, stepAt, goto_self, rank]
  | release n first last => simp [step_at place, stepAt, goto_self, rank]
  | waitAck n first last =>
    by_cases acked : s.coresReady = BitVec.ofNat 32 (n + 1)
    · right
      right
      simp only [step_at place, stepAt, acked, ↓reduceIte, goto_self]
      split_ifs with all
      · rw [all]
        decide
      · simp [rank]
        omega
    · exact Or.inr (Or.inl ⟨n, rfl, acked⟩)
  | crt0 => exact Or.inl rfl

theorem step_grows {l : Labels} (s : State) (c : Fin 4) (inv : Inv l s) :
    step l s c = s ∨ progress s < progress (step l s c) := by
  by_cases main : c = 0
  · subst main
    rcases main_further inv with place | ⟨n, place, early⟩ | further
    · exact Or.inl (by simp only [step_at place, stepAt])
    · exact Or.inl (by simp only [step_at place, stepAt, early, ↓reduceIte])
    · exact Or.inr (progress_step l s further)
  · rcases worker_cases inv main with fresh | ⟨moving, -⟩ | arrived
    · exact Or.inl (fresh_waits l fresh)
    · exact Or.inr (progress_step l s (moving_further main (inv.level c) moving))
    · rcases arrived with ⟨place, slot⟩ | ⟨place, slot⟩
      · right
        apply progress_step
        simp [step_at place, stepAt, goto_self, place, rank]
      · exact Or.inl (by simp only [step_at place, stepAt, slot, ↓reduceIte])

theorem some_moves {l : Labels} (s : State) (inv : Inv l s) (early : ¬ (s.core 0).place = .crt0) :
    ∃ c, step l s c ≠ s := by
  have stays : ∀ c, rank (s.core c).place < rank ((step l s c).core c).place → step l s c ≠ s := by
    intro c further same
    rw [same] at further
    exact lt_irrefl _ further
  rcases main_further inv with place | ⟨n, place, waits⟩ | further
  · exact absurd place early
  · rcases inv.turn with ⟨c, worker, -, moving, -⟩ | ⟨-, ready⟩
    · exact ⟨c, stays c (moving_further worker (inv.level c) moving)⟩
    · rw [place] at ready
      exact absurd (ready (by simp)) waits
  · exact ⟨0, stays 0 further⟩

theorem there_kept {l : Labels} (s : State) (c : Fin 4) (there : (s.core 0).place = .crt0) :
    ((step l s c).core 0).place = .crt0 := by
  by_cases main : 0 = c
  · subst main
    simp only [step_at there, stepAt, there]
  · rw [step_other l s main]
    exact there

theorem progress_small {l : Labels} (s : State) (inv : Inv l s)
    (early : ¬ (s.core 0).place = .crt0) : progress s < 31 := by
  have workers : ∀ c, c ≠ 0 → rank (s.core c).place ≤ 7 := by
    intro c worker
    rcases worker_cases inv worker with fresh | ⟨⟨-, place⟩, -⟩ | ⟨place, -⟩ | ⟨place, -⟩
    · rw [fresh.1]
      decide
    · simp only [List.mem_cons, List.not_mem_nil, or_false] at place
      rcases place with place | place | place | place | place | place <;>
        (rw [place]; simp [rank])
    · rw [place]
      decide
    · rw [place]
      decide
  have main : rank (s.core 0).place ≤ 9 := by
    have main := inv.main
    generalize (s.core 0).place = p at main early
    cases main with
    | release n first last =>
      show 2 * n + 2 ≤ 9
      omega
    | waitAck n first last =>
      show 2 * n + 3 ≤ 9
      omega
    | crt0 => exact absurd rfl early
    | _ => decide
  have one := workers 1 (by decide)
  have two := workers 2 (by decide)
  have three := workers 3 (by decide)
  unfold progress
  omega

/-! What the start leaves. -/

def up : Place → Bool
  | .startIdleCoreSpin | .idleCoreSpin => true
  | _ => false

def arrivals (s : State) : Nat := ([1, 2, 3] : List (Fin 4)).countP fun c => up (s.core c).place

/-- No core strays, no increment is lost, and each core is at EL1 on stacks of its own. -/
structure Orderly (l : Labels) (s : State) : Prop where
  known : ∀ c, (s.core c).place ≠ .astray
  alone : ∀ c d w0 w0', (s.core c).place = .counted w0 → (s.core d).place = .counted w0' → c = d
  count : (s.core 0).place ≠ .start → s.coresReady = BitVec.ofNat 32 (1 + arrivals s)
  last : (s.core 0).place = .crt0 → s.coresReady = 4 ∧ ∀ c, c ≠ 0 → Arrived l s c
  kernel : ∀ c, Entered (s.core c).place → InKernel l c (s.core c)

theorem worker_up {l : Labels} {s : State} (inv : Inv l s) {c : Fin 4} (worker : c ≠ 0) :
    up (s.core c).place = true ↔ Arrived l s c := by
  constructor
  · intro counted
    rcases worker_cases inv worker with fresh | ⟨⟨-, place⟩, -⟩ | arrived
    · rw [fresh.1] at counted
      cases counted
    · simp only [List.mem_cons, List.not_mem_nil, or_false] at place
      rcases place with place | place | place | place | place | place <;>
        (rw [place] at counted; cases counted)
    · exact arrived
  · rintro (⟨place, -⟩ | ⟨place, -⟩) <;> (rw [place]; rfl)

theorem arrivals_count {l : Labels} {s : State} (inv : Inv l s)
    (begun : (s.core 0).place ≠ .start) : s.coresReady = BitVec.ofNat 32 (1 + arrivals s) := by
  have above : ∀ c : Fin 4, c ≠ 0 → released (s.core 0).place < c →
      up (s.core c).place = false := by
    intro c worker after
    rw [(inv.fresh c after).1]
    rfl
  have below : ∀ c : Fin 4, c ≠ 0 → c < released (s.core 0).place → up (s.core c).place = true :=
    fun c worker before => (worker_up inv worker).mpr (inv.arrived c worker before)
  have three := released_le inv.main
  rcases inv.turn with ⟨c, worker, waits, moving, ready⟩ | ⟨all, ready⟩
  · have still : up (s.core c).place = false := by
      rw [Bool.eq_false_iff]
      intro counted
      exact arrived_still ((worker_up inv worker).mp counted) moving
    rw [waits] at above below
    rw [ready]
    congr 1
    unfold arrivals
    have each : c = 1 ∨ c = 2 ∨ c = 3 := by omega
    rcases each with rfl | rfl | rfl
    · simp [still, above 2 (by decide) (by decide), above 3 (by decide) (by decide)]
    · simp [still, below 1 (by decide) (by decide), above 3 (by decide) (by decide)]
    · simp [still, below 1 (by decide) (by decide), below 2 (by decide) (by decide)]
  · have here : ∀ c : Fin 4, c ≠ 0 → c = released (s.core 0).place →
        up (s.core c).place = true :=
      fun c worker equal => (worker_up inv worker).mpr (all c worker equal)
    rw [ready begun]
    generalize released (s.core 0).place = n at above below here three
    congr 1
    unfold arrivals
    have each : n = 0 ∨ n = 1 ∨ n = 2 ∨ n = 3 := by omega
    rcases each with rfl | rfl | rfl | rfl
    · simp [above 1 (by decide) (by decide), above 2 (by decide) (by decide),
        above 3 (by decide) (by decide)]
    · simp [here 1 (by decide) rfl, above 2 (by decide) (by decide),
        above 3 (by decide) (by decide)]
    · simp [below 1 (by decide) (by decide), here 2 (by decide) rfl,
        above 3 (by decide) (by decide)]
    · simp [below 1 (by decide) (by decide), below 2 (by decide) (by decide),
        here 3 (by decide) rfl]

theorem place_known {l : Labels} {s : State} (inv : Inv l s) (c : Fin 4) :
    (s.core c).place ≠ .astray ∧
      ∀ w0, (s.core c).place = .counted w0 → c ≠ 0 ∧ (s.core 0).place = .waitAck c := by
  by_cases main : c = 0
  · subst main
    have main := inv.main
    generalize (s.core 0).place = p at main
    cases main <;> simp
  · rcases worker_cases inv main with fresh | ⟨⟨-, place⟩, waits, -⟩ | ⟨place, -⟩ | ⟨place, -⟩
    · simp [fresh.1]
    · refine ⟨?_, fun w0 _ => ⟨main, waits⟩⟩
      rintro astray
      simp [astray] at place
    · simp [place]
    · simp [place]

theorem inv_orderly {l : Labels} {s : State} (inv : Inv l s) : Orderly l s := by
  refine ⟨fun c => (place_known inv c).1, ?_, arrivals_count inv, ?_, ?_⟩
  · intro c d w0 w0' first second
    have one := ((place_known inv c).2 w0 first).2
    have two := ((place_known inv d).2 w0' second).2
    rw [one] at two
    injection two with same
    exact Fin.ext same
  · intro there
    obtain ⟨all, ready⟩ := inv_settled inv (by simp [there])
    rw [there] at all ready
    refine ⟨ready (by simp), ?_⟩
    intro c worker
    have near : (c : Nat) ≤ 3 := by omega
    rcases Nat.lt_or_eq_of_le near with less | equal
    · exact inv.arrived c worker (by rw [there]; exact less)
    · exact all c worker equal
  · intro c inside
    have level := inv.level c
    rw [Levelled, if_pos inside] at level
    exact level

/-- However the cores take turns, their start is orderly, and it is over after 31 rounds in which
    each has a turn. -/
theorem cores_start (l : Labels) {s : State} (on : PoweredOn s) :
    (∀ as : List (Fin 4), Orderly l (run (step l) s as)) ∧
      ∀ rounds : List (List (Fin 4)), (∀ r ∈ rounds, ∀ c, c ∈ r) → 31 ≤ rounds.length →
        ((run (step l) s rounds.flatten).core 0).place = .crt0 := by
  constructor
  · exact fun as => inv_orderly (run_inv l on as)
  · intro rounds fair enough
    exact @rounds_done _ _ (step l) (Inv l) (fun s => (s.core 0).place = .crt0) progress
      step_grows step_inv (fun s c _ there => there_kept s c there) some_moves _ progress_small
      rounds fair enough s (poweredOn_inv l on)

def atReset : State :=
  ⟨7, fun _ => 0, fun c => ⟨if c = 0 then .start else .parked, 0x8, fun _ => 0⟩⟩

theorem atReset_on : PoweredOn atReset := by
  constructor
  · rfl
  · decide
  · exact fun _ _ => rfl
  · exact fun _ => rfl

def sampleLabels : Labels := ⟨0x80010, 0x80090, 0x81000, 0x81800, by decide⟩

theorem cores_start_sample :
    (∀ as : List (Fin 4), Orderly sampleLabels (run (step sampleLabels) atReset as)) ∧
      ∀ rounds : List (List (Fin 4)), (∀ r ∈ rounds, ∀ c, c ∈ r) → 31 ≤ rounds.length →
        ((run (step sampleLabels) atReset rounds.flatten).core 0).place = .crt0 :=
  cores_start sampleLabels atReset_on

end Boot
