import MaldOS.Library.Runs
import MaldOS.Library.Words
import Mathlib.Data.Fin.Basic
import Mathlib.Algebra.GroupWithZero.Nat
import Mathlib.Algebra.Ring.Int.Defs

/-!
Straight pieces of AArch64 code at EL1 and EL2, each with its own stack pointer
selected: the loads, stores and moves that handlers save and restore a context
with. Of the flags only Z is kept; interrupt masks, barriers, alignment checks
and address translation are left out.
-/
namespace Aarch64
open ByteMemory Words

inductive Level where
  | el1
  | el2
  deriving DecidableEq

inductive SysReg where
  | spEl0
  | spEl1
  | spEl2
  | elrEl1
  | elrEl2
  | spsrEl1
  | spsrEl2
  | esrEl1
  | esrEl2
  | ttbr0El1
  | ttbr1El1
  | mpidrEl1
  | sctlrEl1
  deriving DecidableEq

abbrev XReg := Fin 31

instance thirtyOne_neZero : NeZero 31 := ⟨by decide⟩

structure Cpu where
  level : Level
  x : XReg → Word
  sys : SysReg → Word
  zero : Bool
  mem : Memory 64

@[simp] def Level.sp : Level → SysReg
  | .el1 => .spEl1
  | .el2 => .spEl2

@[simp] def Level.elr : Level → SysReg
  | .el1 => .elrEl1
  | .el2 => .elrEl2

@[simp] def Level.spsr : Level → SysReg
  | .el1 => .spsrEl1
  | .el2 => .spsrEl2

/-- What `CurrentEL` reads as. -/
@[simp] def Level.current : Level → Word
  | .el1 => 4
  | .el2 => 8

inductive Reg where
  | x (r : XReg)
  | sp

/-- `[base, #n]`, `[base, #n]!` and `[base], #n` -/
inductive Address where
  | offset (base : Reg) (n : Int)
  | pre (base : Reg) (n : Int)
  | post (base : Reg) (n : Int)

inductive Instr where
  | str (t : XReg) (a : Address)
  | stp (t u : XReg) (a : Address)
  | ldr (t : XReg) (a : Address)
  | ldp (t u : XReg) (a : Address)
  | mrs (t : XReg) (r : SysReg)
  | msr (r : SysReg) (t : XReg)
  | currentEl (t : XReg)
  | mov (d n : Reg)
  | movImm (d : XReg) (n : Word)
  | add (d n : XReg) (k : Word)
  | and (d n : XReg) (k : Word)
  | ands (d n : XReg) (k : Word)
  | lsr (d n : XReg) (k : Nat)
  | madd (d n m a : XReg)
  | cmp (n : XReg) (k : Word)
  /-- `link` is the address of the next instruction. -/
  | bl (link : Word)

def Cpu.sp (s : Cpu) : Word := s.sys s.level.sp

@[simp] def Cpu.setX (s : Cpu) (t : XReg) (v : Word) : Cpu := { s with x := Function.update s.x t v }

@[simp] def Cpu.setSys (s : Cpu) (r : SysReg) (v : Word) : Cpu := { s with sys := Function.update s.sys r v }

@[simp] def Cpu.get (s : Cpu) : Reg → Word
  | .x r => s.x r
  | .sp => s.sp

@[simp] def Cpu.put (s : Cpu) : Reg → Word → Cpu
  | .x r, v => s.setX r v
  | .sp, v => s.setSys s.level.sp v

@[simp] def shift (p : Word) (n : Int) : Word :=
  if n < 0 then p - BitVec.ofNat 64 n.natAbs else p + BitVec.ofNat 64 n.natAbs

@[simp] def Cpu.place (s : Cpu) : Address → Word
  | .offset base n => shift (s.get base) n
  | .pre base n => shift (s.get base) n
  | .post base _ => s.get base

@[simp] def Cpu.writeBack (s : Cpu) : Address → Cpu
  | .offset _ _ => s
  | .pre base n => s.put base (shift (s.get base) n)
  | .post base n => s.put base (shift (s.get base) n)

@[simp] def Cpu.exec (s : Cpu) : Instr → Cpu
  | .str t a => { s.writeBack a with mem := storeWords s.mem (s.place a) [s.x t] }
  | .stp t u a => { s.writeBack a with mem := storeWords s.mem (s.place a) [s.x t, s.x u] }
  | .ldr t a => (s.writeBack a).setX t (word s.mem (s.place a))
  | .ldp t u a =>
    ((s.writeBack a).setX t (word s.mem (s.place a))).setX u (word s.mem (s.place a + 8))
  | .mrs t r => s.setX t (s.sys r)
  | .msr r t => s.setSys r (s.x t)
  | .currentEl t => s.setX t s.level.current
  | .mov d n => s.put d (s.get n)
  | .movImm d n => s.setX d n
  | .add d n k => s.setX d (s.x n + k)
  | .and d n k => s.setX d (s.x n &&& k)
  | .ands d n k => { s.setX d (s.x n &&& k) with zero := s.x n &&& k = 0 }
  | .lsr d n k => s.setX d (s.x n >>> k)
  | .madd d n m a => s.setX d (s.x n * s.x m + s.x a)
  | .cmp n k => { s with zero := s.x n = k }
  | .bl link => s.setX 30 link

def Cpu.run (s : Cpu) (code : List Instr) : Cpu := Runs.run Cpu.exec s code

/-- What an exception interrupts and `eret` goes on with. -/
structure Context where
  x : XReg → Word
  sp : Word
  pc : Word
  ttbr0 : Word
  pstate : Word

def Context.AtEl0 (c : Context) : Prop := c.pstate &&& 0xF = 0

def Context.AtEl1h (c : Context) : Prop := c.pstate &&& 0xF = 5

/-- The stack pointer that the mode in a `PSTATE` selects. -/
def modeSp (pstate : Word) : SysReg :=
  if pstate &&& 1 = 0 then .spEl0 else if pstate &&& 8 = 0 then .spEl1 else .spEl2

def Cpu.eret (s : Cpu) : Context where
  x := s.x
  sp := s.sys (modeSp (s.sys s.level.spsr))
  pc := s.sys s.level.elr
  ttbr0 := s.sys .ttbr0El1
  pstate := s.sys s.level.spsr

/-- The state holds what an exception to EL1 keeps of the context. -/
structure Interrupts (c : Context) (s : Cpu) : Prop where
  x : s.x = c.x
  sp : s.sys (modeSp c.pstate) = c.sp
  pc : s.sys .elrEl1 = c.pc
  ttbr0 : s.sys .ttbr0El1 = c.ttbr0
  pstate : s.sys .spsrEl1 = c.pstate

@[simp] theorem run_nil (s : Cpu) : s.run [] = s := rfl

@[simp] theorem run_cons (s : Cpu) (i : Instr) (code : List Instr) :
    s.run (i :: code) = (s.exec i).run code := rfl

theorem run_append (s : Cpu) (as bs : List Instr) : s.run (as ++ bs) = (s.run as).run bs :=
  Runs.run_append Cpu.exec s as bs

/-! What code does to the stack pointer of its level, and to the other system registers. -/

/-- The stack pointer goes up by `n`, and of the others only `rs` are written. -/
structure Moved (n : Int) (rs : List SysReg) (s t : Cpu) : Prop where
  level : t.level = s.level
  sp : t.sp = s.sp + BitVec.ofInt 64 n
  sys : ∀ r, r ≠ s.level.sp → r ∉ rs → t.sys r = s.sys r

@[simp] def Address.moves : Address → Int
  | .pre .sp n => n
  | .post .sp n => n
  | _ => 0

@[simp] def Instr.moves : Instr → Int
  | .str _ a => a.moves
  | .stp _ _ a => a.moves
  | .ldr _ a => a.moves
  | .ldp _ _ a => a.moves
  | _ => 0

@[simp] def Instr.writes : Instr → List SysReg
  | .msr r _ => [r]
  | _ => []

/-- The stack pointer moves only as a base that is written back. -/
@[simp] def Instr.Plain (l : Level) : Instr → Prop
  | .msr r _ => r ≠ l.sp
  | .mov .sp _ => False
  | _ => True

theorem moved_refl (s : Cpu) : Moved 0 [] s s := ⟨rfl, by simp, fun _ _ _ => rfl⟩

theorem Moved.trans {n m : Int} {rs qs : List SysReg} {s t u : Cpu} (first : Moved n rs s t)
    (second : Moved m qs t u) : Moved (n + m) (rs ++ qs) s u := by
  constructor
  · exact second.level.trans first.level
  · rw [second.sp, first.sp, BitVec.ofInt_add, BitVec.add_assoc]
  · intro r other clear
    rw [List.mem_append, not_or] at clear
    rw [second.sys r (by rw [first.level]; exact other) clear.2, first.sys r other clear.1]

theorem Moved.weaken {n : Int} {rs qs : List SysReg} {s t : Cpu} (moved : Moved n rs s t)
    (more : rs ⊆ qs) : Moved n qs s t :=
  ⟨moved.level, moved.sp, fun r other clear => moved.sys r other fun member => clear (more member)⟩

theorem shift_eq (p : Word) (n : Int) : shift p n = p + BitVec.ofInt 64 n := by
  unfold shift
  split_ifs with negative
  · obtain ⟨k, rfl⟩ : ∃ k : Nat, n = -k := ⟨n.natAbs, by omega⟩
    rw [BitVec.ofInt_neg, BitVec.sub_eq_add_neg, Int.natAbs_neg, Int.natAbs_natCast,
      BitVec.ofInt_natCast]
  · obtain ⟨k, rfl⟩ : ∃ k : Nat, n = k := ⟨n.natAbs, by omega⟩
    rw [Int.natAbs_natCast, BitVec.ofInt_natCast]

theorem writeBack_moved (s : Cpu) (a : Address) : Moved a.moves [] s (s.writeBack a) := by
  have zero (t : Cpu) (level : t.level = s.level) (sys : t.sys = s.sys) : Moved 0 [] s t := by
    refine ⟨level, ?_, fun r _ _ => by rw [sys]⟩
    rw [Cpu.sp, level, sys]
    simp [Cpu.sp]
  have moved (n : Int) : Moved n [] s (s.put .sp (shift s.sp n)) := by
    refine ⟨rfl, ?_, fun r other _ => Function.update_of_ne other _ _⟩
    rw [← shift_eq]
    exact Function.update_self _ _ _
  cases a with
  | offset base n => exact zero _ rfl rfl
  | pre base n =>
    cases base with
    | x r => exact zero _ rfl rfl
    | sp => exact moved n
  | post base n =>
    cases base with
    | x r => exact zero _ rfl rfl
    | sp => exact moved n

theorem exec_moved (s : Cpu) {i : Instr} (plain : i.Plain s.level) :
    Moved i.moves i.writes s (s.exec i) := by
  have same (t : Cpu) (level : t.level = s.level) (sys : t.sys = s.sys) : Moved 0 [] s t := by
    refine ⟨level, ?_, fun r _ _ => by rw [sys]⟩
    rw [Cpu.sp, level, sys]
    simp [Cpu.sp]
  cases i with
  | str t a =>
    obtain ⟨level, sp, sys⟩ := writeBack_moved s a
    exact ⟨level, sp, sys⟩
  | stp t u a =>
    obtain ⟨level, sp, sys⟩ := writeBack_moved s a
    exact ⟨level, sp, sys⟩
  | ldr t a =>
    obtain ⟨level, sp, sys⟩ := writeBack_moved s a
    exact ⟨level, sp, sys⟩
  | ldp t u a =>
    obtain ⟨level, sp, sys⟩ := writeBack_moved s a
    exact ⟨level, sp, sys⟩
  | msr r t =>
    refine ⟨rfl, ?_, ?_⟩
    · have own : (s.setSys r (s.x t)).sp = s.sp := Function.update_of_ne (Ne.symm plain) _ _
      simpa using own
    · intro q _ clear
      exact Function.update_of_ne (fun equal => clear (by rw [equal]; exact List.mem_singleton_self r)) _ _
  | mov d n =>
    cases d with
    | x r => exact same _ rfl rfl
    | sp => exact absurd plain id
  | _ => exact same _ rfl rfl

theorem run_moved (code : List Instr) (s : Cpu) (plain : ∀ i ∈ code, i.Plain s.level) :
    Moved (code.map Instr.moves).sum (code.flatMap Instr.writes) s (s.run code) := by
  induction code generalizing s with
  | nil => exact moved_refl s
  | cons i code ih =>
    have first := exec_moved s (plain i List.mem_cons_self)
    have rest := ih (s.exec i) fun j member => by
      rw [first.level]
      exact plain j (List.mem_cons_of_mem i member)
    have both := first.trans rest
    simpa using both

theorem run_moves {code : List Instr} {s : Cpu} {n : Int} {rs : List SysReg}
    (plain : ∀ i ∈ code, i.Plain s.level) (sum : (code.map Instr.moves).sum = n)
    (written : code.flatMap Instr.writes = rs) : Moved n rs s (s.run code) := by
  rw [← sum, ← written]
  exact run_moved code s plain

/-! Pairs of registers stored or loaded one after the other. -/

def stpChain (r : XReg) (pairs : List (XReg × XReg)) : List Instr :=
  pairs.map fun p => .stp p.1 p.2 (.pre (.x r) 16)

def ldpChain (r : XReg) (pairs : List (XReg × XReg)) : List Instr :=
  pairs.map fun p => .ldp p.1 p.2 (.pre (.x r) 16)

def registers (pairs : List (XReg × XReg)) : List XReg := pairs.flatMap fun p => [p.1, p.2]

def assign (x : XReg → Word) : List XReg → List Word → XReg → Word
  | r :: rs, v :: vs => assign (Function.update x r v) rs vs
  | _, _ => x

theorem registers_length (pairs : List (XReg × XReg)) :
    (registers pairs).length = 2 * pairs.length := by
  induction pairs with
  | nil => rfl
  | cons p pairs ih =>
    simp only [registers, List.flatMap_cons, List.length_append, List.length_cons, List.length_nil]
      at ih ⊢
    omega

theorem map_update {x : XReg → Word} {r : XReg} {v : Word} {rs : List XReg} (clear : r ∉ rs) :
    rs.map (Function.update x r v) = rs.map x := by
  apply List.map_congr_left
  intro q member
  exact Function.update_of_ne (fun same : q = r => clear (same ▸ member)) _ _

theorem next_base (a : Word) (n : Nat) :
    a + 16 + BitVec.ofNat 64 (16 * n) = a + BitVec.ofNat 64 (16 * (n + 1)) := by
  rw [BitVec.add_assoc, Nat.mul_succ, Nat.add_comm, BitVec.ofNat_add]
  rfl

/-- A chain of stores writes the registers as one row. -/
theorem run_stpChain {r : XReg} (pairs : List (XReg × XReg)) {s : Cpu}
    (clear : r ∉ registers pairs) (room : 16 * pairs.length ≤ 2 ^ 64) :
    s.run (stpChain r pairs) = { s with
      x := Function.update s.x r (s.x r + BitVec.ofNat 64 (16 * pairs.length))
      mem := storeWords s.mem (s.x r + 16) ((registers pairs).map s.x) } := by
  induction pairs generalizing s with
  | nil =>
    simp [stpChain, Cpu.run, Runs.run, registers, storeWords_nil]
  | cons p pairs ih =>
    have clear' : r ∉ registers pairs := fun member => clear (List.mem_append_right _ member)
    have step : s.run (stpChain r (p :: pairs)) = Cpu.run { s with
        x := Function.update s.x r (s.x r + 16)
        mem := storeWords s.mem (s.x r + 16) [s.x p.1, s.x p.2] } (stpChain r pairs) := rfl
    rw [List.length_cons] at room ⊢
    rw [step, ih clear' (by omega)]
    simp only [Function.update_self, Function.update_idem, map_update clear']
    have next : s.x r + 16 + 16 = s.x r + 16 + BitVec.ofNat 64 (8 * [s.x p.1, s.x p.2].length) := rfl
    rw [next, storeWords_append, next_base]
    · rfl
    · rw [List.length_map, registers_length, List.length_cons, List.length_singleton]
      omega

theorem run_stpRow {r u v : XReg} (pairs : List (XReg × XReg)) {s : Cpu}
    (clear : r ∉ registers ((u, v) :: pairs)) (room : 16 * (pairs.length + 1) ≤ 2 ^ 64) :
    s.run (.stp u v (.offset (.x r) 0) :: stpChain r pairs) = { s with
      x := Function.update s.x r (s.x r + BitVec.ofNat 64 (16 * pairs.length))
      mem := storeWords s.mem (s.x r) ((registers ((u, v) :: pairs)).map s.x) } := by
  have clear' : r ∉ registers pairs := fun member => clear (List.mem_append_right _ member)
  have first : s.exec (.stp u v (.offset (.x r) 0)) =
      { s with mem := storeWords s.mem (s.x r) [s.x u, s.x v] } := by simp
  rw [run_cons, first, run_stpChain pairs clear' (by omega)]
  have next : s.x r + 16 = s.x r + BitVec.ofNat 64 (8 * [s.x u, s.x v].length) := rfl
  dsimp only
  rw [next, storeWords_append]
  · rfl
  · rw [List.length_map, registers_length, List.length_cons, List.length_singleton]
    omega

theorem run_ldpChain {r : XReg} (pairs : List (XReg × XReg)) {s : Cpu} {ws : List Word}
    (clear : r ∉ registers pairs) (holds : Holds s.mem (s.x r + 16) ws)
    (same : ws.length = 2 * pairs.length) :
    s.run (ldpChain r pairs) = { s with
      x := assign (Function.update s.x r (s.x r + BitVec.ofNat 64 (16 * pairs.length)))
        (registers pairs) ws } := by
  induction pairs generalizing s ws with
  | nil => simp [ldpChain, Cpu.run, Runs.run, registers, assign]
  | cons p pairs ih =>
    have two : 1 < ws.length := by
      rw [same, List.length_cons]
      omega
    obtain ⟨v, ws, rfl⟩ := List.exists_cons_of_length_pos (by omega : 0 < ws.length)
    obtain ⟨u, rest, rfl⟩ := List.exists_cons_of_length_pos (Nat.lt_of_succ_lt_succ two)
    have clear' : r ∉ registers pairs := fun member => clear (List.mem_append_right _ member)
    have apart : r ≠ p.1 ∧ r ≠ p.2 := by
      constructor
      · exact fun equal => clear (equal ▸ List.mem_cons_self)
      · exact fun equal => clear (equal ▸ List.mem_cons_of_mem _ List.mem_cons_self)
    obtain ⟨first, holds⟩ := (holds_cons _ _ _ _).mp holds
    obtain ⟨second, holds⟩ := (holds_cons _ _ _ _).mp holds
    have step : s.run (ldpChain r (p :: pairs)) = Cpu.run { s with
        x := Function.update (Function.update (Function.update s.x r (s.x r + 16)) p.1
          (word s.mem (s.x r + 16))) p.2 (word s.mem (s.x r + 16 + BitVec.ofNat 64 8)) }
        (ldpChain r pairs) := rfl
    obtain ⟨x, loaded⟩ : ∃ x, x = Function.update (Function.update (Function.update s.x r
      (s.x r + 16)) p.1 v) p.2 u := ⟨_, rfl⟩
    have base : x r = s.x r + 16 := by
      rw [loaded, Function.update_of_ne apart.2, Function.update_of_ne apart.1,
        Function.update_self]
    have final (b : Word) : Function.update x r b =
        Function.update (Function.update (Function.update s.x r b) p.1 v) p.2 u := by
      rw [loaded, Function.update_comm apart.2.symm, Function.update_comm apart.1.symm,
        Function.update_idem]
    have above : s.x r + 16 + BitVec.ofNat 64 8 + BitVec.ofNat 64 8 = s.x r + 16 + 16 := by
      rw [BitVec.add_assoc (s.x r + 16)]
      rfl
    rw [above, ← base] at holds
    have rest_length : rest.length = 2 * pairs.length := by
      simp only [List.length_cons] at same
      omega
    rw [step, first, second, ← loaded]
    have onward := @ih { s with x := x } _ clear' holds rest_length
    dsimp only at onward
    rw [onward, base, final, List.length_cons, next_base]
    rfl

theorem assign_other {x : XReg → Word} {rs : List XReg} {vs : List Word} {q : XReg}
    (other : q ∉ rs) : assign x rs vs q = x q := by
  induction rs generalizing x vs with
  | nil => rfl
  | cons r rs ih =>
    cases vs with
    | nil => rfl
    | cons v vs =>
      rw [List.mem_cons, not_or] at other
      rw [assign, ih other.2, Function.update_of_ne other.1]

theorem assign_at {x : XReg → Word} {rs : List XReg} {vs : List Word} (distinct : rs.Nodup)
    {i : Nat} {r : XReg} {v : Word} (named : rs[i]? = some r) (given : vs[i]? = some v) :
    assign x rs vs r = v := by
  induction rs generalizing x vs i with
  | nil => cases named
  | cons q rs ih =>
    cases vs with
    | nil => cases given
    | cons u vs =>
      rw [List.nodup_cons] at distinct
      cases i with
      | zero =>
        cases named
        cases given
        rw [assign, assign_other distinct.1, Function.update_self]
      | succ i => exact ih distinct.2 named given

/-! Pairs of registers on the stack. -/

def pushes (pairs : List (XReg × XReg)) : List Instr :=
  pairs.map fun p => .stp p.1 p.2 (.pre .sp (-16))

def pops (pairs : List (XReg × XReg)) : List Instr :=
  pairs.map fun p => .ldp p.1 p.2 (.post .sp 16)

theorem registers_append (ps qs : List (XReg × XReg)) :
    registers (ps ++ qs) = registers ps ++ registers qs := List.flatMap_append

/-- Pushed pairs lie above each other, the last one lowest. -/
theorem run_pushes (pairs : List (XReg × XReg)) {s : Cpu} {ws : List Word}
    (holds : Holds s.mem s.sp ws)
    (room : 16 * pairs.length + 8 * ws.length ≤ 2 ^ 64) :
    (s.run (pushes pairs)).x = s.x ∧
      Holds (s.run (pushes pairs)).mem (s.run (pushes pairs)).sp
        ((registers pairs.reverse).map s.x ++ ws) := by
  induction pairs generalizing s ws with
  | nil => exact ⟨rfl, holds⟩
  | cons p pairs ih =>
    rw [List.length_cons] at room
    obtain ⟨t, pushed⟩ : ∃ t, t = s.exec (.stp p.1 p.2 (.pre .sp (-16))) := ⟨_, rfl⟩
    have x : t.x = s.x := by rw [pushed]; rfl
    have sp : t.sp = s.sp - 16 := by
      rw [pushed]
      exact Function.update_self _ _ _
    have mem : t.mem = storeWords s.mem (s.sp - 16) [s.x p.1, s.x p.2] := by
      rw [pushed]
      rfl
    have here : Holds t.mem t.sp ([s.x p.1, s.x p.2] ++ ws) := by
      rw [mem, sp]
      refine holds_push _ holds ?_ ?_
      · exact BitVec.sub_add_cancel s.sp 16
      · simp only [List.length_cons, List.length_nil]
        omega
    obtain ⟨same, below⟩ := ih here (by
      simp only [List.length_append, List.length_cons, List.length_nil]
      omega)
    have step : s.run (pushes (p :: pairs)) = t.run (pushes pairs) := by rw [pushed]; rfl
    rw [step]
    refine ⟨same.trans x, ?_⟩
    rw [x, ← List.append_assoc] at below
    rw [List.reverse_cons, registers_append, List.map_append]
    exact below

theorem run_pops (pairs : List (XReg × XReg)) {s : Cpu} {y : XReg → Word} {ws : List Word}
    (holds : Holds s.mem s.sp ((registers pairs).map y ++ ws)) :
    (∀ q, (s.run (pops pairs)).x q = if q ∈ registers pairs then y q else s.x q) ∧
      (s.run (pops pairs)).mem = s.mem ∧ Holds s.mem (s.run (pops pairs)).sp ws := by
  induction pairs generalizing s with
  | nil => exact ⟨fun q => rfl, rfl, holds⟩
  | cons p pairs ih =>
    have row : (registers (p :: pairs)).map y ++ ws =
        y p.1 :: y p.2 :: ((registers pairs).map y ++ ws) := rfl
    rw [row] at holds
    obtain ⟨first, holds⟩ := (holds_cons _ _ _ _).mp holds
    obtain ⟨second, holds⟩ := (holds_cons _ _ _ _).mp holds
    obtain ⟨t, popped⟩ : ∃ t, t = s.exec (.ldp p.1 p.2 (.post .sp 16)) := ⟨_, rfl⟩
    have x : t.x = Function.update (Function.update s.x p.1 (y p.1)) p.2 (y p.2) := by
      rw [popped, ← first, ← second]
      rfl
    have sp : t.sp = s.sp + 16 := by
      rw [popped]
      exact Function.update_self _ _ _
    have mem : t.mem = s.mem := by rw [popped]; rfl
    have above : s.sp + BitVec.ofNat 64 8 + BitVec.ofNat 64 8 = t.sp := by
      rw [sp, BitVec.add_assoc]
      rfl
    rw [above, ← mem] at holds
    obtain ⟨loaded, memory, rest⟩ := ih holds
    have step : s.run (pops (p :: pairs)) = t.run (pops pairs) := by rw [popped]; rfl
    rw [step, memory, mem]
    rw [mem] at rest
    refine ⟨?_, rfl, rest⟩
    intro q
    have members : registers (p :: pairs) = p.1 :: p.2 :: registers pairs := rfl
    rw [loaded, x, members]
    by_cases later : q ∈ registers pairs
    · simp [later]
    · by_cases upper : q = p.2
      · simp [upper]
      · by_cases lower : q = p.1
        · rw [if_neg later, Function.update_of_ne upper, lower, Function.update_self,
            if_pos List.mem_cons_self]
        · simp [later, lower, upper]

end Aarch64
