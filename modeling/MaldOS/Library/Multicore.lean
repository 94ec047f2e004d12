import MaldOS.Library.Aarch64

/-!
Cores that take turns with single instructions over one memory, and the bytes
that an instruction stores to.
-/
namespace Multicore
open ByteMemory Words Aarch64

variable {n : Nat}

/-- The memory that a core has in its own record is not used. -/
structure Machine (n : Nat) where
  mem : Memory 64
  core : Fin n → Cpu

def Machine.cpu (s : Machine n) (c : Fin n) : Cpu := { s.core c with mem := s.mem }

def Machine.exec (s : Machine n) (c : Fin n) (i : Instr) : Machine n where
  mem := ((s.cpu c).exec i).mem
  core := Function.update s.core c ((s.cpu c).exec i)

def Stores (s : Cpu) (x : Word) : Instr → Prop
  | .str _ a => (x - s.place a).toNat < 8
  | .stp _ _ a => (x - s.place a).toNat < 16
  | _ => False

theorem put_mem (s : Cpu) (r : Reg) (v : Word) : (s.put r v).mem = s.mem := by
  cases r <;> rfl

theorem writeBack_mem (s : Cpu) (a : Address) : (s.writeBack a).mem = s.mem := by
  cases a with
  | offset base n => rfl
  | pre base n => exact put_mem s base _
  | post base n => exact put_mem s base _

theorem storeWords_elsewhere {m : Memory 64} {a x : Word} {ws : List Word}
    (outside : 8 * ws.length ≤ (x - a).toNat) : storeWords m a ws x = m x := by
  unfold storeWords
  exact store_outside m a _ x (by rwa [encode_length])

theorem exec_elsewhere {s : Cpu} {i : Instr} {x : Word} (spared : ¬ Stores s x i) :
    (s.exec i).mem x = s.mem x := by
  cases i with
  | str t a => exact storeWords_elsewhere (Nat.le_of_not_lt spared)
  | stp t u a => exact storeWords_elsewhere (Nat.le_of_not_lt spared)
  | ldr t a => exact congrFun (writeBack_mem s a) x
  | ldp t u a => exact congrFun (writeBack_mem s a) x
  | mov d n => exact congrFun (put_mem s d _) x
  | _ => rfl

theorem exec_others {s : Machine n} {c d : Fin n} (other : d ≠ c) (i : Instr) :
    (s.exec c i).core d = s.core d := Function.update_of_ne other _ _

theorem exec_self (s : Machine n) (c : Fin n) (i : Instr) :
    (s.exec c i).core c = (s.cpu c).exec i := Function.update_self _ _ _

end Multicore
