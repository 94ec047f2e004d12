import Mathlib.Data.Fintype.Card
import Mathlib.Algebra.Group.Nat.Defs
import Mathlib.Algebra.GroupWithZero.Nat
import Mathlib.Algebra.Ring.Int.Defs

/-!
The constants of `arch.h`, the wrap-around of the machine's unsigned types on
`Nat`, and the timer types the drivers share.
-/
namespace Arch

abbrev maxDevices : Nat := 4

abbrev ilLines : Nat := 4

instance four_neZero : NeZero 4 := ⟨by decide⟩

def u32 (n : Nat) : Nat := n % 2 ^ 32

def u64 (n : Nat) : Nat := n % 2 ^ 64

/-- An `unsigned int` taken for an `int`. -/
def i32 (n : Nat) : Int := if u32 n < 2 ^ 31 then u32 n else (u32 n : Int) - 2 ^ 32

inductive TimerType where
  | unallocated
  | printer
  | tape
  | disk
  deriving DecidableEq, Repr

instance : Fintype TimerType where
  elems := {.unallocated, .printer, .tape, .disk}
  complete := by intro t; cases t <;> decide

theorem u32_lt (n : Nat) : u32 n < 2 ^ 32 := Nat.mod_lt _ (by decide)

theorem u32_of_lt {n : Nat} (small : n < 2 ^ 32) : u32 n = n := Nat.mod_eq_of_lt small

theorem u64_of_lt {n : Nat} (small : n < 2 ^ 64) : u64 n = n := Nat.mod_eq_of_lt small

theorem i32_of_lt {n : Nat} (small : n < 2 ^ 31) : i32 n = n := by
  unfold i32
  rw [u32_of_lt (by omega), if_pos small]

theorem i32_le (n : Nat) : i32 n ≤ n := by
  unfold i32 u32
  split_ifs <;> omega

theorem i32_neg {n : Nat} (high : 2 ^ 31 ≤ n) (word : n < 2 ^ 32) : i32 n < 0 := by
  unfold i32
  rw [u32_of_lt word, if_neg (by omega)]
  omega

end Arch
