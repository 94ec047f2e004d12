import Mathlib.Data.Nat.Digits.Lemmas

/-!
Numbers written with the digits of a base, from the highest on. Zero is written
with one digit.
-/
namespace Numerals

def lowDigits (base value : Nat) : List Nat :=
  if value = 0 then [0] else Nat.digits base value

def numeral (base value : Nat) : List Nat := (lowDigits base value).reverse

def reading (base : Nat) (digits : List Nat) : Nat := digits.foldl (fun v d => d + base * v) 0

/-- What makes `digits` the numeral of `value`, with no more than `width` digits. -/
structure Writes (base value width : Nat) (digits : List Nat) : Prop where
  below : ∀ d ∈ digits, d < base
  some_digit : digits ≠ []
  short : digits.length ≤ width
  zero_first : digits.head? = some 0 → digits = [0] ∧ value = 0
  read : reading base digits = value

variable {base : Nat}

theorem lowDigits_step (least : 1 < base) (value : Nat) :
    lowDigits base value =
      value % base :: if value / base = 0 then [] else lowDigits base (value / base) := by
  unfold lowDigits
  by_cases zero : value = 0
  · subst zero
    rw [if_pos rfl, Nat.zero_mod, Nat.zero_div, if_pos rfl]
  · rw [if_neg zero, Nat.digits_def' least (Nat.pos_of_ne_zero zero)]
    by_cases last : value / base = 0
    · rw [if_pos last, last, Nat.digits_zero]
    · rw [if_neg last, if_neg last]

theorem lowDigits_ne_nil (base value : Nat) : lowDigits base value ≠ [] := by
  unfold lowDigits
  split
  · exact List.cons_ne_nil 0 []
  · next more => exact Nat.digits_ne_nil_iff_ne_zero.mpr more

theorem lowDigits_below (least : 1 < base) {value d : Nat} (member : d ∈ lowDigits base value) :
    d < base := by
  unfold lowDigits at member
  split at member
  · rw [List.mem_singleton] at member
    omega
  · exact Nat.digits_lt_base least member

theorem lowDigits_length (least : 1 < base) {value width : Nat} (room : 0 < width)
    (bound : value < base ^ width) : (lowDigits base value).length ≤ width := by
  unfold lowDigits
  split
  · exact room
  · exact (Nat.digits_length_le_iff least value).mpr bound

theorem ofDigits_lowDigits (base value : Nat) :
    Nat.ofDigits base (lowDigits base value) = value := by
  unfold lowDigits
  split
  · next zero => rw [zero, Nat.ofDigits_singleton]
  · exact Nat.ofDigits_digits base value

theorem lowDigits_last {value : Nat} (zero : (lowDigits base value).getLast? = some 0) :
    value = 0 := by
  by_contra more
  unfold lowDigits at zero
  rw [if_neg more, List.getLast?_eq_some_getLast (Nat.digits_ne_nil_iff_ne_zero.mpr more)] at zero
  exact Nat.getLast_digit_ne_zero base more (Option.some.inj zero)

theorem reading_numeral (base value : Nat) : reading base (numeral base value) = value := by
  unfold reading numeral
  rw [List.foldl_reverse]
  have same := Nat.ofDigits_eq_foldr base (lowDigits base value)
  rw [ofDigits_lowDigits] at same
  exact same.symm

theorem reading_zeros (base n : Nat) (digits : List Nat) :
    reading base (List.replicate n 0 ++ digits) = reading base digits := by
  induction n with
  | zero => rfl
  | succ n ih => rwa [List.replicate_succ, List.cons_append, reading, List.foldl_cons]

theorem numeral_zero_first {value : Nat} (zero : (numeral base value).head? = some 0) :
    numeral base value = [0] ∧ value = 0 := by
  unfold numeral at zero
  rw [List.head?_reverse] at zero
  have nothing := lowDigits_last zero
  subst nothing
  exact ⟨rfl, rfl⟩

theorem numeral_writes (least : 1 < base) {value width : Nat} (room : 0 < width)
    (bound : value < base ^ width) : Writes base value width (numeral base value) where
  below d member := lowDigits_below least (List.mem_reverse.mp member)
  some_digit := List.reverse_ne_nil_iff.mpr (lowDigits_ne_nil base value)
  short := by
    unfold numeral
    rw [List.length_reverse]
    exact lowDigits_length least room bound
  zero_first := numeral_zero_first
  read := reading_numeral base value

theorem numeral_injective (base : Nat) : Function.Injective (numeral base) := by
  intro value other same
  rw [← reading_numeral base value, same, reading_numeral]

end Numerals
