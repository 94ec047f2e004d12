import MaldOS.Library.ByteMemory
import MaldOS.Library.Numerals
import MaldOS.Library.Texts

/-!
The string functions of `utils.c`. A string that is read is a function of the
offset from its pointer, a string that is written lies in a buffer, whose mark
of an overrun only the writing sets. The lengths are of type `int`: a loop that
counts past them has no result.
-/
namespace Strings
open ByteMemory Slices Texts Numerals

def ascii (s : String) : List Byte := s.toList.map fun c => BitVec.ofNat 8 c.toNat

def literal (l : List Byte) : Nat → Byte := fun i => l.getD i 0

def strlenLoop (str : Nat → Byte) : Nat → Nat → Option Nat
  | 0, _ => none
  | fuel + 1, len => if str len ≠ 0 then strlenLoop str fuel (len + 1) else some len

def strlen (str : Nat → Byte) : Option Nat := strlenLoop str (2 ^ 31) 0

def strcpyLoop (dest : Nat) (src : Nat → Byte) :
    Nat → Nat → Buffer Byte → Option (Nat × Buffer Byte)
  | 0, _, _ => none
  | fuel + 1, len, b =>
    if src len ≠ 0 then strcpyLoop dest src fuel (len + 1) (write b (dest + len) [src len])
    else some (len, write b (dest + len) [src len])

def strcpy (dest : Nat) (src : Nat → Byte) (b : Buffer Byte) : Option (Nat × Buffer Byte) :=
  strcpyLoop dest src (2 ^ 31) 0 b

def mirrored : List Byte :=
  ascii "ZYXWVUTSRQPONMLKJIHGFEDCBA9876543210123456789ABCDEFGHIJKLMNOPQRSTUVWXYZ"

/-- The `do` loop of `itoa`: the pointer behind the digits. -/
def digitLoop (base : Nat) : Nat → Nat → Nat → Buffer Byte → Option (Nat × Buffer Byte)
  | 0, _, _, _ => none
  | fuel + 1, tmpValue, ptr, b =>
    let value := tmpValue / base
    let b := write b ptr [mirrored.getD (35 + (tmpValue - value * base)) 0]
    if value = 0 then some (ptr + 1, b) else digitLoop base fuel value (ptr + 1) b

/-- `while (ptr1 < ptr)` -/
def swapLoop (ptr1 ptr : Nat) (b : Buffer Byte) : Buffer Byte :=
  if ptr1 < ptr then
    let tmpChar := b.get ptr
    let b := write b ptr [b.get ptr1]
    let b := write b ptr1 [tmpChar]
    swapLoop (ptr1 + 1) (ptr - 1) b
  else b
termination_by ptr - ptr1

/-- `value` is a `long unsigned int`: no base has more than 64 digits for it. -/
def itoa (value result : Nat) (base : Int) (b : Buffer Byte) : Option (Nat × Buffer Byte) :=
  if base < 2 ∨ base > 36 then some (result, write b result [0])
  else
    let (result, b) :=
      if base = 16 then (result + 1 + 1, write (write b result [0x30]) (result + 1) [0x78])
      else (result, b)
    (digitLoop base.toNat 64 value result b).map fun (ptr, b) =>
      let b := write b ptr [0]
      (result, swapLoop result (ptr - 1) b)

/-- `0` to `9`, then `A` to `Z` -/
def digitByte (d : Nat) : Byte :=
  if d < 10 then 0x30 + BitVec.ofNat 8 d else 0x41 + BitVec.ofNat 8 (d - 10)

/-- What `itoa` writes before the digits. -/
def basePrefix (base : Nat) : List Byte := if base = 16 then ascii "0x" else []

def digitBytes (base value : Nat) : List Byte := (numeral base value).map digitByte

def rendering (base value : Nat) : List Byte := basePrefix base ++ digitBytes base value

def digitValue (c : Byte) : Nat := if c < 0x41 then c.toNat - 0x30 else c.toNat - 0x41 + 10

def Alphanumeric (c : Byte) : Prop := (0x30 ≤ c ∧ c ≤ 0x39) ∨ (0x41 ≤ c ∧ c ≤ 0x5A)

/-- A string of digits that is the number `value`, without a leading zero. -/
structure Spells (base value : Nat) (digits : List Byte) : Prop where
  alphabet : ∀ c ∈ digits, Alphanumeric c
  below : ∀ c ∈ digits, digitValue c < base
  some_digit : digits ≠ []
  short : digits.length ≤ 64
  zero_first : digits.head? = some 0x30 → digits = [0x30] ∧ value = 0
  read : reading base (digits.map digitValue) = value

theorem strlenLoop_counts {str : Nat → Byte} {n len : Nat} (started : ∀ i < n, str (len + i) ≠ 0)
    (ended : str (len + n) = 0) {fuel : Nat} (room : n < fuel) :
    strlenLoop str fuel len = some (len + n) := by
  induction n generalizing fuel len with
  | zero =>
    obtain ⟨fuel, rfl⟩ := Nat.exists_eq_add_one_of_ne_zero (show fuel ≠ 0 by omega)
    have here : str len = 0 := ended
    unfold strlenLoop
    rw [if_neg (not_not_intro here), Nat.add_zero]
  | succ n ih =>
    obtain ⟨fuel, rfl⟩ := Nat.exists_eq_add_one_of_ne_zero (show fuel ≠ 0 by omega)
    have shift : ∀ i, len + 1 + i = len + (i + 1) := by omega
    have more : str len ≠ 0 := started 0 (by omega)
    unfold strlenLoop
    rw [if_pos more, ih, shift]
    · intro i inside
      rw [shift]
      exact started (i + 1) (by omega)
    · rw [shift]
      exact ended
    · omega

theorem strcpyLoop_copies (dest : Nat) {src : Nat → Byte} {l : List Byte} {len : Nat}
    (same : ∀ i (inside : i < l.length), src (len + i) = l[i]) (started : 0 ∉ l)
    (ended : src (len + l.length) = 0) {fuel : Nat} (room : l.length < fuel) (b : Buffer Byte) :
    strcpyLoop dest src fuel len b = some (len + l.length, write b (dest + len) (l ++ [0])) := by
  induction l generalizing fuel len b with
  | nil =>
    obtain ⟨fuel, rfl⟩ := Nat.exists_eq_add_one_of_ne_zero (show fuel ≠ 0 by omega)
    have zero : src len = 0 := ended
    unfold strcpyLoop
    rw [if_neg (not_not_intro zero), zero]
    rfl
  | cons c l ih =>
    obtain ⟨fuel, rfl⟩ := Nat.exists_eq_add_one_of_ne_zero (show fuel ≠ 0 by omega)
    rw [List.length_cons] at room ended
    have shift : ∀ i, len + 1 + i = len + (i + 1) := by omega
    have first : src len = c := same 0 (by rw [List.length_cons]; omega)
    have more : src len ≠ 0 := by
      intro zero
      exact started (by rw [← zero, first]; exact List.mem_cons_self)
    unfold strcpyLoop
    rw [if_pos more, ih, first, shift, List.length_cons]
    · rw [← Nat.add_assoc dest, List.cons_append, ← List.singleton_append]
      exact congrArg (fun c => some (len + (l.length + 1), c))
        (write_append b (dest + len) [c] (l ++ [0]))
    · intro i inside
      rw [shift, same (i + 1) (by rw [List.length_cons]; omega)]
      rfl
    · exact fun member => started (List.mem_cons_of_mem c member)
    · rw [shift]
      exact ended
    · omega

theorem literal_get {l : List Byte} {i : Nat} (inside : i < l.length) : literal l i = l[i] :=
  List.getD_eq_getElem l 0 inside

theorem literal_end (l : List Byte) : literal l l.length = 0 := by
  unfold literal
  rw [List.getD_eq_default _ _ (Nat.le_refl _)]

theorem strcpy_literal (dest : Nat) {l : List Byte} (started : 0 ∉ l) (room : l.length < 2 ^ 31)
    (b : Buffer Byte) : strcpy dest (literal l) b = some (l.length, write b dest (l ++ [0])) := by
  unfold strcpy
  rw [strcpyLoop_copies dest _ started _ room, Nat.zero_add, Nat.add_zero]
  · intro i inside
    rw [Nat.zero_add]
    exact literal_get inside
  · rw [Nat.zero_add]
    exact literal_end l

theorem strlen_first {l : List Byte} (started : 0 ∉ l) (room : l.length < 2 ^ 31) (t : List Byte)
    (b : Buffer Byte) : strlen (write b 0 (l ++ 0 :: t)).get = some l.length := by
  unfold strlen
  rw [strlenLoop_counts _ _ room, Nat.zero_add]
  · intro i inside zero
    rw [write_left b 0 (0 :: t) inside] at zero
    exact started (zero ▸ List.getElem_mem inside)
  · exact write_right b 0 l (u := 0 :: t) (i := 0) (Nat.zero_lt_succ _)

theorem strlen_written {l : List Byte} (started : 0 ∉ l) (room : l.length < 2 ^ 31)
    (b : Buffer Byte) : strlen (write b 0 (l ++ [0])).get = some l.length :=
  strlen_first started room [] b

theorem mirrored_digit : ∀ d < 36, mirrored.getD (35 + d) 0 = digitByte d := by decide

theorem digitByte_ne_zero : ∀ d < 36, digitByte d ≠ 0 := by decide

theorem digitByte_alphabet {d : Nat} (digit : d < 36) : Alphanumeric (digitByte d) := by
  have each : ∀ d < 36, (0x30 ≤ digitByte d ∧ digitByte d ≤ 0x39) ∨
      (0x41 ≤ digitByte d ∧ digitByte d ≤ 0x5A) := by decide
  exact each d digit

theorem digitValue_digitByte : ∀ d < 36, digitValue (digitByte d) = d := by decide

theorem digitLoop_result {base : Nat} (least : 2 ≤ base) (most : base ≤ 36) {fuel value : Nat}
    (room : 0 < fuel) (bound : value < 2 ^ fuel) (ptr : Nat) (b : Buffer Byte) :
    digitLoop base fuel value ptr b =
      some (ptr + (lowDigits base value).length,
        write b ptr ((lowDigits base value).map digitByte)) := by
  induction fuel generalizing value ptr b with
  | zero => omega
  | succ fuel ih =>
    have rest : value - value / base * base = value % base := by
      rw [Nat.mul_comm]
      exact Nat.mod_eq_sub_mul_div.symm
    have digit : mirrored.getD (35 + value % base) 0 = digitByte (value % base) :=
      mirrored_digit _ (Nat.lt_of_lt_of_le (Nat.mod_lt value (by omega)) most)
    unfold digitLoop
    rw [lowDigits_step least value]
    simp only [rest, digit]
    by_cases last : value / base = 0
    · rw [if_pos last, if_pos last]
      rfl
    · have less : value / base < 2 ^ fuel := by
        have half : value / base ≤ value / 2 := Nat.div_le_div_left least (by omega)
        rw [Nat.pow_succ] at bound
        omega
      have more : 0 < fuel := by
        rcases Nat.eq_zero_or_pos fuel with none | some
        · subst none
          exact absurd (Nat.div_eq_of_lt (by omega)) last
        · exact some
      rw [if_neg last, if_neg last, ih more less, List.length_cons, List.map_cons,
        show ptr + 1 = ptr + [digitByte (value % base)].length by rfl, write_append,
        List.singleton_append, List.length_singleton]
      exact congrArg (fun n => some (n, _)) (by omega)

theorem swapLoop_get (ptr1 ptr : Nat) (b : Buffer Byte) (i : Nat) :
    (swapLoop ptr1 ptr b).get i =
      if ptr1 ≤ i ∧ i ≤ ptr then b.get (ptr1 + ptr - i) else b.get i := by
  induction ptr1, ptr, b using swapLoop.induct with
  | case1 ptr1 ptr b apart tmpChar b₁ b₂ ih =>
    have inner : ∀ j, ptr1 < j → j < ptr → b₂.get j = b.get j := by
      intro j after before
      rw [write_one, if_neg (by omega), write_one, if_neg (by omega)]
    rw [swapLoop, if_pos apart, ih]
    by_cases between : ptr1 + 1 ≤ i ∧ i ≤ ptr - 1
    · have mirror : ptr1 + 1 + (ptr - 1) - i = ptr1 + ptr - i := by omega
      rw [if_pos between, if_pos (by omega), mirror]
      exact inner _ (by omega) (by omega)
    · rw [if_neg between, write_one, write_one]
      by_cases low : i = ptr1
      · rw [if_pos low, if_pos (by omega), show ptr1 + ptr - i = ptr by omega]
      · rw [if_neg low]
        by_cases high : i = ptr
        · rw [if_pos high, if_pos (by omega), show ptr1 + ptr - i = ptr1 by omega]
        · rw [if_neg high, if_neg (by omega)]
  | case2 ptr1 ptr b met =>
    rw [swapLoop, if_neg met]
    split
    · exact congrArg b.get (by omega)
    · rfl

@[simp] theorem swapLoop_size (ptr1 ptr : Nat) (b : Buffer Byte) :
    (swapLoop ptr1 ptr b).size = b.size := by
  induction ptr1, ptr, b using swapLoop.induct with
  | case1 ptr1 ptr b apart tmpChar b₁ b₂ ih =>
    rw [swapLoop, if_pos apart, ih]
    rfl
  | case2 ptr1 ptr b met => rw [swapLoop, if_neg met]

theorem swapLoop_overrun {ptr1 ptr : Nat} {b : Buffer Byte}
    (marked : b.size ≤ ptr → b.overrun = true) : (swapLoop ptr1 ptr b).overrun = b.overrun := by
  induction ptr1, ptr, b using swapLoop.induct with
  | case1 ptr1 ptr b apart tmpChar b₁ b₂ ih =>
    have same : b₂.overrun = b.overrun := by
      rcases Nat.lt_or_ge ptr b.size with inside | beyond
      · rw [write_overrun, write_overrun, write_size, past_within, past_within, Bool.or_false,
          Bool.or_false] <;> rw [List.length_singleton] <;> omega
      · rw [write_overrun, write_overrun, marked beyond, Bool.true_or, Bool.true_or]
    have size : b₂.size = b.size := rfl
    rw [swapLoop, if_pos apart, ih, same]
    intro beyond
    rw [same]
    exact marked (by omega)
  | case2 ptr1 ptr b met => rw [swapLoop, if_neg met]

theorem swapLoop_reverses (b : Buffer Byte) (start : Nat) {l r : List Byte} (more : l ≠ []) :
    swapLoop start (start + l.length - 1) (write b start (l ++ r)) =
      write b start (l.reverse ++ r) := by
  have some : 0 < l.length := List.length_pos_iff.mpr more
  have back : l.reverse.length = l.length := List.length_reverse
  have whole : (l ++ r).length = l.length + r.length := List.length_append
  have turned : (l.reverse ++ r).length = l.length + r.length := by rw [List.length_append, back]
  apply buffer_ext
  · exact swapLoop_size _ _ _
  · intro i
    rw [swapLoop_get]
    by_cases outside : i < start ∨ start + (l.length + r.length) ≤ i
    · rw [if_neg (by omega), write_outside _ (by omega), write_outside _ (by omega)]
    · obtain ⟨j, rfl⟩ := Nat.exists_eq_add_of_le (show start ≤ i by omega)
      by_cases inside : j < l.length
      · have mirror : start + (start + l.length - 1) - (start + j) =
            start + (l.length - 1 - j) := by omega
        rw [if_pos (by omega), mirror, write_left _ _ _ (by omega), write_left _ _ _ (by omega),
          List.getElem_reverse]
      · obtain ⟨k, rfl⟩ := Nat.exists_eq_add_of_le (show l.length ≤ j by omega)
        have same := write_right b start l.reverse (u := r) (i := k) (by omega)
        rw [if_neg (by omega), write_right _ _ _ (by omega), ← same, back]
  · rw [swapLoop_overrun, write_overrun, write_overrun, whole, turned]
    intro beyond
    rw [write_size] at beyond
    rw [write_overrun, Bool.or_eq_true]
    exact .inr (decide_eq_true (by omega))

theorem itoa_writes {base value : Nat} (bound : value < 2 ^ 64) (least : 2 ≤ base)
    (most : base ≤ 36) (result : Nat) (b : Buffer Byte) :
    itoa value result base b =
      some (result + (basePrefix base).length, write b result (rendering base value ++ [0])) := by
  have valid : ¬((base : Int) < 2 ∨ (base : Int) > 36) := by omega
  have digits : ∀ start c,
      ((digitLoop base 64 value start c).map fun p =>
        (start, swapLoop start (p.1 - 1) (write p.2 p.1 [0]))) =
        some (start, write c start (digitBytes base value ++ [0])) := by
    intro start c
    have more : (lowDigits base value).map digitByte ≠ [] := by
      rw [Ne, List.map_eq_nil_iff]
      exact lowDigits_ne_nil base value
    have turned := swapLoop_reverses c start (r := [0]) more
    rw [← write_append, List.length_map, ← List.map_reverse] at turned
    rw [digitLoop_result least most (by decide) bound, Option.map_some, turned]
    rfl
  unfold itoa
  rw [if_neg valid, Int.toNat_natCast]
  unfold rendering basePrefix
  by_cases hex : base = 16
  · have hexInt : (base : Int) = 16 := by omega
    rw [if_pos hexInt, if_pos hex]
    have signed : write (write b result [0x30]) (result + 1) [0x78] = write b result (ascii "0x") :=
      write_append b result [0x30] [0x78]
    have behind : result + 1 + 1 = result + (ascii "0x").length := rfl
    refine (digits _ _).trans ?_
    rw [signed, behind, write_append, List.append_assoc]
  · have notHex : ¬(base : Int) = 16 := by omega
    rw [if_neg notHex, if_neg hex]
    exact digits result b

theorem digitBytes_digit {base : Nat} (least : 2 ≤ base) (most : base ≤ 36) {value : Nat} {c : Byte}
    (member : c ∈ digitBytes base value) : ∃ d < base, d < 36 ∧ digitByte d = c := by
  obtain ⟨d, digit, same⟩ := List.mem_map.mp member
  have below := lowDigits_below least (List.mem_reverse.mp digit)
  exact ⟨d, below, by omega, same⟩

theorem digitBytes_values {base : Nat} (least : 2 ≤ base) (most : base ≤ 36) (value : Nat) :
    (digitBytes base value).map digitValue = numeral base value := by
  have each : ∀ d ∈ numeral base value, (digitValue ∘ digitByte) d = id d := by
    intro d member
    have below := lowDigits_below least (List.mem_reverse.mp member)
    exact digitValue_digitByte d (by omega)
  unfold digitBytes
  rw [List.map_map, List.map_congr_left each, List.map_id]

theorem digitBytes_spells {base value : Nat} (least : 2 ≤ base) (most : base ≤ 36)
    (bound : value < 2 ^ 64) : Spells base value (digitBytes base value) := by
  have small : value < base ^ 64 := Nat.lt_of_lt_of_le bound (Nat.pow_le_pow_left least 64)
  have writes := @numeral_writes base (by omega) value 64 (by decide) small
  constructor
  · intro c member
    obtain ⟨d, below, digit, rfl⟩ := digitBytes_digit least most member
    exact digitByte_alphabet digit
  · intro c member
    obtain ⟨d, below, digit, rfl⟩ := digitBytes_digit least most member
    rwa [digitValue_digitByte d digit]
  · exact fun nothing => writes.some_digit (List.map_eq_nil_iff.mp nothing)
  · rw [digitBytes, List.length_map]
    exact writes.short
  · intro zero
    have first := congrArg (Option.map digitValue) zero
    rw [← List.head?_map, digitBytes_values least most] at first
    obtain ⟨single, nothing⟩ := writes.zero_first first
    rw [digitBytes, single]
    exact ⟨rfl, nothing⟩
  · rw [digitBytes_values least most]
    exact writes.read

theorem zero_not_mem_rendering {base : Nat} (least : 2 ≤ base) (most : base ≤ 36) (value : Nat) :
    0 ∉ rendering base value := by
  intro member
  rcases List.mem_append.mp member with signed | digit
  · unfold basePrefix at signed
    split at signed
    · exact absurd signed (by decide)
    · exact List.not_mem_nil signed
  · obtain ⟨d, below, digit, zero⟩ := digitBytes_digit least most digit
    exact digitByte_ne_zero d digit zero

theorem rendering_injective {base : Nat} (least : 2 ≤ base) (most : base ≤ 36) :
    Function.Injective (rendering base) := by
  intro value other same
  have digits := congrArg (List.map digitValue) (List.append_cancel_left same)
  rw [digitBytes_values least most, digitBytes_values least most] at digits
  exact numeral_injective base digits

/-- The string ends at the zero, which no digit is. -/
theorem itoa_renders {base value : Nat} (bound : value < 2 ^ 64) (least : 2 ≤ base)
    (most : base ≤ 36) (result : Nat) (b : Buffer Byte) :
    itoa value result base b =
        some (result + (basePrefix base).length,
          write b result (basePrefix base ++ digitBytes base value ++ [0])) ∧
      0 ∉ rendering base value ∧ Spells base value (digitBytes base value) ∧
      ∀ other < 2 ^ 64, rendering base other = rendering base value → other = value := by
  refine ⟨itoa_writes bound least most result b, zero_not_mem_rendering least most value,
    digitBytes_spells least most bound, ?_⟩
  intro other _ same
  exact rendering_injective least most same

theorem itoa_renders_hex :
    (∃ b, itoa 0xBEEF 3 16 ⟨16, fun _ => 0xFF, false⟩ = some (5, b) ∧ b.overrun = false ∧
      (List.range 9).map b.get = [0xFF, 0xFF, 0xFF] ++ ascii "0xBEEF") ∧
      Spells 16 0xBEEF (digitBytes 16 0xBEEF) := by
  obtain ⟨written, whole, spells, distinct⟩ := @itoa_renders 16 0xBEEF (by decide) (by decide)
    (by decide) 3 ⟨16, fun _ => 0xFF, false⟩
  exact ⟨⟨_, written, by decide, by decide⟩, spells⟩

end Strings
