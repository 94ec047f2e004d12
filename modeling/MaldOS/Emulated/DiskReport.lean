import MaldOS.Emulated.Headers
import MaldOS.Utils.Strings
import Mathlib.Tactic.NormNum.NatLog

/-!
The line that `init_emulated_disks` logs about a disk file, built piece by piece
in `char string[128]`.
-/
namespace Emulated
open Arch ByteMemory Slices Texts Strings

/-- What one call writes: `strcpy` of a string or `itoa` of a number in base 10. -/
inductive Piece where
  | text (src : List Byte)
  | decimal (value : Nat)

def Piece.put (dest : Nat) (string : Buffer Byte) : Piece → Option (Nat × Buffer Byte)
  | .text src => strcpy dest (literal src) string
  | .decimal value => itoa value dest 10 string

/-- The call at `&string[strlen(string)]`. -/
def append (string : Buffer Byte) (p : Piece) : Option (Buffer Byte) :=
  (strlen string.get).bind fun dest => (p.put dest string).map Prod.snd

/-- `strcpy(string, first)` and the calls that follow it. -/
def printLine (string : Buffer Byte) (first : List Byte) (pieces : List Piece) :
    Option (Buffer Byte) :=
  (strcpy 0 (literal first) string).bind fun r => pieces.foldlM append r.2

def foundPieces (nome : List Byte) (diskinfo : Nat → Nat) : List Piece :=
  [.text nome, .text (ascii ": "), .decimal (diskinfo 0), .text (ascii " cylinders, "),
    .decimal (diskinfo 1), .text (ascii " heads, "), .decimal (diskinfo 2),
    .text (ascii " sectors, "), .decimal (diskinfo 3), .text (ascii " RPM, "),
    .decimal (diskinfo 4), .text (ascii " seek time, "), .decimal (diskinfo 5),
    .text (ascii "% occupation")]

def foundReport (nome : List Byte) (diskinfo : Nat → Nat) (string : Buffer Byte) :
    Option (Buffer Byte) :=
  printLine string (ascii "Found disk device ") (foundPieces nome diskinfo)

def invalidReport (nome : List Byte) (string : Buffer Byte) : Option (Buffer Byte) :=
  printLine string (ascii "Invalid disk file ") [.text nome]

def diskReport (i : Fin maxDevices) (header : Nat → Byte) (string : Buffer Byte) :
    Option (Buffer Byte) :=
  let info := diskInfo header
  if BitVec.ofNat 32 (Fat.word 4 header 0) ≠ diskfileid ∨ info 0 > maxCylinders ∨
      info 1 > maxHeads ∨ info 2 > maxSectors then invalidReport (diskName i) string
  else foundReport (diskName i) info string

def Piece.bytes : Piece → List Byte
  | .text src => src
  | .decimal value => digitBytes 10 value

def Piece.Proper : Piece → Prop
  | .text src => 0 ∉ src
  | .decimal value => value < 2 ^ 32

def decimals (value : Nat) : Nat := Nat.log 10 value + 1

def reportDigits (header : Nat → Byte) : Nat :=
  ((List.range 6).map fun k => decimals (diskInfo header k)).sum

theorem digitBytes_length (value : Nat) : (digitBytes 10 value).length = decimals value := by
  unfold digitBytes Numerals.numeral Numerals.lowDigits decimals
  rw [List.length_map, List.length_reverse]
  split
  · next zero => rw [zero, Nat.log_zero_right, List.length_singleton]
  · next more => exact Nat.length_digits 10 value (by decide) more

theorem Piece.bytes_proper {p : Piece} (proper : p.Proper) : 0 ∉ p.bytes := by
  cases p with
  | text src => exact proper
  | decimal value => exact @zero_not_mem_rendering 10 (by decide) (by decide) value

theorem Piece.put_writes {p : Piece} (proper : p.Proper) (room : p.bytes.length < 2 ^ 31)
    (dest : Nat) (b : Buffer Byte) :
    (p.put dest b).map Prod.snd = some (write b dest (p.bytes ++ [0])) := by
  cases p with
  | text src => exact congrArg (Option.map Prod.snd) (strcpy_literal dest proper room b)
  | decimal value =>
    have word : value < 2 ^ 64 := Nat.lt_trans proper (by decide)
    exact congrArg (Option.map Prod.snd)
      (@itoa_writes 10 value word (by decide) (by decide) dest b)

theorem append_written {p : Piece} (proper : p.Proper) {line : List Byte} (ended : 0 ∉ line)
    (room : (line ++ p.bytes).length < 2 ^ 31) (b : Buffer Byte) :
    append (write b 0 (line ++ [0])) p = some (write b 0 (line ++ p.bytes ++ [0])) := by
  rw [List.length_append] at room
  have behind := write_over b 0 line (t := [0]) (u := p.bytes ++ [0])
    (by rw [List.length_append]; exact Nat.le_add_left _ _)
  rw [Nat.zero_add, ← List.append_assoc] at behind
  unfold append
  rw [strlen_written ended (by omega), Option.bind_some, p.put_writes proper (by omega), behind]

theorem foldlM_append {pieces : List Piece} (proper : ∀ p ∈ pieces, p.Proper) {line : List Byte}
    (ended : 0 ∉ line) (room : (line ++ pieces.flatMap Piece.bytes).length < 2 ^ 31)
    (b : Buffer Byte) : pieces.foldlM append (write b 0 (line ++ [0])) =
      some (write b 0 (line ++ pieces.flatMap Piece.bytes ++ [0])) := by
  induction pieces generalizing line with
  | nil => rw [List.flatMap_nil, List.append_nil]; rfl
  | cons p pieces ih =>
    rw [List.flatMap_cons, ← List.append_assoc] at room ⊢
    have first := proper p List.mem_cons_self
    have short : (line ++ p.bytes).length < 2 ^ 31 := by
      rw [List.length_append] at room
      omega
    have still : 0 ∉ line ++ p.bytes := by
      rw [List.mem_append]
      exact not_or_intro ended (p.bytes_proper first)
    rw [List.foldlM_cons, append_written first ended short]
    exact ih (fun q member => proper q (List.mem_cons_of_mem p member)) still room

theorem printLine_writes {first : List Byte} {pieces : List Piece} (ended : 0 ∉ first)
    (proper : ∀ p ∈ pieces, p.Proper) (room : (first ++ pieces.flatMap Piece.bytes).length < 2 ^ 31)
    (b : Buffer Byte) :
    printLine b first pieces = some (write b 0 (first ++ pieces.flatMap Piece.bytes ++ [0])) := by
  have short : first.length < 2 ^ 31 := by
    rw [List.length_append] at room
    omega
  unfold printLine
  rw [strcpy_literal 0 ended short, Option.bind_some]
  exact foldlM_append proper ended room b

theorem header_word (header : Nat → Byte) (k : Nat) : diskInfo header k < 2 ^ 32 :=
  Fat.word_lt 4 header _

theorem diskName_ended : ∀ i, 0 ∉ diskName i := by decide

theorem foundPieces_proper (i : Fin maxDevices) (header : Nat → Byte) :
    ∀ p ∈ foundPieces (diskName i) (diskInfo header), p.Proper := by
  have literal : ∀ {src}, 0 ∉ src → (Piece.text src).Proper := id
  have field : ∀ k, (Piece.decimal (diskInfo header k)).Proper := header_word header
  unfold foundPieces
  simp only [List.forall_mem_cons]
  exact ⟨diskName_ended i, literal (by decide), field 0, literal (by decide), field 1,
    literal (by decide), field 2, literal (by decide), field 3, literal (by decide), field 4,
    literal (by decide), field 5, literal (by decide), List.forall_mem_nil _⟩

theorem reportDigits_eq (header : Nat → Byte) : reportDigits header =
    decimals (diskInfo header 0) + (decimals (diskInfo header 1) + (decimals (diskInfo header 2) +
      (decimals (diskInfo header 3) + (decimals (diskInfo header 4) +
        (decimals (diskInfo header 5) + 0))))) := rfl

theorem decimals_field (header : Nat → Byte) (k : Nat) : decimals (diskInfo header k) ≤ 10 := by
  have word : diskInfo header k < 10 ^ 10 := Nat.lt_trans (header_word header k) (by decide)
  exact Nat.log_lt_of_lt_pow' (by decide) word

theorem foundReport_length (i : Fin maxDevices) (header : Nat → Byte) :
    (ascii "Found disk device " ++
      (foundPieces (diskName i) (diskInfo header)).flatMap Piece.bytes).length =
      91 + reportDigits header := by
  rw [reportDigits_eq]
  unfold foundPieces
  simp only [List.flatMap_cons, List.flatMap_nil, List.length_append, List.length_nil, Piece.bytes,
    digitBytes_length]
  have words : (ascii "Found disk device ").length = 18 ∧ (diskName i).length = 11 ∧
      (ascii ": ").length = 2 ∧ (ascii " cylinders, ").length = 12 ∧ (ascii " heads, ").length = 8 ∧
      (ascii " sectors, ").length = 10 ∧ (ascii " RPM, ").length = 6 ∧
      (ascii " seek time, ").length = 12 ∧ (ascii "% occupation").length = 12 :=
    ⟨rfl, rfl, rfl, rfl, rfl, rfl, rfl, rfl, rfl⟩
  omega

theorem foundReport_writes (i : Fin maxDevices) (header : Nat → Byte) (b : Buffer Byte) :
    ∃ line : List Byte, line.length = 91 + reportDigits header ∧
      foundReport (diskName i) (diskInfo header) b = some (write b 0 (line ++ [0])) := by
  have length := foundReport_length i header
  have room : 91 + reportDigits header < 2 ^ 31 := by
    have field := decimals_field header
    have f0 := field 0
    have f1 := field 1
    have f2 := field 2
    have f3 := field 3
    have f4 := field 4
    have f5 := field 5
    rw [reportDigits_eq]
    omega
  exact ⟨_, length,
    printLine_writes (by decide) (foundPieces_proper i header) (by rwa [length]) b⟩

theorem invalidReport_writes (i : Fin maxDevices) (b : Buffer Byte) :
    ∃ line : List Byte, line.length = 29 ∧
      invalidReport (diskName i) b = some (write b 0 (line ++ [0])) := by
  have proper : ∀ p ∈ [Piece.text (diskName i)], p.Proper := by
    intro p member
    rw [List.mem_singleton.mp member]
    exact diskName_ended i
  have length : (ascii "Invalid disk file " ++
      [Piece.text (diskName i)].flatMap Piece.bytes).length = 29 := rfl
  exact ⟨_, length, printLine_writes (by decide) proper (by rw [length]; decide) b⟩

theorem line_fits (stack : Nat → Byte) (line : List Byte) :
    (write ⟨128, stack, false⟩ 0 (line ++ [0])).overrun = false ↔ line.length ≤ 127 := by
  rw [write_overrun, Bool.false_or]
  unfold past
  rw [decide_eq_false_iff_not, List.length_append, List.length_singleton]
  constructor
  · intro inside
    dsimp only at inside
    omega
  · intro short
    dsimp only
    omega

/-- The string is finished, and none of it lies past the buffer. -/
def Fits (report : Option (Buffer Byte)) : Prop := ∃ b, report = some b ∧ b.overrun = false

theorem fits_iff (stack : Nat → Byte) (line : List Byte) :
    Fits (some (write ⟨128, stack, false⟩ 0 (line ++ [0]))) ↔ line.length ≤ 127 := by
  rw [← line_fits stack line]
  constructor
  · rintro ⟨b, same, inside⟩
    rw [Option.some.inj same]
    exact inside
  · intro inside
    exact ⟨_, rfl, inside⟩

theorem diskReport_passed {header : Nat → Byte} (passed : diskProber.passes header)
    (i : Fin maxDevices) (b : Buffer Byte) :
    diskReport i header b = foundReport (diskName i) (diskInfo header) b := by
  obtain ⟨id, cylinders, heads, sectors⟩ := passed
  unfold diskReport
  rw [if_neg]
  rintro (other | high | high | high)
  · exact other id
  · omega
  · omega
  · omega

theorem diskReport_refused {header : Nat → Byte} (refused : ¬ diskProber.passes header)
    (i : Fin maxDevices) (b : Buffer Byte) :
    diskReport i header b = invalidReport (diskName i) b := by
  unfold diskReport
  rw [if_pos]
  by_contra right
  rw [not_or, not_or, not_or] at right
  obtain ⟨id, cylinders, heads, sectors⟩ := right
  exact refused ⟨not_not.mp id, by omega, by omega, by omega⟩

theorem foundReport_fits (i : Fin maxDevices) (header stack : Nat → Byte) :
    Fits (foundReport (diskName i) (diskInfo header) ⟨128, stack, false⟩) ↔
      reportDigits header ≤ 36 := by
  obtain ⟨line, length, found⟩ := foundReport_writes i header ⟨128, stack, false⟩
  rw [found, fits_iff, length]
  omega

theorem diskReport_fits_iff (i : Fin maxDevices) (header stack : Nat → Byte) :
    Fits (diskReport i header ⟨128, stack, false⟩) ↔
      (diskProber.passes header → reportDigits header ≤ 36) := by
  by_cases passed : diskProber.passes header
  · rw [diskReport_passed passed, foundReport_fits]
    exact ⟨fun short _ => short, fun short => short passed⟩
  · obtain ⟨line, length, found⟩ := invalidReport_writes i ⟨128, stack, false⟩
    rw [diskReport_refused passed, found, fits_iff, length]
    exact ⟨fun _ passed' => absurd passed' passed, fun _ => by decide⟩

def longHeader : Nat → Byte := fun k =>
  [0x4D, 0x50, 0x53, 0x00, 0xFF, 0xFF, 0x00, 0x00, 0xFF, 0x00, 0x00, 0x00,
    0xFF, 0x00, 0x00, 0x00].getD k 0xFF

theorem diskReport_overruns : diskProber.passes longHeader ∧
    ∀ i stack, ¬ Fits (diskReport i longHeader ⟨128, stack, false⟩) := by
  have passed : diskProber.passes longHeader := by
    refine ⟨?_, ?_, ?_, ?_⟩ <;> decide
  refine ⟨passed, ?_⟩
  intro i stack fits
  rw [diskReport_passed passed, foundReport_fits] at fits
  revert fits
  decide

end Emulated
