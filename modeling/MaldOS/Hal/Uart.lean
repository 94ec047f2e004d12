import MaldOS.Utils.Strings
import MaldOS.Utils.Memory

/-!
`logprint` of `uart.c`. It puts the line together in a buffer of 256 bytes: the
time in microseconds with leading zeros, the level, the message and a newline.
The time has fourteen places, and what a longer one has behind them is lost.
-/
namespace Uart
open ByteMemory Slices Texts Numerals Strings Memory

inductive LogLevel where
  | info
  | warn
  | error
  | none
  deriving DecidableEq

/-- The value of the enumerator, on which `<` works. -/
def LogLevel.value : LogLevel → Nat
  | .info => 0
  | .warn => 1
  | .error => 2
  | .none => 3

/-- What the `switch` copies to `string[16]`. It returns for `NONE`. -/
def LogLevel.label : LogLevel → Option (List Byte)
  | .info => some (ascii " [INFO]  ")
  | .warn => some (ascii " [WARN]  ")
  | .error => some (ascii " [ERROR] ")
  | .none => Option.none

/-- `for (i = 1; i < 14 - len + 1; i++)` -/
def zeroLoop (len i : Nat) (string : Buffer Byte) : Nat × Buffer Byte :=
  if i + len < 14 + 1 then zeroLoop len (i + 1) (write string i [0x30]) else (i, string)
termination_by 15 - i

/-- The buffers `string` and `tmp` where `string` is handed to `uart0_puts`. -/
inductive Printed where
  | nothing
  | line (string tmp : Buffer Byte)

/-- The two loops on `len` are those of `strlen`. -/
def logprint (verbosity lvl : LogLevel) (timer : Nat) (msg : Nat → Byte)
    (string tmp : Buffer Byte) : Option Printed :=
  if lvl.value < verbosity.value then some .nothing
  else do
    let string := write string 0 [0x5B]
    let (_, tmp) ← itoa timer 0 10 tmp
    let len ← strlen tmp.get
    let (i, string) := zeroLoop len 1 string
    let string := memcpy i tmp.get len string
    let string := write string 15 [0x5D]
    let len ← strlen msg
    match lvl.label with
    | Option.none => some .nothing
    | some label =>
      let string := memcpy 16 (literal label) 9 string
      let string := memcpy 25 msg (len + 1) string
      let last ← strlen string.get
      let string := write string (last + 1) [0]
      let last ← strlen string.get
      some (.line (write string last [0x0A]) tmp)

/-- The digits of the time, with zeros before them up to fourteen places. -/
def padded (timer : Nat) : List Byte :=
  List.replicate (14 - (digitBytes 10 timer).length) 0x30 ++ digitBytes 10 timer

def stamp (timer : Nat) : List Byte := (padded timer).take 14

def heading (label : List Byte) (timer : Nat) : List Byte :=
  0x5B :: (stamp timer ++ 0x5D :: label)

def logLine (label : List Byte) (timer : Nat) (msg : List Byte) : List Byte :=
  heading label timer ++ (msg ++ [0x0A])

theorem zeroLoop_pads {len i n : Nat} (places : i + len + n = 15) (string : Buffer Byte) :
    zeroLoop len i string = (i + n, write string i (List.replicate n 0x30)) := by
  induction n generalizing i string with
  | zero =>
    rw [zeroLoop, if_neg (by omega), List.replicate_zero, write_nothing, Nat.add_zero]
  | succ n ih =>
    rw [zeroLoop, if_pos (by omega), ih (by omega), List.replicate_succ, Nat.add_assoc,
      Nat.add_comm 1 n]
    exact congrArg (Prod.mk _) (write_append string i [0x30] (List.replicate n 0x30))

theorem zeroLoop_full {len i : Nat} (places : 15 ≤ i + len) (string : Buffer Byte) :
    zeroLoop len i string = (i, string) := by
  rw [zeroLoop, if_neg (by omega)]

theorem digits_length {timer : Nat} (bound : timer < 2 ^ 64) :
    (digitBytes 10 timer).length ≤ 20 := by
  unfold digitBytes numeral
  rw [List.length_map, List.length_reverse]
  exact lowDigits_length (by decide) (by decide) (by omega)

theorem padded_length (timer : Nat) :
    (padded timer).length = max 14 (digitBytes 10 timer).length := by
  unfold padded
  rw [List.length_append, List.length_replicate]
  omega

theorem stamp_length (timer : Nat) : (stamp timer).length = 14 := by
  unfold stamp
  rw [List.length_take, padded_length]
  omega

theorem label_length {lvl : LogLevel} {label : List Byte} (named : lvl.label = some label) :
    label.length = 9 := by
  cases lvl with
  | info | warn | error =>
    cases named
    rfl
  | none => cases named

theorem zero_not_mem_label {lvl : LogLevel} {label : List Byte} (named : lvl.label = some label) :
    0 ∉ label := by
  cases lvl with
  | info | warn | error =>
    cases named
    decide
  | none => cases named

theorem label_injective {lvl other : LogLevel} {label : List Byte} (named : lvl.label = some label)
    (same : other.label = some label) : other = lvl := by
  revert named same
  cases lvl <;> cases other <;> intro named same <;> first
    | rfl
    | (rw [← named] at same; exact absurd same (by decide))

theorem digits_ne_zero (timer : Nat) : 0 ∉ digitBytes 10 timer := by
  intro member
  obtain ⟨d, _, digit, zero⟩ := digitBytes_digit (by decide) (by decide) member
  exact digitByte_ne_zero d digit zero

theorem stamp_ne_zero (timer : Nat) : 0 ∉ stamp timer := by
  intro member
  rcases List.mem_append.mp (List.mem_of_mem_take member) with zeros | digits
  · exact absurd (List.eq_of_mem_replicate zeros) (by decide)
  · exact digits_ne_zero timer digits

theorem heading_length {lvl : LogLevel} {label : List Byte} (named : lvl.label = some label)
    (timer : Nat) : (heading label timer).length = 25 := by
  unfold heading
  rw [List.length_cons, List.length_append, List.length_cons, stamp_length, label_length named]

theorem heading_ne_zero {lvl : LogLevel} {label : List Byte} (named : lvl.label = some label)
    (timer : Nat) : 0 ∉ heading label timer := by
  intro member
  rcases List.mem_cons.mp member with opening | member
  · exact absurd opening (by decide)
  · rcases List.mem_append.mp member with digits | member
    · exact stamp_ne_zero timer digits
    · rcases List.mem_cons.mp member with closing | member
      · exact absurd closing (by decide)
      · exact zero_not_mem_label named member

theorem time_written {timer : Nat} {src : Nat → Byte}
    (digits : ∀ j (inside : j < (digitBytes 10 timer).length), src j = (digitBytes 10 timer)[j])
    (string : Buffer Byte) :
    let len := (digitBytes 10 timer).length
    memcpy (zeroLoop len 1 (write string 0 [0x5B])).1 src len
      (zeroLoop len 1 (write string 0 [0x5B])).2 = write string 0 (0x5B :: padded timer) := by
  intro len
  rw [memcpy_writes _ digits]
  by_cases few : len ≤ 14
  · have zeros := @zeroLoop_pads len 1 (14 - len) (by omega) (write string 0 [0x5B])
    have place : 1 + (14 - len) = 1 + (List.replicate (14 - len) (0x30 : Byte)).length := by
      rw [List.length_replicate]
    rw [zeros]
    change write (write (write string 0 [0x5B]) 1 _) (1 + (14 - len)) _ = _
    rw [place, write_append]
    exact write_append string 0 [0x5B] (padded timer)
  · have none : padded timer = digitBytes 10 timer := by
      unfold padded
      rw [Nat.sub_eq_zero_of_le (show 14 ≤ len by omega), List.replicate_zero, List.nil_append]
    rw [zeroLoop_full (by omega), none]
    exact write_append string 0 [0x5B] (digitBytes 10 timer)

theorem heading_written {lvl : LogLevel} {label : List Byte} (named : lvl.label = some label)
    {timer : Nat} (bound : timer < 2 ^ 64) (string : Buffer Byte) :
    memcpy 16 (literal label) 9 (write (write string 0 (0x5B :: padded timer)) 15 [0x5D]) =
      write string 0 (heading label timer) := by
  have copied := @memcpy_writes _ 16 (literal label) label (fun j inside => literal_get inside)
  have split : (0x5B :: padded timer : List Byte) =
      (0x5B :: stamp timer) ++ (padded timer).drop 14 := by
    rw [List.cons_append, stamp, List.take_append_drop]
  have front : (0x5B :: stamp timer : List Byte).length = 15 := by
    rw [List.length_cons, stamp_length]
  have covered : ((padded timer).drop 14).length ≤ (0x5D :: label : List Byte).length := by
    have most := digits_length bound
    rw [List.length_drop, List.length_cons, padded_length, label_length named]
    omega
  have closed := write_append (write string 0 (0x5B :: padded timer)) 15 [0x5D] label
  have whole := write_over string 0 (0x5B :: stamp timer) covered
  rw [label_length named] at copied
  rw [copied, show (16 : Nat) = 15 + ([0x5D] : List Byte).length from rfl, closed, split]
  rw [Nat.zero_add, front] at whole
  exact whole

theorem newline_written {l : List Byte} (text : 0 ∉ l) (room : l.length < 2 ^ 31)
    (string : Buffer Byte) :
    strlen (write string 0 (l ++ [0])).get = some l.length ∧
      strlen (write (write string 0 (l ++ [0])) (l.length + 1) [0]).get = some l.length ∧
      write (write (write string 0 (l ++ [0])) (l.length + 1) [0]) l.length [0x0A] =
        write string 0 (l ++ [0x0A] ++ [0]) := by
  have longer : write (write string 0 (l ++ [0])) (l.length + 1) [0] =
      write string 0 (l ++ 0 :: [0]) := by
    have behind := write_append string 0 (l ++ [0]) [0]
    rwa [List.length_append, List.length_singleton, Nat.zero_add, List.append_assoc] at behind
  have replaced := write_replace string 0 l [0] 0 0x0A
  rw [Nat.zero_add] at replaced
  refine ⟨strlen_written text room string, ?_, ?_⟩
  · rw [longer]
    exact strlen_first text room [0] string
  · rw [longer, replaced, List.append_assoc]
    rfl

theorem strlen_literal {msg : List Byte} (text : 0 ∉ msg) (room : msg.length < 2 ^ 31) :
    strlen (literal msg) = some msg.length := by
  unfold strlen
  rw [strlenLoop_counts _ _ room, Nat.zero_add]
  · intro i inside zero
    rw [Nat.zero_add, literal_get inside] at zero
    exact text (zero ▸ List.getElem_mem inside)
  · rw [Nat.zero_add]
    exact literal_end msg

theorem literal_whole (msg : List Byte) (j : Nat) (inside : j < (msg ++ [0]).length) :
    literal msg j = (msg ++ [0])[j] := by
  rw [List.length_append, List.length_singleton] at inside
  by_cases before : j < msg.length
  · rw [List.getElem_append_left before]
    exact literal_get before
  · obtain rfl : j = msg.length := by omega
    rw [literal_end, List.getElem_concat_length rfl]

theorem logprint_writes {verbosity lvl : LogLevel} {label : List Byte}
    (loud : ¬ lvl.value < verbosity.value) (named : lvl.label = some label) {timer : Nat}
    (bound : timer < 2 ^ 64) {msg : List Byte} (text : 0 ∉ msg) (room : msg.length < 2 ^ 31 - 25)
    (string tmp : Buffer Byte) :
    logprint verbosity lvl timer (literal msg) string tmp =
      some (.line (write string 0 (logLine label timer msg ++ [0]))
        (write tmp 0 (digitBytes 10 timer ++ [0]))) := by
  have printed : itoa timer 0 10 tmp = some (0, write tmp 0 (digitBytes 10 timer ++ [0])) :=
    @itoa_writes 10 timer bound (by decide) (by decide) 0 tmp
  have most := digits_length bound
  have counted : strlen (write tmp 0 (digitBytes 10 timer ++ [0])).get =
      some (digitBytes 10 timer).length :=
    strlen_written (digits_ne_zero timer) (by omega) tmp
  have digits : ∀ j (inside : j < (digitBytes 10 timer).length),
      (write tmp 0 (digitBytes 10 timer ++ [0])).get j = (digitBytes 10 timer)[j] := by
    intro j inside
    have there := write_left tmp 0 [0] inside
    rwa [Nat.zero_add] at there
  have message := @strlen_literal msg text (by omega)
  have copied := memcpy_writes 25 (literal_whole msg) (write string 0 (heading label timer))
  have front := write_append string 0 (heading label timer) (msg ++ [0])
  have whole : (heading label timer ++ msg).length = 25 + msg.length := by
    rw [List.length_append, heading_length named]
  have both : 0 ∉ heading label timer ++ msg := by
    intro member
    exact (List.mem_append.mp member).elim (heading_ne_zero named timer) text
  obtain ⟨first, second, last⟩ := newline_written both (by omega) string
  rw [heading_length named, Nat.zero_add, ← List.append_assoc] at front
  rw [List.length_append, List.length_singleton, front] at copied
  unfold logprint
  simp only [if_neg loud, printed, counted, message, named, Option.bind_eq_bind, Option.bind_some,
    time_written digits, heading_written named bound, copied, first, second, last]
  rw [logLine, ← List.append_assoc (heading label timer)]

theorem padded_reads (timer : Nat) : reading 10 ((padded timer).map digitValue) = timer := by
  unfold padded
  rw [List.map_append, List.map_replicate, digitBytes_values (by decide) (by decide)]
  exact (reading_zeros 10 _ _).trans (reading_numeral 10 timer)

theorem stamp_reads {timer : Nat} (early : timer < 10 ^ 14) :
    reading 10 ((stamp timer).map digitValue) = timer := by
  have few : (digitBytes 10 timer).length ≤ 14 := by
    unfold digitBytes numeral
    rw [List.length_map, List.length_reverse]
    exact lowDigits_length (by decide) (by decide) early
  have whole : stamp timer = padded timer :=
    List.take_of_length_le (by rw [padded_length]; omega)
  rw [whole]
  exact padded_reads timer

/-- A line tells its level, its time and its message. -/
theorem logLine_injective {lvl lvl' : LogLevel} {label label' : List Byte}
    (named : lvl.label = some label) (named' : lvl'.label = some label') {timer timer' : Nat}
    (early : timer < 10 ^ 14) (early' : timer' < 10 ^ 14) {msg msg' : List Byte}
    (same : logLine label timer msg = logLine label' timer' msg') :
    lvl = lvl' ∧ timer = timer' ∧ msg = msg' := by
  obtain ⟨front, last⟩ := List.append_inj same
    (by rw [heading_length named, heading_length named'])
  obtain ⟨stamps, labels⟩ := List.append_inj (List.cons.inj front).2
    (by rw [stamp_length, stamp_length])
  refine ⟨?_, ?_, List.append_cancel_right last⟩
  · rw [(List.cons.inj labels).2] at named
    exact label_injective named' named
  · rw [← stamp_reads early, stamps, stamp_reads early']

end Uart
