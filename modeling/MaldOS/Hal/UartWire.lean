import MaldOS.Hal.Uart
import MaldOS.Library.Rounds

/-!
`uart0_puts` of `uart.c` and the transmitter, which shifts its bytes out at its own
pace. A store to `DATA` while the FIFO is full is lost; `uart0_putc` reads `FLAG`
before each. What is on the wire is the string with a carriage return before each
newline, whatever the two do between each other's steps.
-/
namespace Uart
open ByteMemory Slices Texts Numerals Strings Runs Rounds

/-- Where the core is: at the test of `uart0_puts`; in the loop of `uart0_putc` on `FLAG` or past
    it, with the carriage return or with the character; behind the string. -/
inductive Place where
  | test
  | returnWait
  | returnStore
  | charWait
  | charStore
  | back
  deriving DecidableEq

/-- What the FIFO holds and what has left it, and the pointer of `uart0_puts`. -/
structure Serial where
  fifo : List Byte
  wire : List Byte
  place : Place
  s : Nat

/-- `FLAG & 0x20` -/
def Serial.Full (depth : Nat) (p : Serial) : Prop := depth ≤ p.fifo.length

instance (depth : Nat) (p : Serial) : Decidable (p.Full depth) :=
  inferInstanceAs (Decidable (_ ≤ _))

def Serial.store (depth : Nat) (p : Serial) (c : Byte) : Serial :=
  if p.Full depth then p else { p with fifo := p.fifo ++ [c] }

def coreStep (depth : Nat) (str : Nat → Byte) (p : Serial) : Serial :=
  match p.place with
  | .test =>
    if str p.s = 0 then { p with place := .back }
    else if str p.s = 0x0A then { p with place := .returnWait }
    else { p with place := .charWait }
  | .returnWait => if p.Full depth then p else { p with place := .returnStore }
  | .returnStore => { p.store depth 0x0D with place := .charWait }
  | .charWait => if p.Full depth then p else { p with place := .charStore }
  | .charStore => { p.store depth (str p.s) with place := .test, s := p.s + 1 }
  | .back => p

def shift (p : Serial) : Serial :=
  match p.fifo with
  | [] => p
  | c :: rest => { p with fifo := rest, wire := p.wire ++ [c] }

inductive Act where
  | core
  | shift

def step (depth : Nat) (str : Nat → Byte) (p : Serial) : Act → Serial
  | .core => coreStep depth str p
  | .shift => shift p

/-- A newline is sent behind a carriage return. -/
def onWire (c : Byte) : List Byte := if c = 0x0A then [0x0D, 0x0A] else [c]

def crlf (l : List Byte) : List Byte := l.flatMap onWire

def received : List Byte → List Byte
  | [] => []
  | [c] => [c]
  | c :: d :: rest => if c = 0x0D ∧ d = 0x0A then d :: received rest else c :: received (d :: rest)

/-- What of the character at the pointer has been handed over. -/
def begun (c : Byte) : Place → List Byte
  | .charWait | .charStore => if c = 0x0A then [0x0D] else []
  | _ => []

structure Holds (str : Nat → Byte) (l : List Byte) : Prop where
  same : ∀ i (inside : i < l.length), str i = l[i]
  text : 0 ∉ l
  ended : str l.length = 0

/-- A line is sent behind what was in the transmitter: at every time some of it and nothing else,
    all of it when `uart0_puts` is back, and on the wire after enough turns of both. -/
structure Delivers (depth : Nat) (str : Nat → Byte) (l : List Byte) (p : Serial) : Prop where
  in_order : ∀ as, ∃ sent, sent <+: crlf l ∧
    (run (step depth str) p as).wire ++ (run (step depth str) p as).fifo =
      p.wire ++ p.fifo ++ sent ∧
    ((run (step depth str) p as).place = .back → sent = crlf l)
  completes : ∀ rounds : List (List Act), (∀ r ∈ rounds, ∀ a, a ∈ r) →
    7 * l.length + (p.wire ++ p.fifo).length + 2 ≤ rounds.length →
    (run (step depth str) p rounds.flatten).place = .back ∧
      (run (step depth str) p rounds.flatten).wire = p.wire ++ p.fifo ++ crlf l

/-- All bytes handed over are in the FIFO or on the wire, behind what was `before` in them. -/
structure Handed (depth : Nat) (str : Nat → Byte) (l before : List Byte) (p : Serial) : Prop where
  order : p.wire ++ p.fifo = before ++ (crlf (l.take p.s) ++ begun (str p.s) p.place)
  fits : p.fifo.length ≤ depth
  bound : p.s ≤ l.length
  inside : p.place ≠ .test → p.place ≠ .back → p.s < l.length
  newline : p.place = .returnWait ∨ p.place = .returnStore → str p.s = 0x0A
  room : p.place = .returnStore ∨ p.place = .charStore → p.fifo.length < depth
  ended : p.place = .back → p.s = l.length

theorem received_onWire (c : Byte) {l : List Byte} (first : l.head? ≠ some 0x0A) :
    received (onWire c ++ l) = c :: received l := by
  unfold onWire
  by_cases newline : c = 0x0A
  · rw [if_pos newline, newline]
    rfl
  · rw [if_neg newline]
    cases l with
    | nil => rfl
    | cons d l =>
      have other : ¬(c = 0x0D ∧ d = 0x0A) := by
        rintro ⟨-, rfl⟩
        exact first rfl
      change received (c :: d :: l) = _
      rw [received, if_neg other]

theorem crlf_first (l : List Byte) : (crlf l).head? ≠ some 0x0A := by
  cases l with
  | nil => exact fun none => absurd none (by decide)
  | cons c l =>
    unfold crlf onWire
    rw [List.flatMap_cons]
    by_cases newline : c = 0x0A
    · rw [if_pos newline]
      exact fun same => absurd (Option.some.inj same) (by decide)
    · rw [if_neg newline]
      exact fun same => newline (Option.some.inj same)

theorem received_crlf (l : List Byte) : received (crlf l) = l := by
  induction l with
  | nil => rfl
  | cons c l ih =>
    have split : crlf (c :: l) = onWire c ++ crlf l := rfl
    rw [split, received_onWire c (crlf_first l), ih]

theorem onWire_length (c : Byte) : (onWire c).length ≤ 2 := by
  unfold onWire
  split
  · exact Nat.le_refl 2
  · exact Nat.le_succ 1

theorem crlf_length (l : List Byte) : (crlf l).length ≤ 2 * l.length := by
  induction l with
  | nil => exact Nat.le_refl 0
  | cons c l ih =>
    have split : crlf (c :: l) = onWire c ++ crlf l := rfl
    have two := onWire_length c
    rw [split, List.length_append, List.length_cons]
    omega

theorem crlf_snoc (l : List Byte) (c : Byte) : crlf (l ++ [c]) = crlf l ++ onWire c := by
  unfold crlf
  rw [List.flatMap_append, List.flatMap_singleton]

theorem begun_ends (c : Byte) : begun c .charStore ++ [c] = onWire c := by
  unfold begun onWire
  by_cases newline : c = 0x0A
  · rw [if_pos newline, if_pos newline, newline]
    rfl
  · rw [if_neg newline, if_neg newline]
    rfl

variable {depth : Nat} {str : Nat → Byte} {l before : List Byte} {p : Serial}

theorem crlf_further (holds : Holds str l) (inside : p.s < l.length) :
    crlf (l.take (p.s + 1)) = crlf (l.take p.s) ++ onWire (str p.s) := by
  rw [List.take_succ_eq_append_getElem inside, crlf_snoc, holds.same p.s inside]

theorem store_room (c : Byte) (room : p.fifo.length < depth) :
    p.store depth c = { p with fifo := p.fifo ++ [c] } := by
  have clear : ¬ p.Full depth := Nat.not_le.mpr room
  unfold Serial.store
  rw [if_neg clear]

theorem begun_none (c : Byte) {place : Place} (early : place ≠ .charWait ∧ place ≠ .charStore) :
    begun c place = [] := by
  cases place with
  | charWait => exact absurd rfl early.1
  | charStore => exact absurd rfl early.2
  | test | returnWait | returnStore | back => rfl

theorem test_handed (holds : Holds str l) (handed : Handed depth str l before p)
    (here : p.place = .test) : Handed depth str l before (coreStep depth str p) := by
  obtain ⟨fifo, wire, place, s⟩ := p
  obtain rfl : place = .test := here
  have order : wire ++ fifo = before ++ (crlf (l.take s) ++ []) := handed.order
  have fits : fifo.length ≤ depth := handed.fits
  have bound : s ≤ l.length := handed.bound
  unfold coreStep
  by_cases zero : str s = 0
  · have last : s = l.length := by
      by_contra more
      have inside : s < l.length := by omega
      rw [holds.same s inside] at zero
      exact holds.text (zero ▸ List.getElem_mem inside)
    simp only [if_pos zero]
    exact ⟨order, fits, bound, by simp, by simp, by simp, fun _ => last⟩
  · have inside : s < l.length := by
      by_contra beyond
      obtain rfl : s = l.length := by omega
      exact zero holds.ended
    by_cases newline : str s = 0x0A
    · simp only [if_neg zero, if_pos newline]
      exact ⟨order, fits, bound, fun _ _ => inside, fun _ => newline, by simp, by simp⟩
    · simp only [if_neg zero, if_neg newline]
      refine ⟨?_, fits, bound, fun _ _ => inside, by simp, by simp, by simp⟩
      simpa only [begun, if_neg newline] using order

theorem wait_handed (handed : Handed depth str l before p) {next : Place}
    (here : p.place = .returnWait ∧ next = .returnStore ∨ p.place = .charWait ∧ next = .charStore)
    (clear : ¬ p.Full depth) : Handed depth str l before { p with place := next } := by
  have room : p.fifo.length < depth := Nat.not_le.mp clear
  have order := handed.order
  rcases here with ⟨here, rfl⟩ | ⟨here, rfl⟩
  · have inside := handed.inside (by simp [here]) (by simp [here])
    have newline := handed.newline (Or.inl here)
    rw [here] at order
    exact ⟨order, handed.fits, handed.bound, fun _ _ => inside, fun _ => newline, fun _ => room,
      by simp⟩
  · have inside := handed.inside (by simp [here]) (by simp [here])
    rw [here] at order
    exact ⟨order, handed.fits, handed.bound, fun _ _ => inside, by simp, fun _ => room, by simp⟩

theorem return_handed (handed : Handed depth str l before p) (here : p.place = .returnStore) :
    Handed depth str l before { p.store depth 0x0D with place := .charWait } := by
  have room := handed.room (Or.inl here)
  have newline := handed.newline (Or.inr here)
  have inside := handed.inside (by simp [here]) (by simp [here])
  have order := handed.order
  rw [begun_none _ (by simp [here]), List.append_nil] at order
  rw [store_room 0x0D room]
  refine ⟨?_, ?_, handed.bound, fun _ _ => inside, by simp, by simp, by simp⟩
  · change p.wire ++ (p.fifo ++ [0x0D]) = _
    rw [← List.append_assoc, order, List.append_assoc, begun, if_pos newline]
  · change (p.fifo ++ [0x0D]).length ≤ depth
    rw [List.length_append, List.length_singleton]
    exact room

theorem char_handed (holds : Holds str l) (handed : Handed depth str l before p)
    (here : p.place = .charStore) :
    Handed depth str l before
      { p.store depth (str p.s) with place := .test, s := p.s + 1 } := by
  have room := handed.room (Or.inr here)
  have inside := handed.inside (by simp [here]) (by simp [here])
  have order := handed.order
  rw [here] at order
  rw [store_room (str p.s) room]
  refine ⟨?_, ?_, inside, by simp, by simp, by simp, by simp⟩
  · change p.wire ++ (p.fifo ++ [str p.s]) = before ++ (crlf (l.take (p.s + 1)) ++ [])
    rw [List.append_nil, crlf_further holds inside, ← begun_ends, ← List.append_assoc, order,
      List.append_assoc, List.append_assoc]
  · change (p.fifo ++ [str p.s]).length ≤ depth
    rw [List.length_append, List.length_singleton]
    exact room

theorem core_handed (holds : Holds str l) (handed : Handed depth str l before p) :
    Handed depth str l before (coreStep depth str p) := by
  cases here : p.place with
  | test => exact test_handed holds handed here
  | returnWait =>
    unfold coreStep
    simp only [here]
    by_cases full : p.Full depth
    · rwa [if_pos full]
    · rw [if_neg full]
      exact wait_handed handed (Or.inl ⟨here, rfl⟩) full
  | returnStore =>
    unfold coreStep
    simp only [here]
    exact return_handed handed here
  | charWait =>
    unfold coreStep
    simp only [here]
    by_cases full : p.Full depth
    · rwa [if_pos full]
    · rw [if_neg full]
      exact wait_handed handed (Or.inr ⟨here, rfl⟩) full
  | charStore =>
    unfold coreStep
    simp only [here]
    exact char_handed holds handed here
  | back =>
    unfold coreStep
    simp only [here]
    exact handed

theorem shift_handed (handed : Handed depth str l before p) :
    Handed depth str l before (shift p) := by
  unfold shift
  cases waiting : p.fifo with
  | nil => exact handed
  | cons c rest =>
    have order := handed.order
    have fits := handed.fits
    rw [waiting] at order
    rw [waiting, List.length_cons] at fits
    refine ⟨?_, ?_, handed.bound, handed.inside, handed.newline, ?_, handed.ended⟩
    · change p.wire ++ [c] ++ rest = _
      rw [List.append_assoc]
      exact order
    · change rest.length ≤ depth
      omega
    · intro _
      change rest.length < depth
      omega

theorem step_handed (holds : Holds str l) (a : Act) (handed : Handed depth str l before p) :
    Handed depth str l before (step depth str p a) := by
  cases a with
  | core => exact core_handed holds handed
  | shift => exact shift_handed handed

theorem start_handed (fits : p.fifo.length ≤ depth) (here : p.place = .test) (first : p.s = 0) :
    Handed depth str l (p.wire ++ p.fifo) p := by
  refine ⟨?_, fits, by omega, by simp [here], by simp [here], by simp [here], by simp [here]⟩
  rw [first, here]
  exact (List.append_nil _).symm

theorem begun_onWire (c : Byte) (place : Place) : begun c place <+: onWire c := by
  cases place with
  | charWait | charStore => exact ⟨[c], begun_ends c⟩
  | test | returnWait | returnStore | back => exact List.nil_prefix

theorem handed_beginning (holds : Holds str l) (handed : Handed depth str l before p) :
    crlf (l.take p.s) ++ begun (str p.s) p.place <+: crlf l := by
  have split : crlf l = crlf (l.take p.s) ++ crlf (l.drop p.s) := by
    unfold crlf
    rw [← List.flatMap_append, List.take_append_drop]
  rw [split, List.prefix_append_right_inj]
  by_cases inside : p.s < l.length
  · have next : crlf (l.drop p.s) = onWire (str p.s) ++ crlf (l.drop (p.s + 1)) := by
      rw [List.drop_eq_getElem_cons inside, holds.same p.s inside]
      rfl
    rw [next]
    exact (begun_onWire _ _).trans (List.prefix_append _ _)
  · rw [begun_none]
    · exact List.nil_prefix
    · constructor <;> intro here <;> exact inside (handed.inside (by simp [here]) (by simp [here]))

def Place.passed : Place → Nat
  | .test => 0
  | .returnWait => 1
  | .returnStore => 2
  | .charWait => 3
  | .charStore => 4
  | .back => 1

def spent (p : Serial) : Nat := 5 * p.s + p.place.passed + p.wire.length

def Sent (p : Serial) : Prop := p.place = .back ∧ p.fifo = []

@[simp] theorem store_wire (c : Byte) : (p.store depth c).wire = p.wire := by
  unfold Serial.store
  split <;> rfl

@[simp] theorem store_s (c : Byte) : (p.store depth c).s = p.s := by
  unfold Serial.store
  split <;> rfl

theorem core_moves (str : Nat → Byte) (p : Serial) :
    coreStep depth str p = p ∨ spent p < spent (coreStep depth str p) := by
  unfold coreStep spent
  cases here : p.place with
  | test =>
    right
    by_cases zero : str p.s = 0
    · simp only [if_pos zero, Place.passed]
      omega
    · by_cases newline : str p.s = 0x0A
      · simp only [if_neg zero, if_pos newline, Place.passed]
        omega
      · simp only [if_neg zero, if_neg newline, Place.passed]
        omega
  | returnWait | charWait =>
    by_cases full : p.Full depth
    · left
      simp only [if_pos full]
    · right
      simp only [if_neg full, Place.passed]
      omega
  | returnStore | charStore =>
    right
    simp only [Place.passed, store_wire, store_s]
    omega
  | back => exact Or.inl rfl

theorem shift_moves (p : Serial) : shift p = p ∨ spent p < spent (shift p) := by
  unfold shift
  cases waiting : p.fifo with
  | nil => exact Or.inl rfl
  | cons c rest =>
    right
    simp only [spent, List.length_append, List.length_singleton]
    omega

theorem step_moves (str : Nat → Byte) (p : Serial) (a : Act) :
    step depth str p a = p ∨ spent p < spent (step depth str p a) := by
  cases a with
  | core => exact core_moves str p
  | shift => exact shift_moves p

theorem sent_kept (str : Nat → Byte) (a : Act) (sent : Sent p) : Sent (step depth str p a) := by
  obtain ⟨here, nothing⟩ := sent
  cases a with
  | core =>
    simp only [step, coreStep, here]
    exact ⟨here, nothing⟩
  | shift =>
    simp only [step, shift, nothing]
    exact ⟨here, nothing⟩

theorem unsent_moves (positive : 0 < depth) (str : Nat → Byte) (unsent : ¬ Sent p) :
    ∃ a, step depth str p a ≠ p := by
  cases waiting : p.fifo with
  | cons c rest =>
    refine ⟨.shift, fun same => ?_⟩
    have fewer := congrArg (fun q => q.fifo.length) same
    simp only [step, shift, waiting, List.length_cons] at fewer
    omega
  | nil =>
    have clear : ¬ p.Full depth := by
      unfold Serial.Full
      rw [waiting, List.length_nil]
      omega
    refine ⟨.core, fun same => ?_⟩
    have place := congrArg Serial.place same
    have pointer := congrArg Serial.s same
    unfold step coreStep at place pointer
    cases here : p.place with
    | test =>
      simp only [here] at place
      split at place
      · cases place
      · split at place <;> cases place
    | returnWait | charWait =>
      simp only [here, if_neg clear] at place
      cases place
    | returnStore =>
      simp only [here] at place
      cases place
    | charStore =>
      simp only [here] at pointer
      omega
    | back => exact unsent ⟨here, waiting⟩

theorem spent_bounded (holds : Holds str l) (handed : Handed depth str l before p) :
    spent p < 7 * l.length + before.length + 2 := by
  have sent := (handed_beginning holds handed).length_le
  have whole := crlf_length l
  have total := congrArg List.length handed.order
  rw [List.length_append, List.length_append] at total
  have bound := handed.bound
  have passed : 5 * p.s + p.place.passed ≤ 5 * l.length + 1 := by
    cases here : p.place with
    | test | back =>
      simp only [Place.passed]
      omega
    | returnWait | returnStore | charWait | charStore =>
      have inside := handed.inside (by simp [here]) (by simp [here])
      simp only [Place.passed]
      omega
  unfold spent
  omega

/-- `uart0_puts` of any string, on a transmitter that may still hold older bytes. -/
theorem puts_delivers (positive : 0 < depth) (holds : Holds str l) (fits : p.fifo.length ≤ depth)
    (here : p.place = .test) (first : p.s = 0) : Delivers depth str l p := by
  have start := @start_handed depth str l p fits here first
  constructor
  · intro as
    have handed := run_invariant (fun _ a => step_handed holds a) as start
    refine ⟨_, handed_beginning holds handed, handed.order, ?_⟩
    intro back
    rw [handed.ended back, back, List.take_length, begun_none _ (by simp), List.append_nil]
  · intro rounds fair enough
    have preserved := fun q a => @step_handed depth str l (p.wire ++ p.fifo) q holds a
    have sent := rounds_done (fun p a _ => step_moves str p a) preserved
      (fun p a _ => sent_kept str a) (fun p _ => unsent_moves positive str)
      (fun p handed _ => spent_bounded holds handed) rounds fair enough start
    have handed := run_invariant preserved rounds.flatten start
    have order := handed.order
    rw [sent.2, List.append_nil, handed.ended sent.1, sent.1, List.take_length,
      begun_none _ (by simp), List.append_nil] at order
    exact ⟨sent.1, order⟩

def Telling (lvl : LogLevel) (label : List Byte) (timer : Nat) (msg : List Byte) : Prop :=
  ∀ lvl' label' timer' msg', lvl'.label = some label' → timer' < 10 ^ 14 →
    crlf (logLine label timer msg) = crlf (logLine label' timer' msg') →
    lvl = lvl' ∧ timer = timer' ∧ msg = msg'

theorem line_telling {lvl : LogLevel} {label : List Byte} (named : lvl.label = some label)
    {timer : Nat} (early : timer < 10 ^ 14) (msg : List Byte) : Telling lvl label timer msg := by
  intro lvl' label' timer' msg' named' early' same
  have lines := congrArg received same
  rw [received_crlf, received_crlf] at lines
  exact logLine_injective named named' early early' lines

theorem zero_not_mem_logLine {lvl : LogLevel} {label : List Byte} (named : lvl.label = some label)
    (timer : Nat) {msg : List Byte} (text : 0 ∉ msg) : 0 ∉ logLine label timer msg := by
  intro member
  rcases List.mem_append.mp member with front | member
  · exact heading_ne_zero named timer front
  · rcases List.mem_append.mp member with inside | last
    · exact text inside
    · exact absurd (List.mem_singleton.mp last) (by decide)

theorem written_holds {l : List Byte} (text : 0 ∉ l) (b : Slices.Buffer Byte) :
    Holds (write b 0 (l ++ [0])).get l := by
  constructor
  · intro i inside
    have there := write_left b 0 [0] inside
    rwa [Nat.zero_add] at there
  · exact text
  · have there := write_right b 0 l (u := [0]) (i := 0) Nat.zero_lt_one
    rwa [Nat.zero_add] at there

/-- `logprint` sends its line, which tells the level, the time and the message. The buffer is too
    small for messages of more than 229 bytes. -/
theorem log_line_sent {verbosity lvl : LogLevel} {label : List Byte}
    (loud : ¬ lvl.value < verbosity.value) (named : lvl.label = some label) {timer : Nat}
    (bound : timer < 2 ^ 64) {msg : List Byte} (text : 0 ∉ msg) (room : msg.length < 2 ^ 31 - 27)
    {string tmp : Slices.Buffer Byte} (sizes : string.size = 256 ∧ tmp.size = 32)
    (clean : string.overrun = false ∧ tmp.overrun = false) {depth : Nat} (positive : 0 < depth)
    {p : Serial} (fits : p.fifo.length ≤ depth) (here : p.place = .test) (first : p.s = 0) :
    ∃ string' tmp',
      logprint verbosity lvl timer (literal msg) string tmp = some (.line string' tmp') ∧
      tmp'.overrun = false ∧ (string'.overrun = true ↔ 229 < msg.length) ∧
      (msg.length ≤ 229 → Delivers depth string'.get (logLine label timer msg) p) ∧
      (timer < 10 ^ 14 → Telling lvl label timer msg) := by
  refine ⟨_, _, logprint_writes loud named bound text (by omega) string tmp, ?_, ?_, ?_, ?_⟩
  · have most := digits_length bound
    rw [write_overrun, clean.2, Bool.false_or, sizes.2]
    apply past_within
    rw [List.length_append, List.length_singleton]
    omega
  · have whole : (logLine label timer msg ++ [0]).length = 27 + msg.length := by
      simp only [logLine, List.length_append, List.length_singleton, heading_length named]
      omega
    rw [write_overrun, clean.1, Bool.false_or, sizes.1, whole]
    unfold past
    rw [decide_eq_true_iff]
    omega
  · intro _
    exact puts_delivers positive (written_holds (zero_not_mem_logLine named timer text) string) fits
      here first
  · exact fun early => line_telling named early msg

theorem log_line_sent_sample :
    (∃ string' tmp', logprint .info .error 1234567 (literal (ascii "no card"))
        ⟨256, fun _ => 0xCC, false⟩ ⟨32, fun _ => 0xCC, false⟩ = some (.line string' tmp') ∧
      Delivers 1 string'.get (logLine (ascii " [ERROR] ") 1234567 (ascii "no card"))
        ⟨[0x3E], [], .test, 0⟩) ∧
    crlf (logLine (ascii " [ERROR] ") 1234567 (ascii "no card")) =
      ascii "[00000001234567] [ERROR] no card\r\n" := by
  obtain ⟨string', tmp', printed, _, _, delivers, _⟩ := @log_line_sent .info .error
    (ascii " [ERROR] ") (by decide) rfl 1234567 (by decide) (ascii "no card") (by decide)
    (by decide) ⟨256, fun _ => 0xCC, false⟩ ⟨32, fun _ => 0xCC, false⟩ ⟨rfl, rfl⟩ ⟨rfl, rfl⟩ 1
    (by decide) ⟨[0x3E], [], .test, 0⟩ (by decide) rfl rfl
  exact ⟨⟨string', tmp', printed, delivers (by decide)⟩, by decide⟩

end Uart
