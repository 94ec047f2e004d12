import MaldOS.Hal.EmmcTransfer
import MaldOS.Hal.Sd
import MaldOS.Library.Runs

/-!
A card behind the registers. It takes each command to ask for blocks, and words
of DATA are those that are due. What a transfer moves is then what the sectors
of `Sd` say it does.
-/
namespace Emmc
open Polling Slices ByteMemory Runs

def byteOf (w : Word) (k : Nat) : Byte := (w >>> (8 * k)).setWidth 8

def bytesOf (buf : Nat → Word) (i : Nat) : Byte := byteOf (buf (i / 4)) (i % 4)

/-- The bytes on the card, the registers that it gets with a command, where the words are that
    are to come, and which way. -/
structure Medium where
  bytes : Nat → Byte
  arg : Word
  size : Word
  due : List Nat
  writing : Bool

def places (first n : Nat) : List Nat := (List.range n).map fun d => first + 4 * d

def Medium.store (m : Medium) (value : Word) : Nat → Byte :=
  match m.writing, m.due with
  | true, place :: _ => blit m.bytes place (byteOf value) 4
  | _, _ => m.bytes

def Medium.takes (ccs : Bool) (m : Medium) : Event → Medium
  | .write .arg1 value => { m with arg := value }
  | .write .blksizecnt value => { m with size := value }
  | .write .cmdtm code =>
    { m with
      due := (blocksOf ccs code m.arg m.size).flatMap fun first => places first 128
      writing := code = cmdWriteSingle ∨ code = cmdWriteMulti }
  | .exchange _ value => { m with bytes := m.store value, due := m.due.tail }
  | _ => m

/-- A word that is read is the one that is due. -/
def Honest (m : Medium) : Event → Prop
  | .exchange _ value =>
    m.writing = false → ∀ place ∈ m.due.head?, ∀ k < 4, byteOf value k = m.bytes (place + k)
  | _ => True

instance (m : Medium) (e : Event) : Decidable (Honest m e) := by
  cases e <;> unfold Honest <;> infer_instance

abbrev Served (ccs : Bool) (m : Medium) (l : List Event) : Prop :=
  Along (Medium.takes ccs) Honest m l

abbrev Medium.after (ccs : Bool) (m : Medium) (l : List Event) : Medium :=
  run (Medium.takes ccs) m l

/-- The events move `n` bytes from `first` on to or from the card; `src` is at the other end. -/
structure Moves (ccs writing : Bool) (first n : Nat) (src : Nat → Byte) (m : Medium)
    (l : List Event) : Prop where
  stored : writing = true → (m.after ccs l).bytes = blit m.bytes first src n
  kept : writing = false → (m.after ccs l).bytes = m.bytes
  given : writing = false → Served ccs m l → ∀ i < n, src i = m.bytes (first + i)

theorem moves_append {ccs writing : Bool} {first n k : Nat} {src : Nat → Byte} {m : Medium}
    {l l' : List Event} (one : Moves ccs writing first n src m l)
    (next : Moves ccs writing (first + n) k (fun i => src (n + i)) (m.after ccs l) l') :
    Moves ccs writing first (n + k) src m (l ++ l') := by
  constructor
  · intro writes
    rw [Medium.after, run_append, next.stored writes, one.stored writes, blit_append]
  · intro reads
    rw [Medium.after, run_append, next.kept reads, one.kept reads]
  · intro reads served i inside
    obtain ⟨before, later⟩ := (along_append _ _ m l l').mp served
    by_cases early : i < n
    · exact one.given reads before i early
    · have late := next.given reads later (i - n) (by omega)
      rw [one.kept reads] at late
      rw [show n + (i - n) = i by omega, show first + n + (i - n) = first + i by omega] at late
      exact late

theorem takes_silent {ccs : Bool} {e : Event} (silent : exchanged e = none) (m : Medium) :
    (m.takes ccs e).bytes = m.bytes := by
  cases e with
  | write r value => cases r <;> rfl
  | exchange index value => cases silent
  | _ => rfl

theorem moves_silent {ccs writing : Bool} {first : Nat} {src : Nat → Byte} {m : Medium}
    {l : List Event} (silent : exchanges l = []) : Moves ccs writing first 0 src m l := by
  have same : (m.after ccs l).bytes = m.bytes := by
    induction l generalizing m with
    | nil => rfl
    | cons e l ih =>
      have none : exchanged e = none := by
        cases found : exchanged e with
        | none => rfl
        | some word => simp [exchanges, found] at silent
      have rest : exchanges l = [] := by
        rw [exchanges, List.filterMap_cons_none none] at silent
        exact silent
      exact (ih rest).trans (takes_silent none m)
  constructor
  · intro _
    rw [same, blit_nothing]
  · exact fun _ => same
  · exact fun _ _ i inside => absurd inside (Nat.not_lt_zero i)

theorem moves_front {ccs writing : Bool} {first n : Nat} {src : Nat → Byte} {m : Medium}
    {l l' : List Event} (silent : exchanges l = [])
    (next : Moves ccs writing first n src (m.after ccs l) l') :
    Moves ccs writing first n src m (l ++ l') := by
  have whole := @moves_append ccs writing first 0 n src m l l' (moves_silent silent)
    (by simpa using next)
  rwa [Nat.zero_add] at whole

theorem moves_behind {ccs writing : Bool} {first n : Nat} {src : Nat → Byte} {m : Medium}
    {l l' : List Event} (one : Moves ccs writing first n src m l) (silent : exchanges l' = []) :
    Moves ccs writing first n src m (l ++ l') := moves_append one (moves_silent silent)

/-! The words of a block. -/

theorem moves_word {ccs : Bool} {m : Medium} {place : Nat} {rest : List Nat}
    (due : m.due = place :: rest) (index : Nat) (value : Word) {src : Nat → Byte}
    (word : ∀ k < 4, src k = byteOf value k) :
    Moves ccs m.writing place 4 src m [.exchange index value] := by
  constructor
  · intro writes
    change m.store value = _
    unfold Medium.store
    rw [writes, due]
    exact (blit_congr word).symm
  · intro reads
    change m.store value = _
    unfold Medium.store
    rw [reads]
  · intro reads served i inside
    rw [word i inside]
    exact served.1 reads place (by rw [due]; rfl) i inside

theorem words_snoc (c : Nat) (buf : Nat → Word) (n : Nat) :
    words c buf (n + 1) = words c buf n ++ [.exchange (128 * c + n) (buf (128 * c + n))] := by
  unfold words
  rw [List.range_succ, List.map_append]
  rfl

theorem places_snoc (first n : Nat) : places first (n + 1) = places first n ++ [first + 4 * n] := by
  unfold places
  rw [List.range_succ, List.map_append]
  rfl

theorem bytesOf_word (buf : Nat → Word) (index : Nat) {k : Nat} (inside : k < 4) :
    bytesOf buf (4 * index + k) = byteOf (buf index) k := by
  unfold bytesOf
  rw [show (4 * index + k) / 4 = index by omega, show (4 * index + k) % 4 = k by omega]

theorem words_moved (ccs : Bool) (c : Nat) (buf : Nat → Word) (n : Nat) {m : Medium} {first : Nat}
    {rest : List Nat} (due : m.due = places first n ++ rest) :
    Moves ccs m.writing first (4 * n) (fun i => bytesOf buf (512 * c + i)) m (words c buf n) ∧
      (m.after ccs (words c buf n)).due = rest ∧
      (m.after ccs (words c buf n)).writing = m.writing := by
  induction n generalizing rest with
  | zero => exact ⟨moves_silent rfl, due, rfl⟩
  | succ n ih =>
    rw [places_snoc, List.append_assoc] at due
    obtain ⟨moved, left, writing⟩ := ih due
    rw [words_snoc, Medium.after, run_append]
    refine ⟨?_, ?_, ?_⟩
    · rw [Nat.mul_succ]
      apply moves_append moved
      rw [← writing]
      apply moves_word left
      intro k inside
      rw [← bytesOf_word buf _ inside]
      exact congrArg (bytesOf buf) (by omega)
    · change (Medium.after ccs m (words c buf n)).due.tail = rest
      rw [left]
      rfl
    · exact writing

/-! The blocks of a transfer. -/

def ReadWrite.writes (rw : ReadWrite) : Bool := rw = .sdWriteblock

def blockPlaces (lba : Word) (numbers : List Nat) : List Nat :=
  numbers.flatMap fun k => places (512 * (lba.toNat + k)) 128

theorem after_idle {ccs : Bool} {l : List Event} (idle : AllIdle l) (m : Medium) :
    m.after ccs l = m := by
  induction l with
  | nil => rfl
  | cons e l ih =>
    have later := ih fun f member => idle f (List.mem_cons_of_mem _ member)
    have head : Idle e := idle e List.mem_cons_self
    cases e with
    | write r value =>
      have interrupt : r = .interrupt := head
      subst interrupt
      exact later
    | exchange _ _ => exact absurd head id
    | _ => exact later

theorem after_signal {ccs : Bool} {mask : Word} {l : List Event} (signal : Signal mask l)
    (m : Medium) : m.after ccs l = m := by
  obtain ⟨idle, _, _, quiet, _, rfl⟩ := signal
  rw [Medium.after, run_append]
  change Medium.after ccs (Medium.after ccs m idle) _ = m
  rw [after_idle quiet]
  rfl

theorem after_done {ccs : Bool} {code arg : Word} {l : List Event} (done : Done code arg l)
    (m : Medium) : m.after ccs l = { m with
      arg := arg
      due := (blocksOf ccs code arg m.size).flatMap fun first => places first 128
      writing := code = cmdWriteSingle ∨ code = cmdWriteMulti } := by
  obtain ⟨_, value, ⟨before, after, idle, idleAfter, rfl⟩, rfl⟩ := done
  rw [Medium.after, run_append, run_append]
  change Medium.after ccs (Medium.after ccs (Medium.after ccs m before) _) _ = _
  rw [after_idle idle]
  change Medium.after ccs (Medium.after ccs _ after) [.read .resp0 value] = _
  rw [after_idle idleAfter]
  rfl

theorem single_writes (rw : ReadWrite) :
    decide (cmdSingle rw = cmdWriteSingle ∨ cmdSingle rw = cmdWriteMulti) = rw.writes := by
  cases rw <;> decide

theorem start_writes (num : Word) (rw : ReadWrite) :
    decide (cmdStart num rw = cmdWriteSingle ∨ cmdStart num rw = cmdWriteMulti) = rw.writes := by
  unfold cmdStart
  split_ifs <;> cases rw <;> decide

/-- What is due before block number `c`: all to come, or nothing in particular. -/
def Due (ccs : Bool) (lba : Word) (rw : ReadWrite) (c done : Nat) (m : Medium) : Prop :=
  ccs = true → m.writing = rw.writes ∧
    ∃ left, done ≤ left ∧ m.due = blockPlaces lba (List.range' c left)

theorem asked_due {ccs : Bool} {lba : Word} {rw : ReadWrite} {c done : Nat} {asked : List Event}
    {m : Medium} (due : Due ccs lba rw c (done + 1) m) (ask : Asked ccs lba rw c asked)
    (inCard : ccs = false → lba.toNat + c < 2 ^ 23) :
    exchanges asked = [] ∧ (m.after ccs asked).writing = rw.writes ∧
      ∃ rest, (m.after ccs asked).due = places (512 * (lba.toNat + c)) 128 ++ rest ∧
        (ccs = true → ∃ left, done ≤ left ∧ rest = blockPlaces lba (List.range' (c + 1) left)) := by
  unfold Asked at ask
  cases ccs with
  | true =>
    have none : asked = [] := ask
    subst none
    obtain ⟨writing, left, enough, all⟩ := due rfl
    obtain ⟨before, rfl⟩ : ∃ k, left = k + 1 := ⟨left - 1, by omega⟩
    refine ⟨rfl, writing, blockPlaces lba (List.range' (c + 1) before), ?_, ?_⟩
    · change m.due = _
      rw [all, List.range'_succ]
      rfl
    · exact fun _ => ⟨before, by omega, rfl⟩
  | false =>
    have done : Done (cmdSingle rw) ((lba + BitVec.ofNat 32 c) * 512) asked := ask
    rw [after_done done, blocksOf_single]
    refine ⟨(done_log done).2, single_writes rw, [], ?_, nofun⟩
    simp only [Bool.false_eq_true, if_false, byte_address (inCard rfl), List.flatMap_cons,
      List.flatMap_nil]

theorem rounds_moved {ccs : Bool} {lba : Word} {rw : ReadWrite} {buf : Nat → Word} {c done : Nat}
    {l : List Event} (rounds : Rounds ccs lba rw buf c done l) {m : Medium}
    (due : Due ccs lba rw c done m) (inCard : ccs = false → lba.toNat + c + done ≤ 2 ^ 23) :
    Moves ccs rw.writes (512 * (lba.toNat + c)) (512 * done) (fun i => bytesOf buf (512 * c + i))
      m l := by
  induction rounds generalizing m with
  | nil c => exact moves_silent rfl
  | @cons c done asked signal later ask signals _ ih =>
    obtain ⟨silent, writing, rest, there, others⟩ := asked_due due ask fun off => by
      have below := inCard off
      omega
    apply moves_front silent
    apply moves_front (signal_log signals).2
    rw [after_signal signals]
    obtain ⟨moved, left, still⟩ := words_moved ccs c buf 128 there
    rw [writing] at moved still
    have next : Moves ccs rw.writes (512 * (lba.toNat + c) + 512) (512 * done)
        (fun i => bytesOf buf (512 * c + (512 + i)))
        ((m.after ccs asked).after ccs (words c buf 128)) later := by
      have further := @ih ((m.after ccs asked).after ccs (words c buf 128)) ?_ ?_
      · rw [show 512 * (lba.toNat + c) + 512 = 512 * (lba.toNat + (c + 1)) by omega]
        have shifted : (fun i => bytesOf buf (512 * c + (512 + i))) =
            fun i => bytesOf buf (512 * (c + 1) + i) := by
          funext i
          exact congrArg (bytesOf buf) (by omega)
        rw [shifted]
        exact further
      · intro on
        obtain ⟨more, enough, all⟩ := others on
        exact ⟨still, more, enough, left.trans all⟩
      · intro off
        have below := inCard off
        omega
    rw [show 512 * (done + 1) = 512 + 512 * done by omega]
    exact moves_append moved next

end Emmc
