import MaldOS.Emulated.ReadingOrder
import MaldOS.Emulated.Screen
import MaldOS.Emulated.TermPuts

/-!
What `term_puts` leaves on the screen: the calls of `lfb_send` in the terminal of
its printer, among those in the other terminals, as long as no character is sent
to a line that is full.
-/
namespace TermPuts
open Arch ByteMemory Emulated Runs Rounds

/-- The cells of a terminal, with those right of its last column. -/
def InTerminal (num : Fin maxDevices) (call : Int × Int × Byte) : Prop :=
  (terminalStartingCoordinates num).1 ≤ call.1 ∧
    call.1 ≤ (terminalStartingCoordinates num).1 + textColumns ∧
    (terminalStartingCoordinates num).2 ≤ call.2.1 ∧
    call.2.1 < (terminalStartingCoordinates num).2 + 30

instance (num : Fin maxDevices) : DecidablePred (InTerminal num) :=
  fun _ => inferInstanceAs (Decidable (_ ∧ _))

def shown (num : Fin maxDevices) (s : System) : List (Int × Int × Byte) :=
  s.screen.filter fun call => decide (InTerminal num call)

/-- What is drawn for a character at `place`: a newline blanks the rest of its line. -/
def letter (num : Fin maxDevices) (place : Int × Int) (c : Byte) : List (Int × Int × Byte) :=
  let start := terminalStartingCoordinates num
  if c = 0x0D then []
  else if c = 0x0A then (List.range (71 - place.1).toNat).map fun (i : Nat) =>
    (place.1 + start.1 + i, place.2 + start.2, 0x20)
  else [(place.1 + start.1, place.2 + start.2, c)]

/-- What is drawn for a text, each character where the one before it leaves the cursor. -/
def text (num : Fin maxDevices) : Int × Int → List Byte → List (Int × Int × Byte)
  | _, [] => []
  | place, c :: cs => letter num place c ++ text num (advance num place c) cs

def Room (place : Int × Int) (c : Byte) : Prop := Printed c → place.1 < textColumns

def Fits (num : Fin maxDevices) (place : Int × Int) (cs : List Byte) : Prop :=
  Along (advance num) Room place cs

theorem text_snoc (num : Fin maxDevices) (place : Int × Int) (cs : List Byte) (c : Byte) :
    text num place (cs ++ [c]) =
      text num place cs ++ letter num (run (advance num) place cs) c := by
  induction cs generalizing place with
  | nil => exact List.append_nil _
  | cons d cs ih => rw [List.cons_append, text, text, ih, run, List.append_assoc]

section
variable {s s' : System} {num : Fin maxDevices}

theorem calls_letter {c : Byte} (room : Room (s.printers num).coordinates c) :
    calls s (num, c) = letter num (s.printers num).coordinates c := by
  unfold letter
  by_cases returns : c = 0x0D
  · subst returns
    rw [if_pos rfl]
    simp [calls, send, printerSend, System.setPrinter]
  · by_cases newline : c = 0x0A
    · subst newline
      rw [if_neg (by decide), if_pos rfl]
      exact cells_of_newline s num
    · rw [if_neg returns, if_neg newline, calls_printed s num ⟨returns, newline⟩,
        if_pos (room ⟨returns, newline⟩)]

theorem send_advances (cursors : Cursors s) {c : Byte}
    (room : Room (s.printers num).coordinates c) :
    ((send s (num, c)).printers num).coordinates =
      advance num (s.printers num).coordinates c := by
  have together : Together (s, fun other => (s.printers other).coordinates) :=
    ⟨cursors, fun _ => rfl⟩
  exact ((@together_step _ together (num, c) room).2 num).trans (Function.update_self _ _ _)

theorem calls_inTerminal (cursors : Cursors s) (a : Sent) :
    ∀ call ∈ calls s a, InTerminal a.1 call := by
  intro call member
  obtain ⟨num, c⟩ := a
  obtain ⟨⟨left, right⟩, top, bottom⟩ := cursors num
  have rows : (s.printers num).coordinates.2 < 30 := by
    split_ifs at bottom <;> omega
  unfold InTerminal textColumns
  by_cases newline : c = 0x0A
  · subst newline
    rw [cells_of_newline, List.mem_map] at member
    obtain ⟨i, inside, rfl⟩ := member
    rw [List.mem_range] at inside
    dsimp only
    omega
  · obtain ⟨short, rfl⟩ := cells_of_other newline member
    dsimp only at short ⊢
    omega

theorem inTerminal_one {other : Fin maxDevices} {call : Int × Int × Byte}
    (here : InTerminal num call) (there : InTerminal other call) : num = other := by
  have first : num.val < 4 := num.isLt
  have second : other.val < 4 := other.isLt
  unfold InTerminal textColumns at here there
  rw [starting_coordinates] at here there
  apply Fin.ext
  omega

theorem shown_own (cursors : Cursors s) (c : Byte) :
    shown num (send s (num, c)) = shown num s ++ calls s (num, c) := by
  have own : (calls s (num, c)).filter (fun call => decide (InTerminal num call)) =
      calls s (num, c) := by
    rw [List.filter_eq_self]
    exact fun call member => decide_eq_true (calls_inTerminal cursors (num, c) call member)
  unfold shown
  rw [send_screen, List.filter_append, own]

theorem shown_other (cursors : Cursors s) {other : Fin maxDevices} (apart : other ≠ num)
    (c : Byte) : shown num (send s (other, c)) = shown num s := by
  have none : (calls s (other, c)).filter (fun call => decide (InTerminal num call)) = [] := by
    rw [List.filter_eq_nil_iff]
    intro call member inside
    exact apart (inTerminal_one (calls_inTerminal cursors (other, c) call member)
      (of_decide_eq_true inside))
  unfold shown
  rw [send_screen, List.filter_append, none, List.append_nil]

theorem shown_view (same : s'.view = s.view) (num : Fin maxDevices) : shown num s' = shown num s := by
  have screen : s'.screen = s.screen := congrArg Prod.fst same
  rw [shown, screen, shown]

theorem place_view (same : s'.view = s.view) (num : Fin maxDevices) :
    (s'.printers num).coordinates = (s.printers num).coordinates :=
  congrFun (congrArg Prod.snd same) num

theorem cursors_view (same : s'.view = s.view) (cursors : Cursors s) : Cursors s' := by
  intro num
  rw [place_view same]
  exact cursors num

end

section
variable {i : Fin maxDevices} {block : BitVec 64} {s₀ : System}

/-- The text that was handed over is to be seen, and the cursor stands behind it. -/
structure Reads (i : Fin maxDevices) (s₀ : System) (w : World) : Prop where
  cursors : Cursors w.sys
  place : (w.sys.printers i).coordinates = run (advance i) (s₀.printers i).coordinates w.sent
  shown : shown i w.sys = shown i s₀ ++ text i (s₀.printers i).coordinates w.sent

theorem clientStep_view (s : System) (c : Client) : (clientStep i block s c).1.view = s.view := by
  obtain ⟨place, left⟩ := c
  cases place with
  | puts =>
    simp only [clientStep]
    split_ifs
    · rfl
    · exact mailbox_view _ (.printer, i) block
  | judge =>
    simp only [clientStep]
    split_ifs
    · rfl
    · exact mailbox_view _ (.printer, i) block
  | busyWait =>
    simp only [clientStep]
    split_ifs
    · rfl
    · exact mailbox_view _ (.printer, i) block
  | readWait | printWait | ackWait =>
    simp only [clientStep]
    split_ifs <;> rfl
  | finished | refused => rfl

theorem handed_none {s : System} {a : Act} (none : handed i s a = []) (cursors : Cursors s) :
    Cursors (step s a) ∧ shown i (step s a) = shown i s ∧
      ((step s a).printers i).coordinates = (s.printers i).coordinates := by
  rcases step_view s a with same | ⟨j, ends, busy, command, drawn⟩
  · exact ⟨cursors_view same cursors, shown_view same i, place_view same i⟩
  · have apart : j ≠ i := by
      rintro rfl
      obtain ⟨⟨next, rfl⟩, r, rest, entries, past, own⟩ := ends
      simp [handed, entries, past, own, busy, command] at none
    refine ⟨cursors_view drawn (cursors_send cursors _), ?_, ?_⟩
    · rw [shown_view drawn, shown_other cursors apart]
    · rw [place_view drawn]
      simp [send, printerSend, System.setPrinter, apart.symm]

theorem handed_view {s : System} {a : Act} (some : handed i s a ≠ []) : ∃ c, handed i s a = [c] ∧
    (step s a).view = (send s (i, c)).view := by
  obtain ⟨ends, busy, command, same⟩ := handed_ends some
  obtain ⟨r, q, -, completed⟩ := expiry_completes ⟨busy, command⟩ ends
  exact ⟨_, same, completed_view completed⟩

theorem move_reads {w : World} (reads : Reads i s₀ w) (m : Move)
    (fits : Fits i (s₀.printers i).coordinates (move i block w m).sent) :
    Reads i s₀ (move i block w m) := by
  obtain ⟨sys, client, sent⟩ := w
  obtain ⟨cursors, place, drawn⟩ := reads
  cases m with
  | client =>
    have same := @clientStep_view i block sys client
    exact ⟨cursors_view same cursors, (place_view same i).trans place, (shown_view same i).trans drawn⟩
  | other a =>
    dsimp only [move] at fits ⊢
    by_cases none : handed i sys a = []
    · obtain ⟨cursors', still, stays⟩ := handed_none none cursors
      refine ⟨cursors', ?_, ?_⟩
      · rw [none, List.append_nil]
        exact stays.trans place
      · rw [none, List.append_nil]
        exact still.trans drawn
    · obtain ⟨c, same, view⟩ := handed_view none
      rw [same] at fits ⊢
      obtain ⟨-, room, -⟩ := (along_append (advance i) Room _ sent [c]).mp fits
      dsimp only at place drawn
      rw [← place] at room
      refine ⟨cursors_view view (cursors_send cursors _), ?_, ?_⟩
      · rw [place_view view, send_advances cursors room, run_append, ← place]
        rfl
      · rw [shown_view view, shown_own cursors, calls_letter room, drawn, text_snoc, ← place,
          List.append_assoc]

end

/-- A client that has a printer to itself never finds it not ready and comes to its end after six
    steps for each character, and one, that it takes while the printer is not at work. If its
    string fits the lines, a beginning of the string is to be seen at any time, every character
    once and in reading order, and at the end all of it. -/
theorem term_puts_prints (i : Fin maxDevices) {block : BitVec 64} (given : block ≠ 0) {s : System}
    (ready : Idle i s) (cursors : Cursors s) (str : List Byte) (ms : List Move)
    (unseen : Along (move i block) (Private i block) (started s str) ms) :
    (run (move i block) (started s str) ms).client.place ≠ .refused ∧
      (6 * str.length + 1 ≤ tally (move i block) (Free i) (started s str) ms →
        (run (move i block) (started s str) ms).client.place = .finished) ∧
      (Fits i (s.printers i).coordinates str → ∃ done, done <+: str ∧
        shown i (run (move i block) (started s str) ms).sys =
          shown i s ++ text i (s.printers i).coordinates done ∧
        ((run (move i block) (started s str) ms).client.place = .finished → done = str)) := by
  have first : Fine i block str (started s str) := started_fine ready str
  have fine := @run_along _ _ (move i block) (Fine i block str) (Private i block)
    (fun w m fine unseen => (move_fine given fine unseen).1) ms _ first unseen
  have spent : 6 * str.length + 1 ≤ tally (move i block) (Free i) (started s str) ms →
      weight (run (move i block) (started s str) ms).client = 0 :=
    @tally_done _ _ (move i block) (Fine i block str) (fun w => weight w.client) (Free i)
      (Private i block) _ (fun w m fine unseen => move_fine given fine unseen) ms _ first unseen
  have reads : Fits i (s.printers i).coordinates str →
      Reads i s (run (move i block) (started s str) ms) := by
    intro fits
    refine (@run_along _ _ (move i block) (fun w => Fine i block str w ∧ Reads i s w)
      (Private i block) ?_ ms _ ⟨first, cursors, rfl, (List.append_nil _).symm⟩ unseen).2
    intro w m both unseen
    have next := (move_fine given both.1 unseen).1
    obtain ⟨rest, whole⟩ := fine_starts next
    rw [← whole] at fits
    exact ⟨next, move_reads both.2 m ((along_append _ _ _ _ rest).mp fits).1⟩
  generalize run (move i block) (started s str) ms = w at fine spent reads
  refine ⟨?_, fun enough => fine_over fine (spent enough), fun fits =>
    ⟨w.sent, fine_starts fine, (reads fits).shown, ?_⟩⟩
  · intro refused
    unfold Fine at fine
    simp only [refused] at fine
  · intro finished
    unfold Fine at fine
    simp only [finished] at fine
    exact fine.2

/-- The client of printer 0 prints an `A`; while it waits, time passes and the timer expires. -/
def printingA : List Move :=
  [.client, .client, .client, .client, .other (.tick 10000), .client, .other (.expire noTimer),
    .client, .client, .client, .client]

def waitingA : World := run (move 0 0x10000) (started bareSystem [0x41])
  [.client, .client, .client, .client, .other (.tick 10000), .client]

theorem waitingA_ends : Ends (.printer, 0) waitingA.sys (.expire noTimer) := by
  have entries : waitingA.sys.queue.entries = [⟨8, .printer, 0⟩] := by decide +kernel
  exact ⟨⟨noTimer, rfl⟩, _, _, entries, by decide +kernel, rfl⟩

theorem printingA_private :
    Along (move 0 0x10000) (Private 0 0x10000) (started bareSystem [0x41]) printingA :=
  ⟨trivial, trivial, trivial, trivial, tick_private _ _, trivial, expire_private waitingA_ends,
    trivial, trivial, trivial, trivial, trivial⟩

theorem term_puts_prints_sample :
    (run (move 0 0x10000) (started bareSystem [0x41]) printingA).client.place = .finished ∧
      shown 0 (run (move 0 0x10000) (started bareSystem [0x41]) printingA).sys =
        [(0, 0, 0x41)] := by
  obtain ⟨-, ends, prints⟩ := @term_puts_prints 0 0x10000 (by decide) bareSystem rfl
    (init_cursors bare_init) [0x41] printingA printingA_private
  have finished := ends (by decide +kernel)
  obtain ⟨done, -, drawn, all⟩ := prints ⟨fun _ => by decide, trivial⟩
  rw [all finished] at drawn
  exact ⟨finished, drawn⟩

end TermPuts
