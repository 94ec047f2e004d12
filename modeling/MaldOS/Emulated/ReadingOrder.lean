import MaldOS.Emulated.Terminals

/-!
Which characters of a stream reach the screen, and in which cell. At the end of
a line `printer_send` moves the cursor to the next one before it asks whether the
character still has to be drawn.
-/
namespace Emulated
open Arch ByteMemory Runs

abbrev textColumns : Int := 70

def textRows (num : Fin maxDevices) : Int := if num.val > 1 then 29 else 30

def nextRow (num : Fin maxDevices) (row : Int) : Int := if row + 1 < textRows num then row + 1 else 0

/-- The cell of a character that is sent when the cursor is at `place`. -/
def cellFor (num : Fin maxDevices) (place : Int × Int) : Int × Int :=
  if place.1 < textColumns then place else (0, nextRow num place.2)

def Printed (c : Byte) : Prop := c ≠ 0x0D ∧ c ≠ 0x0A

def advance (num : Fin maxDevices) (place : Int × Int) (c : Byte) : Int × Int :=
  if c = 0x0D then (0, place.2)
  else if c = 0x0A then (0, nextRow num place.2)
  else ((cellFor num place).1 + 1, (cellFor num place).2)

/-- A stream of characters with the cursors of somebody who reads it. -/
def followed (p : System × (Fin maxDevices → Int × Int)) (a : Sent) :
    System × (Fin maxDevices → Int × Int) :=
  (send p.1 a, Function.update p.2 a.1 (advance a.1 (p.2 a.1) a.2))

def InText (num : Fin maxDevices) (cell : Int × Int) : Prop :=
  (0 ≤ cell.1 ∧ cell.1 < textColumns) ∧ 0 ≤ cell.2 ∧ cell.2 < textRows num

def DrawnInOrder (p : System × (Fin maxDevices → Int × Int)) (a : Sent) : Prop :=
  Printed a.2 → InText a.1 (cellFor a.1 (p.2 a.1)) ∧
    calls p.1 a = [((cellFor a.1 (p.2 a.1)).1 + (terminalStartingCoordinates a.1).1,
      (cellFor a.1 (p.2 a.1)).2 + (terminalStartingCoordinates a.1).2, a.2)]

def LineHasRoom (p : System × (Fin maxDevices → Int × Int)) (a : Sent) : Prop :=
  Printed a.2 → (p.2 a.1).1 < textColumns

/-- The cursors of the code are those of the reader, in the terminals. -/
def Together (p : System × (Fin maxDevices → Int × Int)) : Prop :=
  Cursors p.1 ∧ ∀ num, (p.1.printers num).coordinates = p.2 num

theorem cursor_rows {num : Fin maxDevices} {place : Int × Int} (cursor : Cursor num place) :
    0 ≤ place.2 ∧ place.2 < textRows num := by
  obtain ⟨-, top, bottom⟩ := cursor
  unfold textRows
  split_ifs at bottom ⊢ <;> omega

theorem nextRow_rows {num : Fin maxDevices} {row : Int} (top : 0 ≤ row) :
    0 ≤ nextRow num row ∧ nextRow num row < textRows num := by
  unfold nextRow textRows
  split_ifs <;> omega

theorem cellFor_inText {num : Fin maxDevices} {place : Int × Int} (cursor : Cursor num place) :
    InText num (cellFor num place) := by
  obtain ⟨top, bottom⟩ := cursor_rows cursor
  unfold cellFor
  by_cases room : place.1 < textColumns
  · rw [if_pos room]
    exact ⟨⟨cursor.1.1, room⟩, top, bottom⟩
  · rw [if_neg room]
    exact ⟨⟨le_refl 0, Int.sign_eq_one_iff_pos.mp rfl⟩, nextRow_rows top⟩

theorem calls_printed (s : System) (num : Fin maxDevices) {c : Byte} (printed : Printed c) :
    calls s (num, c) = if (s.printers num).coordinates.1 < textColumns then
      [((s.printers num).coordinates.1 + (terminalStartingCoordinates num).1,
        (s.printers num).coordinates.2 + (terminalStartingCoordinates num).2, c)] else [] := by
  obtain ⟨noReturn, noNewline⟩ := printed
  simp only [calls, send, printerSend, List.drop_left, if_neg noReturn, if_neg noNewline,
    or_iff_left noNewline, width, textColumns]
  by_cases room : (s.printers num).coordinates.1 < 70
  · rw [if_pos room, if_neg (by omega)]
  · rw [if_neg room, if_pos (by omega), if_neg (by omega)]

theorem drawn_iff {p : System × (Fin maxDevices → Int × Int)} (together : Together p) (a : Sent) :
    DrawnInOrder p a ↔ LineHasRoom p a := by
  obtain ⟨num, c⟩ := a
  obtain ⟨cursors, same⟩ := together
  apply forall_congr'
  intro printed
  rw [calls_printed p.1 num printed, same num]
  constructor
  · rintro ⟨-, drawn⟩
    by_contra full
    rw [if_neg full] at drawn
    cases drawn
  · intro room
    have inText := cellFor_inText (same num ▸ cursors num)
    refine ⟨inText, ?_⟩
    rw [if_pos room, cellFor, if_pos room]

/-- As long as every character is drawn, the code moves its cursor as a reader does. -/
theorem together_step {p : System × (Fin maxDevices → Int × Int)} (together : Together p) {a : Sent}
    (room : LineHasRoom p a) : Together (followed p a) := by
  obtain ⟨num, c⟩ := a
  obtain ⟨cursors, same⟩ := together
  refine ⟨cursors_send cursors (num, c), ?_⟩
  intro other
  by_cases here : other = num
  · subst here
    obtain ⟨-, top, bottom⟩ := cursors other
    rw [same] at top bottom
    have row : (if ¬ (p.2 other).2 + (terminalStartingCoordinates other).2 + 1 ≥
          (terminalStartingCoordinates other).2 + height / 16 + (if other.val > 1 then -1 else 0) then
        (p.2 other).2 + (terminalStartingCoordinates other).2 + 1
          else (terminalStartingCoordinates other).2) - (terminalStartingCoordinates other).2 =
        nextRow other (p.2 other).2 := by
      unfold nextRow textRows height
      split_ifs <;> omega
    simp only [followed, Function.update_self, advance]
    by_cases returns : c = 0x0D
    · simp only [send, printerSend, if_pos returns, System.setPrinter, Function.update_self, same,
        Int.sub_self, Int.add_sub_cancel]
    by_cases newline : c = 0x0A
    · subst newline
      rw [if_neg returns, if_pos rfl]
      simp only [send, printerSend, if_neg returns, or_true, if_true, ne_eq, not_true, and_false,
        if_false, System.setPrinter, Function.update_self, same, Int.sub_self, row]
    · have short := room ⟨returns, newline⟩
      unfold textColumns at short
      dsimp only at short
      have early : ¬ (p.2 other).1 + (terminalStartingCoordinates other).1 + 1 ≥
          (terminalStartingCoordinates other).1 + width / 9 := by
        unfold width
        omega
      rw [if_neg returns, if_neg newline, cellFor, if_pos short]
      simp only [send, printerSend, if_neg returns, same, newline, or_false, if_neg early,
        System.setPrinter, Function.update_self, Int.add_sub_cancel, Prod.mk.injEq, and_true]
      omega
  · simp [followed, send, printerSend, System.setPrinter, here, same]

/-- Every character of a stream is drawn in reading order exactly if none of them is sent when
    its line has been filled. -/
theorem drawn_in_order_iff {b : Boot} {sdOk : Bool} {start : System}
    (init : initSystem b sdOk = some start) (as : List Sent) :
    Along followed DrawnInOrder (start, fun _ => (0, 0)) as ↔
      Along followed LineHasRoom (start, fun _ => (0, 0)) as := by
  apply @along_same _ _ followed Together
  · exact fun p a together => drawn_iff together a
  · exact fun p a together drawn => together_step together ((drawn_iff together a).mp drawn)
  · exact ⟨init_cursors init, init_blank init⟩

theorem drawn_in_order_bare :
    Along followed DrawnInOrder (bareSystem, fun _ => (0, 0)) [(0, 0x41), (2, 0x0A), (0, 0x42)] ↔
      Along followed LineHasRoom (bareSystem, fun _ => (0, 0)) [(0, 0x41), (2, 0x0A), (0, 0x42)] :=
  drawn_in_order_iff bare_init _

/-- Of 71 characters that are sent to terminal 0 the last one is not drawn anywhere. -/
theorem last_character_dropped :
    initSystem bareBoot false = some bareSystem ∧
      calls (run send bareSystem (List.replicate 70 (0, 0x41))) (0, 0x41) = [] ∧
      ¬ Along followed DrawnInOrder (bareSystem, fun _ => (0, 0)) (List.replicate 71 (0, 0x41)) := by
  have dropped : calls (run send bareSystem (List.replicate 70 (0, 0x41))) (0, 0x41) = [] := by
    decide +kernel
  refine ⟨bare_init, dropped, ?_⟩
  intro along
  obtain ⟨-, drawn, -⟩ := (along_append followed DrawnInOrder _ (List.replicate 70 (0, 0x41))
    [(0, 0x41)]).mp along
  obtain ⟨-, cell⟩ := drawn (by unfold Printed; decide)
  rw [@run_fst _ _ _ send followed (fun _ _ => rfl), dropped] at cell
  cases cell

end Emulated
