import MaldOS.Emulated.Installed

/-!
`lfb_send` of `lfb.c`, and the pixels that the characters sent to a terminal
change. The blanks of a newline fill one column more than the characters do, and
in the terminals on the right that column runs over the edge of the screen.
-/
namespace Emulated
open Arch ByteMemory Runs

/-- `psf_t`, and the bytes from `_binary_font_psf_start` on. -/
structure Psf where
  headersize : Nat
  numglyph : Nat
  bytesperglyph : Nat
  height : Nat
  width : Nat
  bytes : Nat → Byte

/-- A font of the `FONT_WIDTH` and `FONT_HEIGHT` in `lfb.h`. -/
structure Font extends Psf where
  tall : height = 16
  wide : width = 8

abbrev pitch : Int := 5120

/-- The words that `lfb_send` stores: the offset of each from `lfb`, and its colour. -/
def lfbStores (font : Psf) (x y : Int) (c : Byte) : List (Int × BitVec 32) :=
  let glyph := font.headersize +
    (if c.toNat < font.numglyph then c.toNat else 0) * font.bytesperglyph
  let offs := y * font.height * pitch + x * (font.width + 1) * 4
  let bytesperline := (font.width + 7) / 8
  if c ≠ 0x0D ∧ c ≠ 0x0A then
    (List.range font.height).flatMap fun (j : Nat) =>
      (List.range font.width).map fun (i : Nat) =>
        let mask := 1 <<< (font.width - 1) >>> i
        let line := offs + j * pitch + i * 4
        (line, if (font.bytes (glyph + j * bytesperline)).toNat &&& mask ≠ 0 then 0xFFFFFF else 0)
  else []

/-- `fb` has the pixels at their offsets. -/
def lfbSend (font : Psf) (fb : Int → BitVec 32) (x y : Int) (c : Byte) : Int → BitVec 32 :=
  (lfbStores font x y c).foldl (fun fb store => Function.update fb store.1 store.2) fb

/-- The pixel at that offset is on the screen, in the quarter of that terminal. -/
def InQuadrant (num : Fin maxDevices) (offset : Int) : Prop :=
  (0 ≤ offset ∧ offset < pitch * 960) ∧
    (offset % pitch / 4 < width ↔ num.val % 2 = 0) ∧ (offset / pitch < height ↔ num.val < 2)

abbrev Sent := Fin maxDevices × Byte

def send (s : System) (a : Sent) : System := printerSend s a.1 a.2

def calls (s : System) (a : Sent) : List (Int × Int × Byte) :=
  (send s a).screen.drop s.screen.length

theorem send_screen (s : System) (a : Sent) : (send s a).screen = s.screen ++ calls s a := by
  simp [calls, send, printerSend, System.setPrinter]

def stores (font : Psf) (s : System) (a : Sent) : List (Int × BitVec 32) :=
  (calls s a).flatMap fun call => lfbStores font call.1 call.2.1 call.2.2

def draw (font : Psf) (s : System) (a : Sent) (fb : Int → BitVec 32) : Int → BitVec 32 :=
  (calls s a).foldl (fun fb call => lfbSend font fb call.1 call.2.1 call.2.2) fb

/-- The character stays in its quarter, and changes no pixel of another one. -/
structure Contained (font : Psf) (s : System) (a : Sent) : Prop where
  own : ∀ store ∈ stores font s a, InQuadrant a.1 store.1
  others : ∀ fb offset, ¬ InQuadrant a.1 offset → draw font s a fb offset = fb offset

def Cursor (num : Fin maxDevices) (place : Int × Int) : Prop :=
  (0 ≤ place.1 ∧ place.1 ≤ 70) ∧ 0 ≤ place.2 ∧ place.2 ≤ (if num.val > 1 then 28 else 29)

def Cursors (s : System) : Prop := ∀ num, Cursor num (s.printers num).coordinates

def Overruns (a : Sent) : Prop := a.2 = 0x0A ∧ a.1.val % 2 = 1

theorem stored_elsewhere (stores : List (Int × BitVec 32)) (offset : Int)
    (spared : ∀ store ∈ stores, store.1 ≠ offset) (fb : Int → BitVec 32) :
    stores.foldl (fun fb store => Function.update fb store.1 store.2) fb offset = fb offset := by
  induction stores generalizing fb with
  | nil => rfl
  | cons store rest ih =>
    have apart : offset ≠ store.1 := (spared store (by simp)).symm
    rw [List.foldl_cons, ih (fun later member => spared later (by simp [member]))]
    exact Function.update_of_ne apart _ _

theorem contained_of_own {font : Psf} {s : System} {a : Sent}
    (own : ∀ store ∈ stores font s a, InQuadrant a.1 store.1) : Contained font s a where
  own := own
  others fb offset outside := by
    have whole : draw font s a fb =
        (stores font s a).foldl (fun fb store => Function.update fb store.1 store.2) fb :=
      List.foldl_flatMap.symm
    rw [whole]
    apply stored_elsewhere
    intro store member same
    exact outside (same ▸ own store member)

/-- A glyph covers the eight left pixels of a cell that is nine wide and sixteen high. -/
theorem offset_of_store {font : Font} {x y : Int} {c : Byte} {store : Int × BitVec 32}
    (member : store ∈ lfbStores font.toPsf x y c) :
    ∃ j i : Nat, j < 16 ∧ i < 8 ∧ store.1 = 5120 * (16 * y + j) + (36 * x + 4 * i) := by
  by_cases printed : c ≠ 0x0D ∧ c ≠ 0x0A
  · rw [lfbStores, if_pos printed] at member
    simp only [List.mem_flatMap, List.mem_map, List.mem_range, font.tall, font.wide] at member
    obtain ⟨j, row, i, column, rfl⟩ := member
    refine ⟨j, i, row, column, ?_⟩
    dsimp only [pitch]
    omega
  · rw [lfbStores, if_neg printed] at member
    simp at member

theorem store_of_offset (font : Font) (x y : Int) {c : Byte} (printed : c ≠ 0x0D ∧ c ≠ 0x0A)
    {j i : Nat} (row : j < 16) (column : i < 8) :
    ∃ store ∈ lfbStores font.toPsf x y c,
      store.1 = 5120 * (16 * y + j) + (36 * x + 4 * i) := by
  rw [lfbStores, if_pos printed]
  simp only [List.mem_flatMap, List.mem_map, List.mem_range, font.tall, font.wide]
  refine ⟨_, ⟨j, row, i, column, rfl⟩, ?_⟩
  dsimp only [pitch]
  omega

theorem line_of_offset {q r : Int} (short : 0 ≤ r ∧ r < 5120) :
    (5120 * q + r) / 5120 = q ∧ (5120 * q + r) % 5120 = r := by
  omega

theorem starting_coordinates (num : Fin maxDevices) :
    terminalStartingCoordinates num =
      (((72 * (num.val % 2) : Nat) : Int), ((31 * (num.val / 2) : Nat) : Int)) := by
  revert num
  decide

theorem lfbStores_inside {font : Font} {num : Fin maxDevices} {x y : Int} {c : Byte}
    (column : (72 * (num.val % 2) : Nat) ≤ x ∧ x ≤ (70 + 71 * (num.val % 2) : Nat))
    (row : (31 * (num.val / 2) : Nat) ≤ y ∧ y ≤ (29 + 30 * (num.val / 2) : Nat))
    {store : Int × BitVec 32} (member : store ∈ lfbStores font.toPsf x y c) :
    InQuadrant num store.1 := by
  obtain ⟨j, i, _, _, place⟩ := offset_of_store member
  have quarter : num.val < 4 := num.isLt
  obtain ⟨line, column⟩ := line_of_offset (q := 16 * y + j) (r := 36 * x + 4 * i) (by omega)
  rw [← place] at line column
  unfold InQuadrant width height pitch
  rw [line, column]
  omega

theorem cursors_send {s : System} (cursors : Cursors s) (a : Sent) : Cursors (send s a) := by
  intro num
  by_cases other : num = a.1
  · subst other
    obtain ⟨⟨left, right⟩, top, bottom⟩ := cursors a.1
    simp only [send, printerSend, System.setPrinter, Function.update_self, starting_coordinates,
      width, height]
    have number : a.1.val < 4 := a.1.isLt
    unfold Cursor
    split_ifs <;> dsimp only <;> omega
  · simpa [send, printerSend, System.setPrinter, other] using cursors num

theorem cells_of_other {s : System} {a : Sent} (other : a.2 ≠ 0x0A) {call : Int × Int × Byte}
    (member : call ∈ calls s a) :
    (s.printers a.1).coordinates.1 < 70 ∧
      call = ((s.printers a.1).coordinates.1 + (terminalStartingCoordinates a.1).1,
        (s.printers a.1).coordinates.2 + (terminalStartingCoordinates a.1).2, a.2) := by
  simp only [calls, send, printerSend, List.drop_left, if_neg other, or_iff_left other, width] at member
  by_cases returns : a.2 = 0x0D
  · simp [returns] at member
  · rw [if_neg returns] at member
    split at member
    · rw [if_neg (by omega)] at member
      simp at member
    · exact ⟨by omega, List.mem_singleton.mp member⟩

/-- A newline fills the row, up to the cell where the cursor rests right of the last column. -/
theorem cells_of_newline (s : System) (num : Fin maxDevices) :
    calls s (num, 0x0A) =
      (List.range (71 - (s.printers num).coordinates.1).toNat).map fun (i : Nat) =>
        ((s.printers num).coordinates.1 + (terminalStartingCoordinates num).1 + i,
          (s.printers num).coordinates.2 + (terminalStartingCoordinates num).2, 0x20) := by
  have room : (terminalStartingCoordinates num).1 + width / 9 -
      ((s.printers num).coordinates.1 + (terminalStartingCoordinates num).1) =
        71 - (s.printers num).coordinates.1 := by
    unfold width
    omega
  simp only [calls, send, printerSend, List.drop_left, room, if_true, or_true, ne_eq,
    not_true, and_false, if_false]
  simp [← List.map_eq_flatMap, Function.comp_def]

theorem newline_overruns (font : Font) {s : System} (cursors : Cursors s) {num : Fin maxDevices}
    (right : num.val % 2 = 1) :
    ∃ store ∈ stores font.toPsf s (num, 0x0A), ¬ InQuadrant num store.1 := by
  obtain ⟨⟨left, last⟩, top, bottom⟩ := cursors num
  obtain ⟨i, rest⟩ : ∃ i : Nat, (s.printers num).coordinates.1 + i = 70 :=
    ⟨(70 - (s.printers num).coordinates.1).toNat, by omega⟩
  have cell : (142, (s.printers num).coordinates.2 + (31 * (num.val / 2) : Nat), (0x20 : Byte)) ∈
      calls s (num, 0x0A) := by
    rw [cells_of_newline, starting_coordinates, List.mem_map]
    refine ⟨i, List.mem_range.mpr (by omega), ?_⟩
    simp only [right, Prod.mk.injEq, and_true]
    omega
  -- the third of the eight pixels is the first one of the next line
  obtain ⟨store, member, place⟩ := store_of_offset font 142
    ((s.printers num).coordinates.2 + (31 * (num.val / 2) : Nat)) (c := 0x20) (by decide)
    (j := 0) (i := 2) (by omega) (by omega)
  refine ⟨store, List.mem_flatMap.mpr ⟨_, cell, member⟩, ?_⟩
  rintro ⟨-, column, -⟩
  rw [place] at column
  unfold width pitch at column
  omega

theorem contained_iff_step (font : Font) {s : System} (cursors : Cursors s) (a : Sent) :
    Contained font.toPsf s a ↔ ¬ Overruns a := by
  constructor
  · rintro contained ⟨newline, right⟩
    obtain ⟨num, c⟩ := a
    subst newline
    obtain ⟨store, member, outside⟩ := newline_overruns font cursors right
    exact outside (contained.own store member)
  · intro spared
    refine contained_of_own ?_
    intro store member
    obtain ⟨num, c⟩ := a
    obtain ⟨call, printed, member⟩ := List.mem_flatMap.mp member
    obtain ⟨⟨left, last⟩, top, bottom⟩ := cursors num
    have number : num.val < 4 := num.isLt
    by_cases newline : c = 0x0A
    · subst newline
      rw [cells_of_newline, List.mem_map] at printed
      obtain ⟨i, short, rfl⟩ := printed
      rw [List.mem_range] at short
      have even : ¬ num.val % 2 = 1 := fun odd => spared ⟨rfl, odd⟩
      refine lfbStores_inside ?_ ?_ member <;> rw [starting_coordinates] <;> dsimp only <;> omega
    · obtain ⟨short, rfl⟩ := cells_of_other newline printed
      dsimp only at short
      refine lfbStores_inside ?_ ?_ member <;> rw [starting_coordinates] <;> dsimp only <;> omega

theorem cursors_of_blank {s : System} (blank : ∀ num, (s.printers num).coordinates = (0, 0)) :
    Cursors s := by
  intro num
  rw [blank]
  unfold Cursor
  split <;> simp

theorem init_blank {b : Boot} {sdOk : Bool} {start : System}
    (init : initSystem b sdOk = some start) : ∀ num, (start.printers num).coordinates = (0, 0) := by
  apply init_invariant init fun s => ∀ num, (s.printers num).coordinates = (0, 0)
  · exact fun _ => rfl
  · exact fun s fat blank => blank
  · exact fun s installed blank => blank
  · intro s fileid i r blank done
    rw [(initEmulatedTape_spares done).2]
    exact blank
  · intro s header i r blank done
    rw [(initEmulatedDisk_spares done).2]
    exact blank
  · exact fun s i blank => blank
  · exact fun s blank => blank

theorem init_cursors {b : Boot} {sdOk : Bool} {start : System}
    (init : initSystem b sdOk = some start) : Cursors start := cursors_of_blank (init_blank init)

/-- The terminals keep to their quarters exactly as long as no newline goes to one on the right. -/
theorem terminals_apart_iff (font : Font) {b : Boot} {sdOk : Bool} {start : System}
    (init : initSystem b sdOk = some start) (as : List Sent) :
    Along send (Contained font.toPsf) start as ↔ ∀ a ∈ as, ¬ Overruns a := by
  rw [← along_forall send]
  exact along_same (fun s a cursors => contained_iff_step font cursors a)
    (fun s a cursors _ => cursors_send cursors a) as (init_cursors init)

def blankFont : Font := ⟨⟨32, 256, 16, 16, 8, fun _ => 0⟩, rfl, rfl⟩

theorem terminals_apart_bare :
    Along send (Contained blankFont.toPsf) bareSystem [(1, 0x41), (0, 0x0A), (3, 0x0D)] ↔
      ∀ a ∈ [((1, 0x41) : Sent), (0, 0x0A), (3, 0x0D)], ¬ Overruns a :=
  terminals_apart_iff blankFont bare_init _

/-- The first newline to terminal 1 blanks pixels at the left edge of terminal 0. -/
theorem newline_leaves_terminal :
    initSystem bareBoot false = some bareSystem ∧
      ¬ Along send (Contained blankFont.toPsf) bareSystem [(1, 0x0A)] := by
  refine ⟨bare_init, ?_⟩
  rintro ⟨contained, -⟩
  obtain ⟨store, member, outside⟩ :=
    @newline_overruns blankFont bareSystem (init_cursors bare_init) 1 (by decide)
  exact outside (contained.own store member)

end Emulated
