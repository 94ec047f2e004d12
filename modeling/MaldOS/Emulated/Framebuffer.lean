import MaldOS.Emulated.Screen
import MaldOS.Library.Tiles

/-!
The framebuffer of `lfb.c` as the screen of a terminal: a grid of lines and, in
each cell, the glyph of the character that was last drawn there. The cells of
the text are clear of each other and of the lines.
-/
namespace Emulated
open Arch ByteMemory Registers ArmTimers EmulatedTimers Runs Tiles

/-- What `lfb_init` asks for and, from a display that has it, gets. -/
abbrev lfbWidth : Nat := 1280

abbrev lfbHeight : Nat := 960

abbrev white : BitVec 32 := 0xFFFFFF

/-- `n` words at steps of `stride` bytes. -/
def drawLine (fb : Int → BitVec 32) (offs stride : Int) (n : Nat) : Int → BitVec 32 :=
  (List.range n).foldl (fun fb (i : Nat) => Function.update fb (offs + i * stride) white) fb

def horizontalLine (fb : Int → BitVec 32) (y : Int) : Int → BitVec 32 :=
  drawLine fb (y * pitch) 4 lfbWidth

def verticalLine (fb : Int → BitVec 32) (x : Int) : Int → BitVec 32 :=
  drawLine fb (x * 4) pitch lfbHeight

def terminalGrid (fb : Int → BitVec 32) : Int → BitVec 32 :=
  verticalLine (horizontalLine fb (lfbHeight / 2 : Nat)) (lfbWidth / 2 : Nat)

def frame (font : Psf) (fb : Int → BitVec 32) (screen : List (Int × Int × Byte)) :
    Int → BitVec 32 :=
  screen.foldl (fun fb call => lfbSend font fb call.1 call.2.1 call.2.2) fb

/-- The pixel at that offset is one of the eight by sixteen of the glyph in that cell. -/
def InGlyph (cell : Int × Int) (offset : Int) : Prop :=
  ∃ j i : Nat, j < 16 ∧ i < 8 ∧ offset = 5120 * (16 * cell.2 + j) + (36 * cell.1 + 4 * i)

def glyphColour (font : Psf) (cell : Int × Int) (c : Byte) (offset : Int) : BitVec 32 :=
  let j := (offset / 5120 - 16 * cell.2).toNat
  let i := ((offset % 5120 - 36 * cell.1) / 4).toNat
  let glyph := font.headersize +
    (if c.toNat < font.numglyph then c.toNat else 0) * font.bytesperglyph
  if (font.bytes (glyph + j)).toNat &&& 1 <<< 7 >>> i ≠ 0 then white else 0

def cells (font : Psf) : Design (Int × Int) Byte Int (BitVec 32) := ⟨InGlyph, glyphColour font⟩

/-- A cell of one of the terminals, but for the last column of those on the right. -/
def InTerminal (cell : Int × Int) : Prop :=
  (0 ≤ cell.1 ∧ cell.1 ≤ 141 ∧ cell.1 ≠ 71) ∧ 0 ≤ cell.2 ∧ cell.2 ≤ 59 ∧ cell.2 ≠ 30

def OnGrid (offset : Int) : Prop :=
  (∃ i : Nat, i < lfbWidth ∧ offset = 480 * pitch + i * 4) ∨
    ∃ i : Nat, i < lfbHeight ∧ offset = 640 * 4 + i * pitch

def BreaksRight (s : System) (a : Act) : Prop :=
  ∃ i : Fin maxDevices, i.val % 2 = 1 ∧ Ends (.printer, i) s a ∧ Busy s (.printer, i) ∧
    (s.regs (.printer, i)).data0.setWidth 8 = (0x0A : Byte)

theorem glyph_line {cell : Int × Int} {offset : Int} (wide : 0 ≤ cell.1 ∧ cell.1 ≤ 141)
    {j i : Nat} (column : i < 8)
    (place : offset = 5120 * (16 * cell.2 + j) + (36 * cell.1 + 4 * i)) :
    offset / 5120 = 16 * cell.2 + j ∧ offset % 5120 = 36 * cell.1 + 4 * i := by
  rw [place]
  exact line_of_offset (by omega)

theorem glyphs_apart (c d : Int × Int) (offset : Int) (hc : InTerminal c) (hd : InTerminal d)
    (inC : InGlyph c offset) (inD : InGlyph d offset) : c = d := by
  obtain ⟨j, i, row, column, place⟩ := inC
  obtain ⟨j', i', row', column', place'⟩ := inD
  obtain ⟨line, rest⟩ := glyph_line ⟨hc.1.1, hc.1.2.1⟩ column place
  obtain ⟨line', rest'⟩ := glyph_line ⟨hd.1.1, hd.1.2.1⟩ column' place'
  exact Prod.ext (by omega) (by omega)

theorem stored_at (stores : List (Int × BitVec 32)) {offset : Int} {w : BitVec 32}
    (same : ∀ store ∈ stores, store.1 = offset → store.2 = w)
    (some : ∃ store ∈ stores, store.1 = offset) (fb : Int → BitVec 32) :
    stores.foldl (fun fb store => Function.update fb store.1 store.2) fb offset = w := by
  induction stores generalizing fb with
  | nil =>
    obtain ⟨store, member, _⟩ := some
    cases member
  | cons store rest ih =>
    rw [List.foldl_cons]
    by_cases later : ∃ store ∈ rest, store.1 = offset
    · exact ih (fun s member => same s (List.mem_cons_of_mem store member)) later _
    · rw [stored_elsewhere rest offset fun s member equal => later ⟨s, member, equal⟩]
      obtain ⟨s, member, place⟩ := some
      rcases List.mem_cons.mp member with rfl | member
      · rw [place, Function.update_self]
        exact same s List.mem_cons_self place
      · exact absurd ⟨s, member, place⟩ later

theorem lfbStores_colour {font : Font} {x y : Int} {c : Byte} (wide : 0 ≤ x ∧ x ≤ 141)
    {store : Int × BitVec 32} (member : store ∈ lfbStores font.toPsf x y c) :
    store.2 = glyphColour font.toPsf (x, y) c store.1 := by
  by_cases printed : c ≠ 0x0D ∧ c ≠ 0x0A
  · rw [lfbStores, if_pos printed] at member
    simp only [List.mem_flatMap, List.mem_map, List.mem_range, font.tall, font.wide] at member
    obtain ⟨j, row, i, column, rfl⟩ := member
    obtain ⟨line, rest⟩ := @glyph_line (x, y)
      (y * (16 : Nat) * pitch + x * ((8 : Nat) + 1) * 4 + j * pitch + i * 4) wide j i column (by
        dsimp only [pitch]
        omega)
    have same : ((y * (16 : Nat) * pitch + x * ((8 : Nat) + 1) * 4 + j * pitch + i * 4) / 5120 -
        16 * y).toNat = j := by
      rw [line]
      dsimp only
      omega
    have same' : (((y * (16 : Nat) * pitch + x * ((8 : Nat) + 1) * 4 + j * pitch + i * 4) % 5120 -
        36 * x) / 4).toNat = i := by
      rw [rest]
      dsimp only
      omega
    simp only [glyphColour, same, same']
    simp
  · rw [lfbStores, if_neg printed] at member
    cases member

/-- `lfb_send` paints one cell. -/
theorem lfbSend_paints (font : Font) {cell : Int × Int} (inside : InTerminal cell) {c : Byte}
    (printed : c ≠ 0x0D ∧ c ≠ 0x0A) (fb : Int → BitVec 32) :
    Paints (cells font.toPsf) cell c fb (lfbSend font.toPsf fb cell.1 cell.2 c) := by
  have wide : 0 ≤ cell.1 ∧ cell.1 ≤ 141 := ⟨inside.1.1, inside.1.2.1⟩
  constructor
  · rintro p ⟨j, i, row, column, place⟩
    apply stored_at
    · rintro store member rfl
      exact lfbStores_colour wide member
    · obtain ⟨store, member, there⟩ := store_of_offset font cell.1 cell.2 printed row column
      exact ⟨store, member, there.trans place.symm⟩
  · intro p outside
    apply stored_elsewhere
    rintro store member rfl
    obtain ⟨j, i, row, column, place⟩ := offset_of_store member
    exact outside ⟨j, i, row, column, place⟩

/-! The lines between the terminals. -/

theorem drawLine_on (fb : Int → BitVec 32) {offs stride : Int} {n i : Nat} (inside : i < n) :
    drawLine fb offs stride n (offs + i * stride) = white := by
  have whole : drawLine fb offs stride n = ((List.range n).map fun (i : Nat) =>
      ((offs + i * stride : Int), white)).foldl
        (fun fb store => Function.update fb store.1 store.2) fb := by
    rw [List.foldl_map]
    rfl
  rw [whole]
  apply stored_at
  · intro store member _
    obtain ⟨k, -, rfl⟩ := List.mem_map.mp member
    rfl
  · exact ⟨_, List.mem_map.mpr ⟨i, List.mem_range.mpr inside, rfl⟩, rfl⟩

theorem drawLine_off (fb : Int → BitVec 32) {offs stride : Int} {n : Nat} {offset : Int}
    (apart : ∀ i : Nat, i < n → offset ≠ offs + i * stride) :
    drawLine fb offs stride n offset = fb offset := by
  have whole : drawLine fb offs stride n = ((List.range n).map fun (i : Nat) =>
      ((offs + i * stride : Int), white)).foldl
        (fun fb store => Function.update fb store.1 store.2) fb := by
    rw [List.foldl_map]
    rfl
  rw [whole]
  apply stored_elsewhere
  rintro store member rfl
  obtain ⟨k, short, rfl⟩ := List.mem_map.mp member
  exact apart k (List.mem_range.mp short) rfl

theorem grid_white (fb : Int → BitVec 32) {offset : Int} (on : OnGrid offset) :
    terminalGrid fb offset = white := by
  unfold terminalGrid verticalLine
  by_cases down : ∃ i : Nat, i < lfbHeight ∧ offset = 640 * 4 + i * pitch
  · obtain ⟨i, short, rfl⟩ := down
    exact drawLine_on _ short
  · obtain ⟨i, short, rfl⟩ := on.resolve_right down
    rw [drawLine_off]
    · exact drawLine_on fb short
    · intro k small equal
      exact down ⟨k, small, equal⟩

theorem grid_spares (fb : Int → BitVec 32) {offset : Int} (off : ¬ OnGrid offset) :
    terminalGrid fb offset = fb offset := by
  unfold terminalGrid verticalLine horizontalLine
  rw [drawLine_off, drawLine_off]
  · intro i short equal
    exact off (Or.inl ⟨i, short, equal⟩)
  · intro i short equal
    exact off (Or.inr ⟨i, short, equal⟩)

theorem grid_clear {cell : Int × Int} (inside : InTerminal cell) {offset : Int}
    (on : OnGrid offset) : ¬ InGlyph cell offset := by
  rintro ⟨j, i, row, column, place⟩
  obtain ⟨⟨left, right, middle⟩, top, bottom, between⟩ := inside
  obtain ⟨line, rest⟩ := glyph_line ⟨left, right⟩ column place
  rcases on with ⟨k, short, equal⟩ | ⟨k, short, equal⟩
  · unfold pitch lfbWidth at *
    omega
  · unfold pitch lfbHeight at *
    omega

/-- What the framebuffer has on it: the calls were for the terminals, and the cursors are in them. -/
structure Texted (s : System) : Prop where
  cursors : Cursors s
  drawn : ∀ call ∈ s.screen, InTerminal (call.1, call.2.1) ∧ call.2.2 ≠ 0x0D ∧ call.2.2 ≠ 0x0A

theorem texted_of_view {s s' : System} (same : s'.view = s.view) (texted : Texted s) :
    Texted s' := by
  have screen : s'.screen = s.screen := congrArg Prod.fst same
  have coordinates : (fun i => (s'.printers i).coordinates) =
    fun i => (s.printers i).coordinates := congrArg Prod.snd same
  constructor
  · intro num
    have own : (s'.printers num).coordinates = (s.printers num).coordinates :=
      congrFun coordinates num
    rw [own]
    exact texted.cursors num
  · rw [screen]
    exact texted.drawn

theorem calls_inside {s : System} (cursors : Cursors s) {a : Sent} (spared : ¬ Overruns a)
    {call : Int × Int × Byte} (member : call ∈ calls s a) :
    InTerminal (call.1, call.2.1) ∧ call.2.2 ≠ 0x0D ∧ call.2.2 ≠ 0x0A := by
  obtain ⟨num, c⟩ := a
  obtain ⟨⟨left, last⟩, top, bottom⟩ := cursors num
  have number : num.val < 4 := num.isLt
  by_cases newline : c = 0x0A
  · subst newline
    rw [cells_of_newline, List.mem_map] at member
    obtain ⟨i, short, rfl⟩ := member
    rw [List.mem_range] at short
    have even : ¬ num.val % 2 = 1 := fun odd => spared ⟨rfl, odd⟩
    have blank : (0x20 : Byte) ≠ 0x0D ∧ (0x20 : Byte) ≠ 0x0A := by decide
    refine ⟨?_, blank⟩
    rw [starting_coordinates]
    unfold InTerminal
    dsimp only
    split_ifs at bottom <;> omega
  · have printed : c ≠ 0x0D := by
      rintro rfl
      simp [calls, send, printerSend] at member
    obtain ⟨short, rfl⟩ := cells_of_other newline member
    refine ⟨?_, printed, newline⟩
    rw [starting_coordinates]
    unfold InTerminal
    dsimp only at short ⊢
    split_ifs at bottom <;> omega

theorem texted_send {s : System} (texted : Texted s) {a : Sent} (spared : ¬ Overruns a) :
    Texted (send s a) := by
  refine ⟨cursors_send texted.cursors a, ?_⟩
  intro call member
  rw [send_screen] at member
  rcases List.mem_append.mp member with before | new
  · exact texted.drawn call before
  · exact calls_inside texted.cursors spared new

theorem texted_step {s : System} {a : Act} (texted : Texted s) (spared : ¬ BreaksRight s a) :
    Texted (step s a) := by
  rcases step_view s a with same | ⟨i, ends, busy, -, drawn⟩
  · exact texted_of_view same texted
  · refine texted_of_view drawn (texted_send texted ?_)
    rintro ⟨newline, right⟩
    exact spared ⟨i, right, ends, busy, newline⟩

theorem initEmulatedTape_screen {s : System} {fileid : Nat → Byte} {i : Fin maxDevices}
    {r : (Nat → Byte) × System} (done : initEmulatedTape s fileid i = some r) :
    r.2.screen = s.screen := by
  unfold initEmulatedTape at done
  generalize Fat.fatGetcluster s.fat (tapeName i) = looked at done
  obtain ⟨cluster, -, rfl⟩ := Option.map_eq_some_iff.mp done
  dsimp only
  split_ifs <;> rfl

theorem initEmulatedDisk_screen {s : System} {header : Nat → Byte} {i : Fin maxDevices}
    {r : (Nat → Byte) × System} (done : initEmulatedDisk s header i = some r) :
    r.2.screen = s.screen := by
  unfold initEmulatedDisk at done
  generalize Fat.fatGetcluster s.fat (diskName i) = looked at done
  obtain ⟨cluster, -, rfl⟩ := Option.map_eq_some_iff.mp done
  dsimp only
  split_ifs <;> rfl

theorem init_screen {b : Boot} {sdOk : Bool} {start : System}
    (init : initSystem b sdOk = some start) : start.screen = [] := by
  apply init_invariant init fun s => s.screen = []
  · rfl
  · exact fun s fat empty => empty
  · exact fun s installed empty => empty
  · intro s fileid i r empty done
    exact (initEmulatedTape_screen done).trans empty
  · intro s header i r empty done
    exact (initEmulatedDisk_screen done).trans empty
  · exact fun s i empty => empty
  · exact fun s empty => empty

/-- The calls that were made, as what is painted on which cell. -/
def strokes (s : System) : List ((Int × Int) × Byte) :=
  s.screen.map fun call => ((call.1, call.2.1), call.2.2)

/-- What is to be seen of a system on a framebuffer that had `ground` on it. -/
def System.pixels (s : System) (font : Psf) (ground : Int → BitVec 32) : Int → BitVec 32 :=
  frame font (terminalGrid ground) s.screen

theorem texted_shows (font : Font) {s : System} (texted : Texted s) (ground : Int → BitVec 32) :
    Shows (cells font.toPsf) (terminalGrid ground) (last (strokes s))
      (s.pixels font.toPsf ground) := by
  have painted : s.pixels font.toPsf ground = (strokes s).foldl
      (fun fb stroke => lfbSend font.toPsf fb stroke.1.1 stroke.1.2 stroke.2)
      (terminalGrid ground) := by
    unfold strokes
    rw [List.foldl_map]
    rfl
  rw [painted]
  apply @shows_last _ _ _ _ _ (cells font.toPsf) InTerminal glyphs_apart
  intro stroke member
  obtain ⟨call, made, rfl⟩ := List.mem_map.mp member
  obtain ⟨inside, printed⟩ := texted.drawn call made
  exact ⟨inside, lfbSend_paints font inside printed⟩


theorem texted_init {b : Boot} {sdOk : Bool} {start : System}
    (init : initSystem b sdOk = some start) : Texted start := by
  refine ⟨init_cursors init, ?_⟩
  rw [init_screen init]
  exact fun call member => absurd member List.not_mem_nil

theorem grid_inside {offset : Int} (on : OnGrid offset) :
    0 ≤ offset ∧ offset < pitch * lfbHeight := by
  rcases on with ⟨i, short, rfl⟩ | ⟨i, short, rfl⟩
  · unfold pitch lfbWidth lfbHeight at *
    omega
  · unfold pitch lfbHeight at *
    omega

theorem glyph_inside {cell : Int × Int} (inside : InTerminal cell) {offset : Int}
    (covers : InGlyph cell offset) : 0 ≤ offset ∧ offset < pitch * lfbHeight := by
  obtain ⟨j, i, row, column, rfl⟩ := covers
  obtain ⟨⟨left, right, -⟩, top, bottom, -⟩ := inside
  unfold pitch lfbHeight
  omega

theorem last_inside {s : System} (texted : Texted s) {cell : Int × Int}
    (painted : last (strokes s) cell ≠ none) : InTerminal cell := by
  obtain ⟨stroke, member, rfl⟩ := stroke_of_last painted
  obtain ⟨call, made, rfl⟩ := List.mem_map.mp member
  exact (texted.drawn call made).1

/-- The screen after any run without a newline to a terminal on the right: in each cell the
    glyph last drawn there, the two lines whole, and nothing outside of the framebuffer. -/
theorem screen_shows (font : Font) {b : Boot} {sdOk : Bool} {start : System}
    (init : initSystem b sdOk = some start) (as : List Act)
    (spared : Along step (fun s a => ¬ BreaksRight s a) start as) (ground : Int → BitVec 32) :
    Shows (cells font.toPsf) (terminalGrid ground) (last (strokes (run step start as)))
        ((run step start as).pixels font.toPsf ground) ∧
      (∀ offset, OnGrid offset → (run step start as).pixels font.toPsf ground offset = white) ∧
      ∀ offset, ¬ (0 ≤ offset ∧ offset < pitch * lfbHeight) →
        (run step start as).pixels font.toPsf ground offset = ground offset := by
  have texted : Texted (run step start as) :=
    run_along (fun s a here spared => texted_step here spared) as (texted_init init) spared
  have shows := texted_shows font texted ground
  refine ⟨shows, ?_, ?_⟩
  · intro offset on
    rw [shows.spared offset fun cell painted => grid_clear (last_inside texted painted) on]
    exact grid_white ground on
  · intro offset outside
    rw [shows.spared offset fun cell painted covers =>
      outside (glyph_inside (last_inside texted painted) covers)]
    exact grid_spares ground fun on => outside (grid_inside on)

theorem screen_shows_printA :
    last (strokes (run step bareSystem [printA, .tick 400, .expire noTimer])) (0, 0) = some 0x41 ∧
      ∀ offset, InGlyph (0, 0) offset →
        (run step bareSystem [printA, .tick 400, .expire noTimer]).pixels blankFont.toPsf
          (fun _ => 0) offset = glyphColour blankFont.toPsf (0, 0) 0x41 offset := by
  have printed : last (strokes (run step bareSystem [printA, .tick 400, .expire noTimer]))
      (0, 0) = some 0x41 := by decide +kernel
  have idle : ∀ i : Fin maxDevices, i.val % 2 = 1 →
      ¬ Busy (run step bareSystem [printA, .tick 400]) (.printer, i) := by decide +kernel
  have spared : Along step (fun s a => ¬ BreaksRight s a) bareSystem
      [printA, .tick 400, .expire noTimer] := by
    refine ⟨?_, ?_, ?_, trivial⟩
    · rintro ⟨i, -, ⟨⟨next, wrong⟩, -⟩, -⟩
      cases wrong
    · rintro ⟨i, -, ⟨⟨next, wrong⟩, -⟩, -⟩
      cases wrong
    · rintro ⟨i, right, -, busy, -⟩
      exact idle i right busy
  exact ⟨printed, (screen_shows blankFont bare_init _ spared fun _ => 0).1.painted _ _ printed⟩

end Emulated
