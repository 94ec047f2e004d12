import MaldOS.Emulated.Tapes
import MaldOS.Hal.FatRead

/-!
The files that tapes are read from: an identifier, then records of a block and a
marker each. The driver finds both by formulas of its own.
-/
namespace Emulated
open Arch ByteMemory Registers Slices

structure Record where
  block : List Byte
  marker : BitVec 32
  whole : block.length = tapeBlocksize

def Record.bytes (r : Record) : List Byte := r.block ++ toBytes 4 r.marker.toNat

/-- At least one record, the last one alone marked as such; a size is a number of 32 bits. -/
structure TapeFile where
  front : List Record
  last : Record
  inner : ∀ r ∈ front, r.marker = eob ∨ r.marker = eof
  ends : last.marker = eot
  small : 4 + (front.length + 1) * (tapeBlocksize + 4) < 2 ^ 32

def TapeFile.records (t : TapeFile) : List Record := t.front ++ [t.last]

def TapeFile.count (t : TapeFile) : Nat := t.records.length

def TapeFile.bytes (t : TapeFile) : List Byte :=
  toBytes 4 tapefileid.toNat ++ (t.records.map Record.bytes).flatten

def TapeFile.block (t : TapeFile) (k : Nat) : List Byte := (t.records.map Record.block).getD k []

/-- What `data1` shows at block `k`: the marker of the record before it. -/
def TapeFile.mark (t : TapeFile) : Nat → BitVec 32
  | 0 => ts
  | k + 1 => (t.records.map Record.marker).getD k eot

section
variable (t : TapeFile)

theorem count_eq : t.count = t.front.length + 1 := by simp [TapeFile.count, TapeFile.records]

theorem mark_last : t.mark t.count = eot := by
  rw [count_eq]
  simp [TapeFile.mark, TapeFile.records, t.ends]

theorem mark_inner {k : Nat} (before : k < t.front.length) :
    t.mark (k + 1) = eob ∨ t.mark (k + 1) = eof := by
  have here : t.mark (k + 1) = t.front[k].marker := by
    simp [TapeFile.mark, TapeFile.records, List.getElem?_append_left, before]
  rw [here]
  exact t.inner _ (List.getElem_mem before)

theorem mark_eot_iff {k : Nat} (inside : k ≤ t.count) : t.mark k = eot ↔ k = t.count := by
  rw [count_eq] at *
  constructor
  · intro marked
    by_contra early
    cases k with
    | zero =>
      rw [TapeFile.mark] at marked
      exact absurd marked (by decide)
    | succ k =>
      rcases mark_inner t (k := k) (by omega) with isEob | isEof
      · rw [isEob] at marked
        exact absurd marked (by decide)
      · rw [isEof] at marked
        exact absurd marked (by decide)
  · rintro rfl
    rw [← count_eq]
    exact mark_last t

theorem mark_known {k : Nat} (inside : k + 1 ≤ t.count) :
    t.mark (k + 1) = eob ∨ t.mark (k + 1) = eof ∨ t.mark (k + 1) = eot := by
  by_cases last : k + 1 = t.count
  · rw [last]
    exact Or.inr (Or.inr (mark_last t))
  · rw [count_eq] at *
    rcases mark_inner t (k := k) (by omega) with isEob | isEof
    · exact Or.inl isEob
    · exact Or.inr (Or.inl isEof)

theorem record_length (r : Record) : r.bytes.length = tapeBlocksize + 4 := by
  simp [Record.bytes, r.whole]

theorem file_length : t.bytes.length = 4 + t.count * (tapeBlocksize + 4) := by
  have rows : ∀ rs : List Record, (rs.map Record.bytes).flatten.length =
      rs.length * (tapeBlocksize + 4) := by
    intro rs
    induction rs with
    | nil => simp
    | cons r rs ih =>
      rw [List.map_cons, List.flatten_cons, List.length_append, ih, record_length, List.length_cons,
        Nat.succ_mul, Nat.add_comm]
  rw [TapeFile.bytes, List.length_append, rows, toBytes_length]
  rfl

theorem index_small {k : Nat} (inside : k < t.count) : u32 (k + 1) = k + 1 := by
  have small := t.small
  have total := count_eq t
  unfold tapeBlocksize at small
  exact u32_of_lt (by omega)

theorem block_room {k : Nat} (inside : k < t.count) :
    u32 (k * tapeBlocksize + (k + 1) * 4) = k * tapeBlocksize + (k + 1) * 4 ∧
      k * tapeBlocksize + (k + 1) * 4 + tapeBlocksize ≤ t.bytes.length := by
  have small := t.small
  have total := count_eq t
  rw [file_length]
  unfold tapeBlocksize at *
  exact ⟨u32_of_lt (by omega), by omega⟩

theorem mark_room {k : Nat} (inside : k < t.count) :
    u32 ((k + 1) * tapeBlocksize + (k + 1) * 4) = (k + 1) * tapeBlocksize + (k + 1) * 4 ∧
      (k + 1) * tapeBlocksize + (k + 1) * 4 + 4 ≤ t.bytes.length := by
  have small := t.small
  have total := count_eq t
  rw [file_length]
  unfold tapeBlocksize at *
  exact ⟨u32_of_lt (by omega), by omega⟩

theorem file_row (k : Nat) {j : Nat} (inside : j < tapeBlocksize + 4) :
    t.bytes.getD (4 + (k * (tapeBlocksize + 4) + j)) 0 =
      ((t.records.map Record.bytes).getD k []).getD j 0 := by
  have uniform : ∀ row ∈ t.records.map Record.bytes, row.length = tapeBlocksize + 4 := by
    intro row member
    obtain ⟨r, -, rfl⟩ := List.mem_map.mp member
    exact record_length r
  rw [TapeFile.bytes, List.getD_append_right _ _ _ _ (by simp), toBytes_length,
    Nat.add_sub_cancel_left]
  exact getD_flatten_rows uniform 0 k inside

theorem file_block {k : Nat} (inside : k < t.count) {j : Nat} (early : j < tapeBlocksize) :
    t.bytes.getD (k * tapeBlocksize + (k + 1) * 4 + j) 0 = (t.block k).getD j 0 := by
  have offset : k * tapeBlocksize + (k + 1) * 4 + j = 4 + (k * (tapeBlocksize + 4) + j) := by
    unfold tapeBlocksize
    omega
  have here : k < t.records.length := inside
  rw [offset, file_row t k (by omega)]
  simp only [TapeFile.block, List.getD_eq_getElem?_getD, List.getElem?_map,
    List.getElem?_eq_getElem here, Option.map_some, Option.getD_some, Record.bytes]
  rw [List.getElem?_append_left (by rw [Record.whole]; exact early)]

theorem file_mark {k : Nat} (inside : k < t.count) :
    BitVec.ofNat 32 (Fat.word 4 (fun j => t.bytes.getD j 0)
      ((k + 1) * tapeBlocksize + (k + 1) * 4)) = t.mark (k + 1) := by
  have here : k < t.records.length := inside
  have row : ∀ j < 4, t.bytes.getD ((k + 1) * tapeBlocksize + (k + 1) * 4 + j) 0 =
      (toBytes 4 (t.mark (k + 1)).toNat).getD j 0 := by
    intro j early
    have offset : (k + 1) * tapeBlocksize + (k + 1) * 4 + j =
        4 + (k * (tapeBlocksize + 4) + (tapeBlocksize + j)) := by
      unfold tapeBlocksize
      omega
    rw [offset, file_row t k (by omega)]
    simp only [TapeFile.mark, List.getD_eq_getElem?_getD, List.getElem?_map,
      List.getElem?_eq_getElem here, Option.map_some, Option.getD_some, Record.bytes]
    rw [List.getElem?_append_right (by rw [Record.whole]; omega), Record.whole,
      Nat.add_sub_cancel_left]
  have word : Fat.word 4 (fun j => t.bytes.getD j 0) ((k + 1) * tapeBlocksize + (k + 1) * 4) =
      ofBytes (toBytes 4 (t.mark (k + 1)).toNat) := by
    unfold Fat.word
    apply congrArg
    simp only [List.range_succ, List.range_zero, List.nil_append, List.cons_append, List.map_cons,
      List.map_nil]
    rw [row 0 (by omega), row 1 (by omega), row 2 (by omega), row 3 (by omega)]
    rfl
  have small : (t.mark (k + 1)).toNat < 256 ^ 4 := BitVec.isLt _
  rw [word, ofBytes_toBytes, Nat.mod_eq_of_lt small, BitVec.ofNat_toNat]
  exact BitVec.setWidth_eq _

end

/-- From every volume in `exact` the file at `cluster` is read as it is, and what the read leaves
    is one of them. -/
def Exact (exact : Fat.Volume → Prop) (cluster : Nat) (file : List Byte) : Prop :=
  ∀ v, exact v → ∀ (data : Nat → Byte) (seek length : Nat), length ≤ tapeBlocksize →
    seek + length ≤ file.length → ∃ v', exact v' ∧ Fat.fatReadfile v cluster data seek length =
      some ((length : Int), blit data 0 (fun j => file.getD (seek + j) 0) length, v')

/-- A file in a chain that can be followed is read exactly, as long as nobody writes. -/
theorem path_exact {v : Fat.Volume} {clusters : Nat} {cs : List Nat} {file : List Byte}
    (well : Fat.WellFormed v clusters) (path : Fat.FilePath v clusters cs)
    (within : file.length ≤ v.clusterSize * Fat.reach v cs)
    (bytes : ∀ j < file.length, Fat.fileByte v cs j = file.getD j 0) :
    Exact (fun v' => Fat.Ready v' ∧ Fat.Alike v v') (cs.getD 0 0) file := by
  intro v₁ ⟨ready, alike⟩ data seek length few inside
  have size : tapeBlocksize = 4096 := rfl
  have room : seek + length ≤ v₁.clusterSize * Fat.reach v₁ cs := by
    rw [Fat.alike_clusterSize alike, Fat.alike_reach alike]
    omega
  obtain ⟨v', run, ready', alike', -⟩ := Fat.fatReadfile_path ready (Fat.alike_wellFormed alike well)
    (Fat.alike_path alike path) data seek length (Or.inr room) (by omega)
  have count : min length (v₁.clusterSize * Fat.reach v₁ cs - seek) = length := by omega
  rw [count, i32_of_lt (by omega)] at run
  refine ⟨v', ⟨ready', Fat.alike_trans alike alike'⟩, ?_⟩
  rw [run]
  have same : blit data 0 (fun j => Fat.fileByte v₁ cs (seek + j)) length =
      blit data 0 (fun j => file.getD (seek + j) 0) length := by
    apply blit_congr
    intro j early
    rw [Fat.alike_fileByte alike]
    exact bytes _ (by omega)
  rw [same]

section
variable {exact : Fat.Volume → Prop} {cluster : Nat} {file : List Byte} {s : System}
  (reads : Exact exact cluster file) (held : exact s.fat)
include reads held

theorem readlocal_exact {seek : Nat} (inside : seek + 4 ≤ file.length) :
    ∃ v, exact v ∧ s.readlocal cluster seek =
      (BitVec.ofNat 32 (Fat.word 4 (fun j => file.getD j 0) seek),
        { s with fat := v, met := s.met + 1 }) := by
  obtain ⟨v, kept, run⟩ := reads s.fat held
    (fun i => (toBytes 4 (s.locals s.met).toNat).getD i 0) seek 4 (by decide) inside
  refine ⟨v, kept, ?_⟩
  have word : ∀ data : Nat → Byte, Fat.word 4 (blit data 0 (fun j => file.getD (seek + j) 0) 4) 0 =
      Fat.word 4 (fun j => file.getD j 0) seek := by
    intro data
    apply Fat.word_congr
    intro j early
    rw [Nat.zero_add]
    exact blit_front _ _ early
  simp only [System.readlocal, run, Option.get_some, word]

theorem readfile_exact (p : BitVec 64) {seek : Nat} (inside : seek + tapeBlocksize ≤ file.length) :
    ∃ v, exact v ∧ s.readfile cluster p seek tapeBlocksize = ((tapeBlocksize : Int), { s with
      ram := unwindow (blit (window s.ram p) 0 (fun j => file.getD (seek + j) 0) tapeBlocksize) p
      fat := v }) := by
  obtain ⟨v, kept, run⟩ := reads s.fat held (window s.ram p) seek tapeBlocksize le_rfl inside
  refine ⟨v, kept, ?_⟩
  simp only [System.readfile, run, Option.get_some]

end

end Emulated
