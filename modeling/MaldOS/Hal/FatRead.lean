import MaldOS.Hal.FatTransfer
import MaldOS.Library.Extents

/-!
`fat_readfile`: the clusters of a chain laid end to end are the file, and a read
returns a slice of it.
-/
namespace Fat
open Arch ByteMemory Slices Sd Extents

/-- How many clusters of the chain `fat_transferfile` can come to. -/
def reach (s : Volume) : List Nat → Nat
  | [] => 0
  | c :: cs => if c < 0xFFF8 then 1 + (if fatEntry s c < 2 ^ 28 then reach s cs else 0) else 0

def bases (s : Volume) (cs : List Nat) : List Nat := cs.map (clusterAddr s)

def fileAddr (s : Volume) (cs : List Nat) (j : Nat) : Nat := addr s.clusterSize (bases s cs) j

def fileByte (s : Volume) (cs : List Nat) (j : Nat) : Byte := s.card.bytes (fileAddr s cs j)

theorem passes_iff (s : Volume) (cs : List Nat) (num : Nat) :
    Passes s cs num ↔ num < reach s cs := by
  induction cs generalizing num with
  | nil => simp [Passes, reach]
  | cons c cs ih =>
    by_cases taken : c < 0xFFF8
    · by_cases clean : fatEntry s c < 2 ^ 28
      · cases num with
        | zero =>
          rw [passes_zero, reach, if_pos taken]
          omega
        | succ num =>
          rw [passes_succ, ih, reach, if_pos taken, if_pos clean]
          simp only [taken, clean, true_and]
          omega
      · cases num with
        | zero =>
          rw [passes_zero, reach, if_pos taken]
          omega
        | succ num =>
          rw [passes_succ, reach, if_pos taken, if_neg clean]
          simp only [clean, false_and, and_false, false_iff]
          omega
    · cases num with
      | zero => simp [passes_zero, reach, taken]
      | succ num => simp [passes_succ, reach, taken]

theorem reach_le (s : Volume) (cs : List Nat) : reach s cs ≤ cs.length := by
  by_contra more
  have passes := (passes_iff s cs cs.length).mpr (by omega)
  exact Nat.lt_irrefl _ passes.1

theorem reach_clean {s : Volume} {cs : List Nat} (taken : ∀ c ∈ cs, c < 0xFFF8)
    (clean : ∀ c ∈ cs, fatEntry s c < 2 ^ 28) : reach s cs = cs.length := by
  induction cs with
  | nil => rfl
  | cons c cs ih =>
    rw [reach, if_pos (taken c (by simp)), if_pos (clean c (by simp)),
      ih (fun d member => taken d (by simp [member])) (fun d member => clean d (by simp [member])),
      List.length_cons]
    omega

theorem chain_bytes {s : Volume} {clusters : Nat} {cs : List Nat}
    (chain : FileChain s clusters cs) (numbers : ∀ c ∈ cs, c < 0xFFF8)
    (size : s.clusterSize ≤ 4096) : s.clusterSize * cs.length < 2 ^ 31 := by
  have few : cs.length ≤ 65526 := by
    have inside : cs ⊆ List.range' 2 65526 := by
      intro c member
      have low := (chain.data c member).1
      have high := numbers c member
      rw [List.mem_range'_1]
      omega
    have within := (List.subperm_of_subset chain.distinct inside).length_le
    rwa [List.length_range'] at within
  have total := Nat.mul_le_mul size few
  omega

section
variable {s s' : Volume} (alike : Alike s s')
include alike

theorem alike_reach (cs : List Nat) : reach s' cs = reach s cs := by
  induction cs with
  | nil => rfl
  | cons c cs ih => rw [reach, reach, alike_entry alike, ih]

theorem alike_fileAddr (cs : List Nat) (j : Nat) : fileAddr s' cs j = fileAddr s cs j := by
  have same : bases s' cs = bases s cs :=
    List.map_congr_left fun c _ => alike_clusterAddr alike c
  rw [fileAddr, fileAddr, same, alike_clusterSize alike]

theorem alike_fileByte (cs : List Nat) (j : Nat) : fileByte s' cs j = fileByte s cs j := by
  rw [fileByte, fileByte, alike_fileAddr alike, alike.bytes]

theorem alike_chain {clusters : Nat} {cs : List Nat} (chain : FileChain s clusters cs) :
    FileChain s' clusters cs :=
  ⟨chain.data, chain.distinct, alike_linked alike cs chain.linked⟩

end

theorem clusterSize_pos {s : Volume} {clusters : Nat} (well : WellFormed s clusters) :
    0 < s.clusterSize := Nat.mul_pos well.sectors (by decide)

theorem clusterSize_lt (s : Volume) : s.clusterSize < 2 ^ 17 := by
  have small := spc_lt s
  unfold Volume.clusterSize
  omega

theorem file_piece {s : Volume} {cs : List Nat} {q o : Nat} (short : q < cs.length)
    (inside : o < s.clusterSize) :
    fileAddr s cs (s.clusterSize * q + o) = clusterAddr s (cs.getD q 0) + o := by
  rw [fileAddr, addr_piece _ _ inside, bases, List.getD_eq_getElem _ _ (by simpa using short),
    List.getElem_map, List.getD_eq_getElem _ _ short]

theorem unsigned_rest {size start : Nat} (inside : start ≤ size) (small : size < 2 ^ 32) :
    u32 (((size : Int)).toNat + 2 ^ 32 - start) = size - start := by
  rw [Int.toNat_natCast, show size + 2 ^ 32 - start = (size - start) + 2 ^ 32 by omega, u32,
    Nat.add_mod_right, Nat.mod_eq_of_lt (by omega)]

theorem read_round {clusters : Nat} {cs : List Nat} (fuel : Nat) {s : Volume}
    (ready : Ready s) (well : WellFormed s clusters) (path : FilePath s clusters cs)
    (data : Nat → Byte) (q start index length : Nat) (inside : start < s.clusterSize)
    (near : q < reach s cs) (more : length > 0) (room : index + length < 2 ^ 32) :
    ∃ s', readLoop (cs.getD 0 0) (fuel + 1) s data q start index length =
        readLoop (cs.getD 0 0) fuel s'
          (blit data index (fun i => fileByte s cs (s.clusterSize * q + start + i))
            (min length (s.clusterSize - start)))
          (q + 1) 0 (index + min length (s.clusterSize - start))
          (length - min length (s.clusterSize - start)) ∧
      Ready s' ∧ Alike s s' ∧ s'.buffer.size = s.buffer.size ∧
      (s.clusterSize ≤ s.buffer.size → s'.buffer.overrun = s.buffer.overrun) := by
  have passes := (passes_iff s cs q).mpr near
  obtain ⟨s₁, run, ready₁, alike₁⟩ := transfer_reads ready well path passes s.buffer
  have small := clusterSize_lt s
  have few := path.few
  have short := passes.1
  obtain ⟨part, partEq⟩ : ∃ part, part = min length (s.clusterSize - start) := ⟨_, rfl⟩
  obtain ⟨buffer, bufferEq⟩ : ∃ b, b = (s.buffer.put 0
    (fun i => s.card.bytes (clusterAddr s (cs.getD q 0) + i)) s.clusterSize).touch start part :=
    ⟨_, rfl⟩
  have step : readLoop (cs.getD 0 0) (fuel + 1) s data q start index length =
      readLoop (cs.getD 0 0) fuel { s₁ with buffer := buffer }
        (blit data index (fun i => buffer.get (start + i)) part) (q + 1) 0 (index + part)
        (length - part) := by
    have positive : ¬ ((s.clusterSize : Int) ≤ 0) := by omega
    have rest := unsigned_rest (Nat.le_of_lt inside) (by omega : s.clusterSize < 2 ^ 32)
    have least : (if s.clusterSize - start < length then s.clusterSize - start else length) =
        part := by
      rw [partEq]
      split <;> omega
    rw [readLoop, if_pos more]
    simp only [run, if_neg positive, rest, least]
    rw [u32_of_lt (by omega : q + 1 < 2 ^ 32), u32_of_lt (by omega : index + part < 2 ^ 32),
      bufferEq]
  have copied : ∀ i < part, buffer.get (start + i) =
      fileByte s cs (s.clusterSize * q + start + i) := by
    intro i early
    have place := file_piece short (by omega : start + i < s.clusterSize)
    rw [Nat.add_assoc, fileByte, place, bufferEq, touch_get, put_get]
    exact blit_front _ _ (by omega)
  rw [← partEq, step, blit_congr copied]
  refine ⟨_, rfl, ⟨ready₁.sector, ready₁.cached, ready₁.sound⟩,
    ⟨alike₁.lba, alike₁.bpb, alike₁.bytes⟩, ?_, ?_⟩
  · rw [bufferEq]
    rfl
  · intro fits
    rw [bufferEq]
    simp only [touch_overrun, put_overrun, put_size]
    rw [past_within (by omega), past_within (by omega), Bool.or_false, Bool.or_false]

theorem read_over {clusters : Nat} {cs : List Nat} (fuel : Nat) {s : Volume}
    (ready : Ready s) (well : WellFormed s clusters) (path : FilePath s clusters cs)
    (data : Nat → Byte) (q start index length : Nat)
    (far : Linked s cs ∧ reach s cs ≤ q ∨ length = 0) :
    ∃ s', readLoop (cs.getD 0 0) (fuel + 1) s data q start index length =
        some (index, data, s') ∧ Ready s' ∧ Alike s s' ∧ s'.buffer = s.buffer := by
  by_cases more : length > 0
  · obtain ⟨linked, beyond⟩ := far.resolve_right (by omega)
    have misses : ¬ Passes s cs q := by
      rw [passes_iff]
      omega
    obtain ⟨s₁, run, ready₁, alike₁⟩ := transfer_misses ready well path.data linked misses s.buffer
      .sdReadblock
    refine ⟨{ s₁ with buffer := s.buffer }, ?_, ⟨ready₁.sector, ready₁.cached, ready₁.sound⟩,
      ⟨alike₁.lba, alike₁.bpb, alike₁.bytes⟩, rfl⟩
    rw [readLoop, if_pos more]
    simp only [run, le_refl, ↓reduceIte]
  · refine ⟨s, ?_, ready, alike_refl s, rfl⟩
    rw [readLoop, if_neg more]

/-- The loop reads on from byte `clusterSize * q + start` of the file, as far as it can come.
    It needs the end of the chain only if it gets there. -/
theorem readLoop_spec {clusters : Nat} {cs : List Nat} (fuel : Nat) {s : Volume}
    (ready : Ready s) (well : WellFormed s clusters) (path : FilePath s clusters cs)
    (data : Nat → Byte) (q start index length : Nat) (inside : start < s.clusterSize)
    (ends : Linked s cs ∨ s.clusterSize * q + start + length ≤ s.clusterSize * reach s cs)
    (bound : length < fuel) (room : index + length < 2 ^ 32) :
    ∃ s', readLoop (cs.getD 0 0) fuel s data q start index length =
        some (index + min length (s.clusterSize * reach s cs - (s.clusterSize * q + start)),
          blit data index (fun i => fileByte s cs (s.clusterSize * q + start + i))
            (min length (s.clusterSize * reach s cs - (s.clusterSize * q + start))), s') ∧
      Ready s' ∧ Alike s s' ∧ s'.buffer.size = s.buffer.size ∧
      (s.clusterSize ≤ s.buffer.size → s'.buffer.overrun = s.buffer.overrun) := by
  induction fuel generalizing s data q start index length with
  | zero => omega
  | succ fuel ih =>
    by_cases near : q < reach s cs ∧ length > 0
    · obtain ⟨s₁, step, ready₁, alike₁, size₁, mark₁⟩ :=
        read_round fuel ready well path data q start index length inside near.1 near.2 room
      obtain ⟨part, partEq⟩ : ∃ part, part = min length (s.clusterSize - start) := ⟨_, rfl⟩
      rw [← partEq] at step
      have whole : s.clusterSize * (q + 1) ≤ s.clusterSize * reach s cs :=
        Nat.mul_le_mul_left _ near.1
      have next : s.clusterSize * (q + 1) = s.clusterSize * q + s.clusterSize := Nat.mul_succ _ _
      have ends₁ : Linked s₁ cs ∨
          s₁.clusterSize * (q + 1) + 0 + (length - part) ≤ s₁.clusterSize * reach s₁ cs := by
        rw [alike_clusterSize alike₁, alike_reach alike₁]
        rcases ends with linked | within
        · exact Or.inl (alike_linked alike₁ cs linked)
        · exact Or.inr (by omega)
      obtain ⟨s', after, ready', alike', size', mark'⟩ := ih ready₁ (alike_wellFormed alike₁ well)
        (alike_path alike₁ path)
        (blit data index (fun i => fileByte s cs (s.clusterSize * q + start + i)) part)
        (q + 1) 0 (index + part) (length - part)
        (by rw [alike_clusterSize alike₁]; omega) ends₁ (by omega) (by omega)
      rw [alike_clusterSize alike₁, alike_reach alike₁] at after
      refine ⟨s', ?_, ready', alike_trans alike₁ alike', size'.trans size₁, ?_⟩
      · have total : part + min (length - part)
              (s.clusterSize * reach s cs - (s.clusterSize * (q + 1) + 0)) =
            min length (s.clusterSize * reach s cs - (s.clusterSize * q + start)) := by omega
        have onward : ∀ i < min (length - part)
              (s.clusterSize * reach s cs - (s.clusterSize * (q + 1) + 0)),
            fileByte s₁ cs (s.clusterSize * (q + 1) + 0 + i) =
              fileByte s cs (s.clusterSize * q + start + (part + i)) := by
          intro i early
          rw [alike_fileByte alike₁]
          exact congrArg _ (by omega)
        rw [step, after, blit_congr onward, ← total, ← blit_append, Nat.add_assoc]
      · intro fits
        rw [mark' (by rw [alike_clusterSize alike₁, size₁]; exact fits), mark₁ fits]
    · have far : reach s cs ≤ q →
          s.clusterSize * reach s cs ≤ s.clusterSize * q := Nat.mul_le_mul_left _
      have outside : Linked s cs ∧ reach s cs ≤ q ∨ length = 0 := by
        by_cases more : length = 0
        · exact Or.inr more
        · have beyond : reach s cs ≤ q := by omega
          refine Or.inl ⟨ends.resolve_right ?_, beyond⟩
          have := far beyond
          omega
      obtain ⟨s', run, ready', alike, same⟩ :=
        read_over fuel ready well path data q start index length outside
      have none : min length (s.clusterSize * reach s cs - (s.clusterSize * q + start)) = 0 := by
        by_cases beyond : reach s cs ≤ q
        · have := far beyond
          omega
        · omega
      rw [none, blit_nothing, Nat.add_zero, run]
      exact ⟨s', rfl, ready', alike, by rw [same], fun _ => by rw [same]⟩

theorem cluster_bytes {s : Volume} (ready : Ready s) :
    u32 (s.bytesPerSector * s.spc) = s.clusterSize := by
  have small := spc_lt s
  rw [ready.sector, u32_of_lt (by omega), Nat.mul_comm, Volume.clusterSize]

theorem fatReadfile_path {s : Volume} {clusters : Nat} {cs : List Nat} (ready : Ready s)
    (well : WellFormed s clusters) (path : FilePath s clusters cs) (data : Nat → Byte)
    (seek length : Nat) (ends : Linked s cs ∨ seek + length ≤ s.clusterSize * reach s cs)
    (room : length < 2 ^ 32) :
    ∃ s', fatReadfile s (cs.getD 0 0) data seek length =
        some (i32 (min length (s.clusterSize * reach s cs - seek)),
          blit data 0 (fun i => fileByte s cs (seek + i))
            (min length (s.clusterSize * reach s cs - seek)), s') ∧
      Ready s' ∧ Alike s s' ∧ s'.buffer.size = s.buffer.size ∧
      (s.clusterSize ≤ s.buffer.size → s'.buffer.overrun = s.buffer.overrun) := by
  have positive := clusterSize_pos well
  obtain ⟨s', run, ready', alike, size, mark⟩ := readLoop_spec (length + 2) ready well path data
    (seek / s.clusterSize) (seek % s.clusterSize) 0 length (Nat.mod_lt _ positive)
    (by rw [Nat.div_add_mod]; exact ends) (by omega) (by omega)
  rw [Nat.div_add_mod, Nat.zero_add] at run
  refine ⟨s', ?_, ready', alike, size, mark⟩
  simp only [fatReadfile, cluster_bytes ready, run, Option.map_some]

theorem fatReadfile_spec {s : Volume} {clusters : Nat} {cs : List Nat} (ready : Ready s)
    (well : WellFormed s clusters) (chain : FileChain s clusters cs) (data : Nat → Byte)
    (seek length : Nat) (room : length < 2 ^ 32) :
    ∃ s', fatReadfile s (cs.getD 0 0) data seek length =
        some (i32 (min length (s.clusterSize * reach s cs - seek)),
          blit data 0 (fun i => fileByte s cs (seek + i))
            (min length (s.clusterSize * reach s cs - seek)), s') ∧
      Ready s' ∧ Alike s s' ∧ s'.buffer.size = s.buffer.size ∧
      (s.clusterSize ≤ s.buffer.size → s'.buffer.overrun = s.buffer.overrun) :=
  fatReadfile_path ready well (chain_path well chain) data seek length (Or.inl chain.linked) room

/-! Both loops end on every volume, whatever the card does. -/

theorem readLoop_some (cluster fuel : Nat) (s : Volume) (data : Nat → Byte)
    (clusterNum index length : Nat) (bound : length < fuel) :
    (readLoop cluster fuel s data clusterNum 0 index length).isSome := by
  induction fuel generalizing s data clusterNum index length with
  | zero => omega
  | succ fuel ih =>
    unfold readLoop
    have size := transfer_bound s s.buffer .sdReadblock clusterNum cluster
    unfold fatTransferfile
    by_cases more : length > 0
    · rw [if_pos more]
      dsimp only
      generalize transferLoop s s.buffer .sdReadblock clusterNum cluster = moved at size
      by_cases none : moved.1 ≤ 0
      · rw [if_pos none]
        rfl
      · rw [if_neg none]
        have rest : u32 (moved.1.toNat + 2 ^ 32 - 0) = moved.1.toNat := by
          rw [Nat.sub_zero, u32, Nat.add_mod_right, Nat.mod_eq_of_lt (by omega)]
        rw [rest]
        apply ih
        split_ifs <;> omega
    · rw [if_neg more]
      rfl

theorem fatReadfile_some (s : Volume) (cluster : Nat) (data : Nat → Byte) (seek length : Nat) :
    (fatReadfile s cluster data seek length).isSome := by
  unfold fatReadfile
  rw [Option.isSome_map]
  unfold readLoop
  split_ifs
  · dsimp only
    split_ifs <;> first | rfl | exact readLoop_some _ _ _ _ _ _ _ (by omega)
  · rfl

/-- Whatever fails on the way, no more is counted than was asked for. -/
theorem readLoop_count (cluster fuel : Nat) {s s' : Volume} {data data' : Nat → Byte}
    {clusterNum start index length n : Nat} (room : index + length < 2 ^ 32)
    (done : readLoop cluster fuel s data clusterNum start index length = some (n, data', s')) :
    n ≤ index + length := by
  induction fuel generalizing s data clusterNum start index length with
  | zero => cases done
  | succ fuel ih =>
    unfold readLoop at done
    by_cases more : length > 0
    · rw [if_pos more] at done
      generalize fatTransferfile s cluster s.buffer clusterNum .sdReadblock = moved at done
      dsimp only at done
      by_cases none : moved.1 ≤ 0
      · rw [if_pos none] at done
        cases done
        omega
      · rw [if_neg none] at done
        generalize u32 (moved.1.toNat + 2 ^ 32 - start) = rest at done
        obtain ⟨part, given⟩ : ∃ part, part = if rest < length then rest else length := ⟨_, rfl⟩
        have some : part ≤ length := by
          rw [given]
          split <;> omega
        rw [← given, u32_of_lt (by omega : index + part < 2 ^ 32)] at done
        have total := ih (by omega) done
        omega
    · rw [if_neg more] at done
      cases done
      omega

/-- No failure of the card shows in the sign of the result. -/
theorem readfile_count {s : Volume} {cluster seek length : Nat} {data : Nat → Byte}
    {r : Int × (Nat → Byte) × Volume} (room : length < 2 ^ 31)
    (done : fatReadfile s cluster data seek length = some r) : 0 ≤ r.1 := by
  obtain ⟨⟨n, data', s'⟩, loop, rfl⟩ := Option.map_eq_some_iff.mp done
  have count := readLoop_count cluster (length + 2) (by omega) loop
  dsimp only
  rw [i32_of_lt (by omega)]
  omega

/-- A read returns the bytes from `seek` on, as many as asked for and left in the file. -/
theorem fatReadfile_slice {s : Volume} {clusters : Nat} {cs : List Nat} (reached : Reached s)
    (well : WellFormed s clusters) (chain : FileChain s clusters cs) (spc : s.spc ≤ 8)
    (numbers : ∀ c ∈ cs, c ≤ 0xFFF7) (reserved : ∀ c ∈ cs, fatEntry s c < 2 ^ 28)
    (data : Nat → Byte) (seek length : Nat) (bound : length < 2 ^ 32) :
    ∃ (n : Nat) (data' : Nat → Byte) (s' : Volume),
      fatReadfile s (cs.getD 0 0) data seek length = some ((n : Int), data', s') ∧
      n = min length (s.clusterSize * cs.length - seek) ∧
      (∀ i < n, data' i = fileByte s cs (seek + i)) ∧ (∀ i, n ≤ i → data' i = data i) ∧
      s'.card.bytes = s.card.bytes := by
  obtain ⟨s', run, -, alike, -⟩ :=
    fatReadfile_spec (reached_ready reached) well chain data seek length bound
  rw [reach_clean (fun c member => Nat.lt_succ_of_le (numbers c member)) reserved] at run
  have size : s.clusterSize ≤ 4096 := by
    unfold Volume.clusterSize
    omega
  have total := chain_bytes chain (fun c member => Nat.lt_succ_of_le (numbers c member)) size
  rw [i32_of_lt (by omega)] at run
  refine ⟨_, _, s', run, rfl, ?_, ?_, alike.bytes⟩
  · intro i early
    exact blit_front _ _ early
  · intro i late
    exact blit_outside (by omega)

theorem fatReadfile_sample :
    ∃ (n : Nat) (data' : Nat → Byte) (s' : Volume),
      fatReadfile sampleVolume 2 (fun _ => 0) 500 1000 = some ((n : Int), data', s') ∧
      n = min 1000 (sampleVolume.clusterSize * 2 - 500) ∧
      (∀ i < n, data' i = fileByte sampleVolume [2, 3] (500 + i)) ∧ (∀ i, n ≤ i → data' i = 0) ∧
      s'.card.bytes = sampleVolume.card.bytes :=
  fatReadfile_slice sample_reached sample_wellFormed sample_chain (by decide) (by decide)
    (by decide) (fun _ => 0) 500 1000 (by decide)

/-! The first bytes of a file, whatever the card does. -/

def firstSector (s : Volume) (cluster : Nat) : Nat → Byte :=
  fun i => s.card.bytes (u32 ((cluster - 2) * s.spc + dataSec s) * 512 + i)

/-- The number is one of a cluster, for the code, and the next transfer succeeds. -/
def Opens (s : Volume) (cluster : Nat) : Prop :=
  (1 < cluster ∧ cluster < 0xFFF8) ∧ s.card.fault s.card.issued = none

instance (s : Volume) (cluster : Nat) : Decidable (Opens s cluster) :=
  inferInstanceAs (Decidable (_ ∧ _))

theorem transfer_unopened {s : Volume} {cluster : Nat} (closed : ¬ Opens s cluster) :
    (fatTransferfile s cluster s.buffer 0 .sdReadblock).1 ≤ 0 := by
  unfold fatTransferfile transferLoop
  by_cases inside : 1 < cluster ∧ cluster < 0xFFF8
  · have fails : s.card.fault s.card.issued ≠ none := fun good => closed ⟨inside, good⟩
    obtain ⟨k, fault⟩ := Option.ne_none_iff_exists'.mp fails
    rw [if_pos inside]
    dsimp only
    rw [read_failed fault]
    decide
  · rw [if_neg inside]

theorem transfer_opened {s : Volume} {cluster : Nat} (opens : Opens s cluster) :
    ∃ (size : Nat) (buffer : Buffer Byte) (s' : Volume), 512 ≤ size ∧ size < 2 ^ 32 ∧
      fatTransferfile s cluster s.buffer 0 .sdReadblock = ((size : Int), buffer, s') ∧
      ∀ i < 512, buffer.get i = firstSector s cluster i := by
  obtain ⟨inside, good⟩ := opens
  have small := spc_lt s
  obtain ⟨moved, given⟩ : ∃ moved, moved =
    sdTransferblock s.card ((cluster - 2) * s.spc + dataSec s) s.buffer s.spc .sdReadblock := ⟨_, rfl⟩
  obtain ⟨blocks, one, few, count⟩ : ∃ blocks, 1 ≤ blocks ∧ blocks ≤ 256 ∧
      moved.1 = ((blocks * 512 : Nat) : Int) := by
    refine ⟨if u32 s.spc < 1 then 1 else u32 s.spc, ?_, ?_, ?_⟩
    · split_ifs <;> omega
    · rw [u32_of_lt (by omega : s.spc < 2 ^ 32)]
      split_ifs <;> omega
    · simp [given, sdTransferblock, outcome, good]
  refine ⟨blocks * 512, moved.2.1, { s with card := moved.2.2 }, by omega, by omega, ?_, ?_⟩
  · unfold fatTransferfile transferLoop
    rw [if_pos inside]
    dsimp only
    rw [← given, count, if_neg (by omega)]
  · intro i early
    rw [given, block_read _ _ _ _ early, good]
    exact if_neg (by simp)

/-- A header comes whole, and over what the buffer held, or not at all. -/
theorem readfile_first (s : Volume) (cluster : Nat) (data : Nat → Byte) {length : Nat}
    (some : 0 < length) (few : length ≤ 512) :
    ∃ s', fatReadfile s cluster data 0 length =
      Option.some (if Opens s cluster then (length : Int) else 0,
        if Opens s cluster then blit data 0 (firstSector s cluster) length else data, s') := by
  unfold fatReadfile readLoop
  dsimp only
  rw [if_pos some, Nat.zero_div, Nat.zero_mod]
  by_cases opens : Opens s cluster
  · obtain ⟨size, buffer, s', large, small, run, holds⟩ := transfer_opened opens
    have rest : u32 (size + 2 ^ 32 - 0) = size := by
      rw [Nat.sub_zero, u32, Nat.add_mod_right, Nat.mod_eq_of_lt small]
    have length32 : u32 (0 + length) = length := by
      rw [Nat.zero_add]
      exact u32_of_lt (by omega)
    simp only [run, Int.toNat_natCast, rest, if_pos opens]
    rw [if_neg (by omega), if_neg (by omega), Nat.sub_self, length32]
    unfold readLoop
    rw [if_neg (Nat.lt_irrefl 0), Option.map_some]
    dsimp only
    have copied : blit data 0 (fun i => buffer.get (0 + i)) length =
        blit data 0 (firstSector s cluster) length := by
      apply blit_congr
      intro i early
      rw [Nat.zero_add]
      exact holds i (by omega)
    rw [i32_of_lt (by omega), touch_get, copied]
    exact ⟨_, rfl⟩
  · have none := transfer_unopened opens
    simp only [if_neg opens]
    rw [if_pos none, Option.map_some]
    exact ⟨_, rfl⟩

end Fat
