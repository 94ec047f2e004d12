import MaldOS.Hal.FatRead

/-!
`fat_writefile`: a round reads a cluster, changes a part of it and writes it
back. The amount it counts as done does not depend on where in the cluster it
starts, and so a write that crosses the end of its first cluster goes wrong.
-/
namespace Fat
open Arch ByteMemory Slices Sd Extents

/-- Same volume, and the card the same up to its data clusters. -/
structure Retains (s s' : Volume) : Prop where
  lba : s'.partitionlba = s.partitionlba
  bpb : s'.biosPartitionBlock = s.biosPartitionBlock
  below : ∀ a < s.dataStart, s'.card.bytes a = s.card.bytes a

section
variable {s s' : Volume} (retains : Retains s s')
include retains

theorem retains_alike : Alike (s.rewrite s'.card.bytes) s' := ⟨retains.lba, retains.bpb, rfl⟩

theorem retains_dataStart : s'.dataStart = s.dataStart := by
  have alike := retains_alike retains
  unfold Volume.dataStart
  rw [alike.lba, alike_rsc alike, alike_spf32 alike, alike_nf alike]
  rfl

theorem retains_trans {s'' : Volume} (next : Retains s' s'') : Retains s s'' := by
  refine ⟨next.lba.trans retains.lba, next.bpb.trans retains.bpb, fun a below => ?_⟩
  rw [next.below a (by rw [retains_dataStart retains]; exact below), retains.below a below]

theorem retains_clusterSize : s'.clusterSize = s.clusterSize :=
  alike_clusterSize (s := s.rewrite s'.card.bytes) (retains_alike retains)

theorem retains_bases (cs : List Nat) : bases s' cs = bases s cs :=
  List.map_congr_left fun c _ => alike_clusterAddr (retains_alike retains) c

variable {clusters : Nat} {cs : List Nat} (well : WellFormed s clusters)
include well

theorem retains_wellFormed : WellFormed s' clusters :=
  alike_wellFormed (s := s.rewrite s'.card.bytes) (retains_alike retains)
    ⟨well.sectors, well.tables, well.table, well.count, well.room⟩

variable (chain : FileChain s clusters cs)
include chain

theorem retains_chain : FileChain s' clusters cs := by
  have linked := rewrite_linked well retains.below cs chain.data chain.linked
  exact ⟨chain.data, chain.distinct, alike_linked (retains_alike retains) cs linked⟩

theorem retains_reach : reach s' cs = reach s cs := by
  rw [alike_reach (retains_alike retains)]
  apply eq_of_forall_lt_iff
  intro num
  rw [← passes_iff, ← passes_iff]
  exact rewrite_passes well retains.below chain.data

end

theorem bases_separated {s : Volume} {clusters : Nat} {cs : List Nat}
    (chain : FileChain s clusters cs) : Separated s.clusterSize (bases s cs) := by
  unfold Separated bases
  rw [List.pairwise_map]
  refine List.Pairwise.imp_of_mem ?_ chain.distinct
  intro c d mc md ne
  have hc := (chain.data c mc).1
  have hd := (chain.data d md).1
  unfold clusterAddr Volume.clusterSize
  rcases Nat.lt_or_gt_of_ne ne with less | more
  · have step : (c - 2 + 1) * s.spc ≤ (d - 2) * s.spc := Nat.mul_le_mul_right _ (by omega)
    rw [Nat.add_mul, Nat.one_mul] at step
    omega
  · have step : (d - 2 + 1) * s.spc ≤ (c - 2) * s.spc := Nat.mul_le_mul_right _ (by omega)
    rw [Nat.add_mul, Nat.one_mul] at step
    omega

theorem write_round {clusters : Nat} {cs : List Nat} (fuel : Nat) {s : Volume}
    (ready : Ready s) (well : WellFormed s clusters) (chain : FileChain s clusters cs)
    (data : Nat → Byte) (q start index length : Nat) (inside : start < s.clusterSize)
    (near : q < reach s cs) (more : length > 0) (room : index + length < 2 ^ 32) :
    ∃ s', writeLoop (cs.getD 0 0) data (fuel + 1) s q start index length =
        writeLoop (cs.getD 0 0) data fuel s' (q + 1) 0 (index + min length s.clusterSize)
          (length - min length s.clusterSize) ∧
      Ready s' ∧ Retains s s' ∧ s'.buffer.size = s.buffer.size ∧
      (s.clusterSize ≤ s.buffer.size → s'.buffer.overrun =
        (s.buffer.overrun || past s.buffer.size start (min length s.clusterSize))) ∧
      Wrote s.clusterSize (bases s cs) s.card.bytes s'.card.bytes (s.clusterSize * q + start)
        (min length (s.clusterSize - start)) fun i => data (index + i) := by
  have passes := (passes_iff s cs q).mpr near
  obtain ⟨s₁, read, ready₁, alike₁⟩ := transfer_reads ready well (chain_path well chain) passes s.buffer
  have small := clusterSize_lt s
  have few := chain_length chain
  have count := well.count
  have short := passes.1
  have positive : ¬ ((s.clusterSize : Int) ≤ 0) := by have := clusterSize_pos well; omega
  obtain ⟨done, doneEq⟩ : ∃ done, done = min length s.clusterSize := ⟨_, rfl⟩
  obtain ⟨base, baseEq⟩ : ∃ base, base = clusterAddr s (cs.getD q 0) := ⟨_, rfl⟩
  obtain ⟨buffer, bufferEq⟩ : ∃ b, b = (s.buffer.put 0
    (fun i => s.card.bytes (base + i)) s.clusterSize).put start (fun i => data (index + i)) done :=
    ⟨_, rfl⟩
  rw [← baseEq] at read
  -- the volume on which the cluster is written back
  have ready₂ : Ready { s₁ with buffer := buffer } := ⟨ready₁.sector, ready₁.cached, ready₁.sound⟩
  have alike₂ : Alike s { s₁ with buffer := buffer } := ⟨alike₁.lba, alike₁.bpb, alike₁.bytes⟩
  have passes₂ : Passes { s₁ with buffer := buffer } cs q := by
    rw [passes_iff, alike_reach alike₂]
    exact near
  obtain ⟨s₃, wrote, ready₃, alike₃⟩ := transfer_writes ready₂ (alike_wellFormed alike₂ well)
    (alike_chain alike₂ chain) passes₂ buffer
  rw [alike_clusterSize alike₂] at wrote
  have bytes : s₃.card.bytes = blit s.card.bytes (base + start) (fun i => data (index + i))
      (min length (s.clusterSize - start)) := by
    have part : min done (s.clusterSize - start) = min length (s.clusterSize - start) := by omega
    have back : s₃.card.bytes = blit s.card.bytes base buffer.get s.clusterSize := by
      rw [alike₃.bytes, alike_clusterAddr alike₂, alike_clusterSize alike₂, alike₂.bytes, baseEq]
      rfl
    rw [back, ← part, ← blit_patch]
    apply blit_congr
    intro i inside
    rw [bufferEq, put_get, put_get]
    exact blit_same (blit_front s.buffer.get (fun i => s.card.bytes (base + i)) inside) _ _ _
  have step : writeLoop (cs.getD 0 0) data (fuel + 1) s q start index length =
      writeLoop (cs.getD 0 0) data fuel { s₃ with buffer := buffer.touch 0 s.clusterSize } (q + 1) 0
        (index + done) (length - done) := by
    have least : (if s.clusterSize < length then s.clusterSize else length) = done := by
      rw [doneEq]
      split <;> omega
    rw [writeLoop, if_pos more]
    simp only [read, if_neg positive, Int.toNat_natCast, least]
    rw [← bufferEq]
    simp only [wrote]
    rw [u32_of_lt (by omega : q + 1 < 2 ^ 32), u32_of_lt (by omega : index + done < 2 ^ 32)]
  rw [← doneEq]
  refine ⟨_, step, ⟨ready₃.sector, ready₃.cached, ready₃.sound⟩,
    ⟨alike₃.lba.trans alike₁.lba, alike₃.bpb.trans alike₁.bpb, ?_⟩, ?_, ?_, ?_⟩
  · intro a below
    have start := dataStart_le s (cs.getD q 0)
    change s₃.card.bytes a = s.card.bytes a
    rw [bytes, blit_outside (by omega)]
  · rw [bufferEq]
    rfl
  · intro fits
    rw [bufferEq]
    simp only [touch_overrun, put_overrun, put_size]
    rw [past_within (by omega : 0 + s.clusterSize ≤ s.buffer.size), Bool.or_false, Bool.or_false]
  · change Wrote _ _ _ s₃.card.bytes _ _ _
    rw [bytes, baseEq]
    have extent := wrote_extent (bases s cs) s.card.bytes (fun i => data (index + i)) q
      (by omega : start + min length (s.clusterSize - start) ≤ s.clusterSize)
    rwa [bases, List.getD_eq_getElem _ _ (by simpa using short), List.getElem_map,
      ← List.getD_eq_getElem _ 0 short] at extent

theorem write_over {clusters : Nat} {cs : List Nat} (fuel : Nat) {s : Volume}
    (ready : Ready s) (well : WellFormed s clusters) (chain : FileChain s clusters cs)
    (data : Nat → Byte) (q start index length : Nat) (far : reach s cs ≤ q ∨ length = 0) :
    ∃ s', writeLoop (cs.getD 0 0) data (fuel + 1) s q start index length = some (index, s') ∧
      Ready s' ∧ Alike s s' ∧ s'.buffer = s.buffer := by
  by_cases more : length > 0
  · have misses : ¬ Passes s cs q := by
      rw [passes_iff]
      omega
    obtain ⟨s₁, run, ready₁, alike₁⟩ := transfer_misses ready well chain.data chain.linked misses s.buffer
      .sdReadblock
    refine ⟨{ s₁ with buffer := s.buffer }, ?_, ⟨ready₁.sector, ready₁.cached, ready₁.sound⟩,
      ⟨alike₁.lba, alike₁.bpb, alike₁.bytes⟩, rfl⟩
    rw [writeLoop, if_pos more]
    simp only [run, le_refl, ↓reduceIte]
  · refine ⟨s, ?_, ready, alike_refl s, rfl⟩
    rw [writeLoop, if_neg more]

theorem writeLoop_aligned {clusters : Nat} {cs : List Nat} (fuel : Nat) {s : Volume}
    (ready : Ready s) (well : WellFormed s clusters) (chain : FileChain s clusters cs)
    (data : Nat → Byte) (q index length : Nat) (bound : length < fuel)
    (room : index + length < 2 ^ 32) :
    ∃ s', writeLoop (cs.getD 0 0) data fuel s q 0 index length =
        some (index + min length (s.clusterSize * reach s cs - s.clusterSize * q), s') ∧
      Ready s' ∧ Retains s s' ∧ s'.buffer.size = s.buffer.size ∧
      (s.clusterSize ≤ s.buffer.size → s'.buffer.overrun = s.buffer.overrun) ∧
      Wrote s.clusterSize (bases s cs) s.card.bytes s'.card.bytes (s.clusterSize * q)
        (min length (s.clusterSize * reach s cs - s.clusterSize * q)) fun i => data (index + i) := by
  induction fuel generalizing s q index length with
  | zero => omega
  | succ fuel ih =>
    have positive := clusterSize_pos well
    by_cases near : q < reach s cs ∧ length > 0
    · obtain ⟨s₁, step, ready₁, retains₁, size₁, mark₁, wrote₁⟩ :=
        write_round fuel ready well chain data q 0 index length positive near.1 near.2 room
      obtain ⟨done, doneEq⟩ : ∃ done, done = min length s.clusterSize := ⟨_, rfl⟩
      rw [← doneEq] at step mark₁
      rw [Nat.sub_zero, Nat.add_zero, ← doneEq] at wrote₁
      obtain ⟨s', after, ready', retains', size', mark', wrote'⟩ := ih ready₁
        (retains_wellFormed retains₁ well) (retains_chain retains₁ well chain) (q + 1)
        (index + done) (length - done) (by omega) (by omega)
      rw [retains_clusterSize retains₁, retains_reach retains₁ well chain] at after wrote'
      rw [retains_bases retains₁] at wrote'
      have next : s.clusterSize * (q + 1) = s.clusterSize * q + s.clusterSize := Nat.mul_succ _ _
      have whole : s.clusterSize * (q + 1) ≤ s.clusterSize * reach s cs :=
        Nat.mul_le_mul_left _ near.1
      have total : done + min (length - done)
            (s.clusterSize * reach s cs - s.clusterSize * (q + 1)) =
          min length (s.clusterSize * reach s cs - s.clusterSize * q) := by omega
      refine ⟨s', ?_, ready', retains_trans retains₁ retains', size'.trans size₁, ?_, ?_⟩
      · rw [step, after, ← total, Nat.add_assoc]
      · intro fits
        rw [mark' (by rw [retains_clusterSize retains₁, size₁]; exact fits), mark₁ fits,
          past_within (by omega), Bool.or_false]
      · have inside := Nat.mul_le_mul_left s.clusterSize (reach_le s cs)
        simp only [Nat.add_assoc] at wrote'
        rw [← total]
        refine wrote_append positive (bases_separated chain) ?_ ?_ wrote₁ wrote'
        · rw [bases, List.length_map]
          omega
        · omega
    · obtain ⟨s', run, ready', alike, same⟩ := write_over fuel ready well chain data q 0 index
        length (by omega)
      have none : min length (s.clusterSize * reach s cs - s.clusterSize * q) = 0 := by
        by_cases far : q < reach s cs
        · omega
        · have := Nat.mul_le_mul_left s.clusterSize (Nat.le_of_not_lt far)
          omega
      refine ⟨s', by rw [run, none, Nat.add_zero], ready',
        ⟨alike.lba, alike.bpb, fun a _ => by rw [alike.bytes]⟩, by rw [same],
        fun _ => by rw [same], ?_⟩
      rw [none, alike.bytes]
      exact wrote_nothing _ _ _ _ _

theorem writeLoop_some (cluster : Nat) (data : Nat → Byte) (fuel : Nat) (s : Volume)
    (clusterNum start index length : Nat) (bound : length < fuel) :
    (writeLoop cluster data fuel s clusterNum start index length).isSome := by
  induction fuel generalizing s clusterNum start index length with
  | zero => omega
  | succ fuel ih =>
    unfold writeLoop
    by_cases more : length > 0
    · rw [if_pos more]
      dsimp only
      by_cases none : (fatTransferfile s cluster s.buffer clusterNum .sdReadblock).1 ≤ 0
      · rw [if_pos none]
        rfl
      · rw [if_neg none]
        apply ih
        split_ifs <;> omega
    · rw [if_neg more]
      rfl

theorem fatWritefile_some (s : Volume) (cluster : Nat) (data : Nat → Byte) (seek length : Nat) :
    (fatWritefile s cluster data seek length).isSome := by
  unfold fatWritefile
  rw [Option.isSome_map]
  exact writeLoop_some _ _ _ _ _ _ _ _ (by omega)

theorem fatWritefile_rounds {s : Volume} {clusters : Nat} {cs : List Nat} (ready : Ready s)
    (well : WellFormed s clusters) (chain : FileChain s clusters cs) (data : Nat → Byte)
    (seek length : Nat) (near : seek / s.clusterSize < reach s cs) (more : length > 0)
    (room : length < 2 ^ 32) (fits : s.clusterSize ≤ s.buffer.size) :
    ∃ (s₁ s₂ : Volume) (done n : Nat), done = min length s.clusterSize ∧
      n = min (length - done)
        (s.clusterSize * reach s cs - s.clusterSize * (seek / s.clusterSize + 1)) ∧
      fatWritefile s (cs.getD 0 0) data seek length = some (i32 (done + n), s₂) ∧
      Ready s₂ ∧ Retains s s₂ ∧ s₂.buffer.overrun =
        (s.buffer.overrun || past s.buffer.size (seek % s.clusterSize) done) ∧
      Wrote s.clusterSize (bases s cs) s.card.bytes s₁.card.bytes seek
        (min length (s.clusterSize - seek % s.clusterSize)) data ∧
      Wrote s.clusterSize (bases s cs) s₁.card.bytes s₂.card.bytes
        (s.clusterSize * (seek / s.clusterSize + 1)) n fun i => data (done + i) := by
  have positive := clusterSize_pos well
  obtain ⟨s₁, step, ready₁, retains₁, size₁, mark₁, wrote₁⟩ :=
    write_round length ready well chain data (seek / s.clusterSize) (seek % s.clusterSize) 0 length
      (Nat.mod_lt _ positive) near more (by omega)
  obtain ⟨s₂, after, ready₂, retains₂, size₂, mark₂, wrote₂⟩ := writeLoop_aligned length ready₁
    (retains_wellFormed retains₁ well) (retains_chain retains₁ well chain) data
    (seek / s.clusterSize + 1) (0 + min length s.clusterSize) (length - min length s.clusterSize)
    (by omega) (by omega)
  rw [retains_clusterSize retains₁, retains_reach retains₁ well chain] at after wrote₂
  rw [retains_bases retains₁] at wrote₂
  rw [Nat.div_add_mod] at wrote₁
  simp only [Nat.zero_add] at step after wrote₁ wrote₂
  refine ⟨s₁, s₂, _, _, rfl, rfl, ?_, ready₂, retains_trans retains₁ retains₂, ?_, wrote₁, wrote₂⟩
  · simp only [fatWritefile, cluster_bytes ready, step, after, Option.map_some]
  · rw [mark₂ (by rw [retains_clusterSize retains₁, size₁]; exact fits), mark₁ fits]

theorem wrote_elsewhere {s s₁ s₂ : Volume} {clusters : Nat} {cs : List Nat}
    (well : WellFormed s clusters) (chain : FileChain s clusters cs) {start n j : Nat}
    {data : Nat → Byte}
    (wrote : Wrote s.clusterSize (bases s cs) s₁.card.bytes s₂.card.bytes start n data)
    (room : start + n ≤ s.clusterSize * cs.length) (inside : j < s.clusterSize * cs.length)
    (other : j < start ∨ start + n ≤ j) :
    s₂.card.bytes (fileAddr s cs j) = s₁.card.bytes (fileAddr s cs j) := by
  have size : (bases s cs).length = cs.length := List.length_map _
  apply wrote.outside
  intro i early same
  have equal := addr_injective (clusterSize_pos well) (bases_separated chain)
    (by rw [size]; exact inside) (by rw [size]; omega) same
  omega

/-- Even where it goes wrong a write stays in the range it was asked to write. -/
theorem fatWritefile_inside {s : Volume} {clusters : Nat} {cs : List Nat} (ready : Ready s)
    (well : WellFormed s clusters) (chain : FileChain s clusters cs) (data : Nat → Byte)
    (seek : Nat) {length : Nat} (room : length < 2 ^ 32) (fits : s.clusterSize ≤ s.buffer.size) :
    ∃ r s', fatWritefile s (cs.getD 0 0) data seek length = some (r, s') ∧ Ready s' ∧
      Retains s s' ∧ ∀ j < s.clusterSize * cs.length, j < seek ∨ seek + length ≤ j →
        fileByte s' cs j = fileByte s cs j := by
  have positive := clusterSize_pos well
  have pos := Nat.div_add_mod seek s.clusterSize
  have low := Nat.mod_lt seek positive
  have next : s.clusterSize * (seek / s.clusterSize + 1) =
      s.clusterSize * (seek / s.clusterSize) + s.clusterSize := Nat.mul_succ _ _
  by_cases begins : seek / s.clusterSize < reach s cs ∧ length > 0
  · obtain ⟨near, more⟩ := begins
    obtain ⟨s₁, s₂, done, n, doneEq, nEq, run, ready₂, retains, -, wrote₁, wrote₂⟩ :=
      fatWritefile_rounds ready well chain data seek length near more room fits
    have covered := Nat.mul_le_mul_left s.clusterSize near
    have whole := Nat.mul_le_mul_left s.clusterSize (reach_le s cs)
    rw [Nat.succ_eq_add_one] at covered
    refine ⟨_, s₂, run, ready₂, retains, ?_⟩
    intro j inside other
    have second := wrote_elsewhere well chain wrote₂ (by omega) inside (by omega)
    have first := wrote_elsewhere well chain wrote₁ (by omega) inside (by omega)
    unfold fileByte
    rw [fileAddr, retains_clusterSize retains, retains_bases retains]
    exact second.trans first
  · obtain ⟨s', run, ready', alike, -⟩ := write_over length ready well chain data
      (seek / s.clusterSize) (seek % s.clusterSize) 0 length (by omega)
    refine ⟨i32 0, s', ?_, ready', ⟨alike.lba, alike.bpb, fun a _ => by rw [alike.bytes]⟩, ?_⟩
    · simp only [fatWritefile, cluster_bytes ready, run, Option.map_some]
    · exact fun j _ _ => alike_fileByte alike cs j

theorem reached_buffer {s : Volume} (reached : Reached s) :
    s.buffer.size = 4096 ∧ s.buffer.overrun = false := by
  induction reached with
  | mount card stack sound accepted =>
    have booted : (readBootRecord (staticVolume card stack)).2.buffer = ⟨4096, stack, false⟩ := by
      unfold readBootRecord
      dsimp only
      split_ifs <;> rfl
    have same : (fatGetpartition (staticVolume card stack)).2.buffer = ⟨4096, stack, false⟩ := by
      rw [← booted]
      unfold fatGetpartition
      dsimp only
      split_ifs <;> rfl
    rw [same]
    exact ⟨rfl, rfl⟩
  | lookup s index before ih =>
    have same : (fatGetTableEntry s index).2.buffer = s.buffer := by
      unfold fatGetTableEntry
      dsimp only
      split_ifs <;> rfl
    rw [same]
    exact ih

/-- The write is the one asked for: the bytes of the range and no others, none outside the
    local buffer, and a read of the range gives them back. -/
def WritesExactly (s : Volume) (cs : List Nat) (data : Nat → Byte) (seek length : Nat) : Prop :=
  ∃ s', fatWritefile s (cs.getD 0 0) data seek length = some ((length : Int), s') ∧
    Wrote s.clusterSize (bases s cs) s.card.bytes s'.card.bytes seek length data ∧
    s'.buffer.overrun = false ∧
    ∀ memory, ∃ memory' s'', fatReadfile s' (cs.getD 0 0) memory seek length =
      some ((length : Int), memory', s'') ∧ ∀ i < length, memory' i = data i

/-- Nothing is written, or the clusters the range touches can be come to and the range starts
    with a cluster or stays inside one. -/
def WriteSafe (s : Volume) (cs : List Nat) (seek length : Nat) : Prop :=
  length = 0 ∨
    ((seek % s.clusterSize = 0 ∨ seek % s.clusterSize + length ≤ s.clusterSize) ∧
      ∀ c ∈ cs.take ((seek + length - 1) / s.clusterSize), fatEntry s c < 2 ^ 28)

theorem reach_covers {s : Volume} {clusters : Nat} {cs : List Nat} (well : WellFormed s clusters)
    (numbers : ∀ c ∈ cs, c < 0xFFF8) {last : Nat} (inside : last < s.clusterSize * cs.length) :
    (∀ c ∈ cs.take (last / s.clusterSize), fatEntry s c < 2 ^ 28) ↔
      last < s.clusterSize * reach s cs := by
  have positive := clusterSize_pos well
  rw [Nat.mul_comm, ← Nat.div_lt_iff_lt_mul positive, ← passes_iff]
  have short : last / s.clusterSize < cs.length := Nat.div_lt_of_lt_mul inside
  constructor
  · intro clean
    exact ⟨short, fun c member => numbers c (List.mem_of_mem_take member), clean⟩
  · intro passes
    exact passes.2.2

theorem reads_back {s s' : Volume} {clusters seek length : Nat} {cs : List Nat}
    (ready : Ready s') (retains : Retains s s') (well : WellFormed s clusters)
    (chain : FileChain s clusters cs) (covers : seek + length ≤ s.clusterSize * reach s cs ∨ length = 0)
    (small : length < 2 ^ 31) {data : Nat → Byte}
    (wrote : Wrote s.clusterSize (bases s cs) s.card.bytes s'.card.bytes seek length data)
    (memory : Nat → Byte) :
    ∃ memory' s'', fatReadfile s' (cs.getD 0 0) memory seek length =
      some ((length : Int), memory', s'') ∧ ∀ i < length, memory' i = data i := by
  obtain ⟨s'', run, -⟩ := fatReadfile_spec ready (retains_wellFormed retains well)
    (retains_chain retains well chain) memory seek length (by omega)
  rw [retains_clusterSize retains, retains_reach retains well chain,
    show min length (s.clusterSize * reach s cs - seek) = length by omega, i32_of_lt small] at run
  refine ⟨_, s'', run, fun i early => ?_⟩
  rw [blit_front _ _ early, fileByte, fileAddr, retains_clusterSize retains, retains_bases retains]
  exact wrote.inside i early

theorem writes_exactly {s : Volume} {clusters : Nat} {cs : List Nat} (reached : Reached s)
    (well : WellFormed s clusters) (chain : FileChain s clusters cs)
    (numbers : ∀ c ∈ cs, c < 0xFFF8) (size : s.clusterSize ≤ 4096) {seek length : Nat}
    (inside : seek + length ≤ s.clusterSize * cs.length) (safe : WriteSafe s cs seek length)
    (data : Nat → Byte) : WritesExactly s cs data seek length := by
  have ready := reached_ready reached
  have positive := clusterSize_pos well
  have total := chain_bytes chain numbers size
  obtain ⟨room, mark⟩ := reached_buffer reached
  by_cases nothing : length = 0
  · subst nothing
    obtain ⟨s', run, ready', alike, same⟩ := write_over 0 ready well chain data
      (seek / s.clusterSize) (seek % s.clusterSize) 0 0 (Or.inr rfl)
    have retains : Retains s s' := ⟨alike.lba, alike.bpb, fun a _ => by rw [alike.bytes]⟩
    have wrote : Wrote s.clusterSize (bases s cs) s.card.bytes s'.card.bytes seek 0 data := by
      rw [alike.bytes]
      exact wrote_nothing _ _ _ _ _
    refine ⟨s', ?_, wrote, by rw [same, mark],
      reads_back ready' retains well chain (Or.inr rfl) (by decide) wrote⟩
    simp only [fatWritefile, cluster_bytes ready, run, Option.map_some]
    rfl
  · obtain ⟨place, clean⟩ := safe.resolve_left nothing
    have covers := (reach_covers well numbers (by omega)).mp clean
    have near : seek / s.clusterSize < reach s cs := Nat.div_lt_of_lt_mul (by omega)
    obtain ⟨s₁, s₂, done, n, doneEq, nEq, run, ready₂, retains, overrun, wrote₁, wrote₂⟩ :=
      fatWritefile_rounds ready well chain data seek length near (by omega) (by omega)
        (by rw [room]; exact size)
    have pos := Nat.div_add_mod seek s.clusterSize
    have low := Nat.mod_lt seek positive
    have next : s.clusterSize * (seek / s.clusterSize + 1) =
        s.clusterSize * (seek / s.clusterSize) + s.clusterSize := Nat.mul_succ _ _
    have first : min length (s.clusterSize - seek % s.clusterSize) = done := by omega
    have all : done + n = length := by omega
    rw [first] at wrote₁
    have wrote : Wrote s.clusterSize (bases s cs) s.card.bytes s₂.card.bytes seek length data := by
      rw [← all]
      refine wrote_append positive (bases_separated chain) ?_ ?_ wrote₁ wrote₂
      · rw [bases, List.length_map]
        omega
      · omega
    refine ⟨s₂, ?_, wrote, ?_,
      reads_back ready₂ retains well chain (Or.inl (by omega)) (by omega) wrote⟩
    · rw [run, all, i32_of_lt (by omega)]
    · rw [overrun, mark, room, past_within (by omega), Bool.or_false]

/-- Data that a misplaced byte is told by: one byte differs from all others. -/
def marked (spot : Nat) (old : Byte) (i : Nat) : Byte := if i = spot then old + 1 else old

theorem safe_of_writes {s : Volume} {clusters : Nat} {cs : List Nat} (reached : Reached s)
    (well : WellFormed s clusters) (chain : FileChain s clusters cs)
    (numbers : ∀ c ∈ cs, c < 0xFFF8) (size : s.clusterSize ≤ 4096) {seek length : Nat}
    (inside : seek + length ≤ s.clusterSize * cs.length)
    (writes : ∀ data, WritesExactly s cs data seek length) : WriteSafe s cs seek length := by
  have ready := reached_ready reached
  have positive := clusterSize_pos well
  have total := chain_bytes chain numbers size
  obtain ⟨room, mark⟩ := reached_buffer reached
  by_cases nothing : length = 0
  · exact Or.inl nothing
  refine Or.inr ?_
  have pos := Nat.div_add_mod seek s.clusterSize
  have low := Nat.mod_lt seek positive
  have next : s.clusterSize * (seek / s.clusterSize + 1) =
      s.clusterSize * (seek / s.clusterSize) + s.clusterSize := Nat.mul_succ _ _
  -- the byte of the file that starts its second cluster, and what it holds before
  let old := fileByte s cs (s.clusterSize * (seek / s.clusterSize + 1))
  let data := marked (s.clusterSize - seek % s.clusterSize) old
  obtain ⟨s', run, wrote, -⟩ := writes data
  have near : seek / s.clusterSize < reach s cs := by
    by_contra far
    obtain ⟨s'', stops, -⟩ := write_over length ready well chain data (seek / s.clusterSize)
      (seek % s.clusterSize) 0 length (Or.inl (by omega))
    simp only [fatWritefile, cluster_bytes ready, stops, Option.map_some, Option.some.injEq,
      Prod.mk.injEq] at run
    have zero : i32 0 = 0 := rfl
    rw [zero] at run
    omega
  obtain ⟨s₁, s₂, done, n, doneEq, nEq, run', -, -, -, wrote₁, wrote₂⟩ :=
    fatWritefile_rounds ready well chain data seek length near (by omega) (by omega)
      (by rw [room]; exact size)
  rw [run, i32_of_lt (by omega)] at run'
  obtain ⟨same, rfl⟩ := Prod.mk.inj (Option.some.inj run')
  have all : done + n = length := by omega
  have place : seek % s.clusterSize = 0 ∨ seek % s.clusterSize + length ≤ s.clusterSize := by
    by_contra crossing
    have bases_length : (bases s cs).length = cs.length := List.length_map _
    have claimed := wrote.inside (s.clusterSize - seek % s.clusterSize) (by omega)
    rw [show seek + (s.clusterSize - seek % s.clusterSize) =
      s.clusterSize * (seek / s.clusterSize + 1) by omega] at claimed
    have actual : s'.card.bytes (addr s.clusterSize (bases s cs)
        (s.clusterSize * (seek / s.clusterSize + 1))) = old := by
      by_cases last : n = 0
      · rw [last] at wrote₂
        rw [wrote_nothing_same wrote₂]
        apply wrote₁.outside
        intro i early other
        have eq := addr_injective positive (bases_separated chain) (by rw [bases_length]; omega)
          (by rw [bases_length]; omega) other
        omega
      · have later := wrote₂.inside 0 (by omega)
        rw [Nat.add_zero] at later
        rw [later]
        exact if_neg (by omega)
    rw [actual] at claimed
    have changed : data (s.clusterSize - seek % s.clusterSize) = old + 1 := if_pos rfl
    rw [changed] at claimed
    exact absurd claimed (by simp)
  refine ⟨place, (reach_covers well numbers (by omega)).mpr ?_⟩
  have whole := Nat.mul_le_mul_left s.clusterSize near
  rw [Nat.succ_eq_add_one] at whole
  omega

/-- Exactly when a write of any data does what it is asked to. -/
theorem fatWritefile_exact_iff {s : Volume} {clusters : Nat} {cs : List Nat} (reached : Reached s)
    (well : WellFormed s clusters) (chain : FileChain s clusters cs)
    (numbers : ∀ c ∈ cs, c < 0xFFF8) (size : s.clusterSize ≤ 4096) (seek length : Nat)
    (inside : seek + length ≤ s.clusterSize * cs.length) :
    (∀ data, WritesExactly s cs data seek length) ↔ WriteSafe s cs seek length :=
  ⟨safe_of_writes reached well chain numbers size inside,
    fun safe => writes_exactly reached well chain numbers size inside safe⟩

theorem fatWritefile_sample :
    (∀ data, WritesExactly sampleVolume [2, 3] data 28 484) ↔
      WriteSafe sampleVolume [2, 3] 28 484 :=
  fatWritefile_exact_iff sample_reached sample_wellFormed sample_chain (by decide) (by decide) 28 484
    (by decide)

/-- Of 512 bytes written from byte 28 on, byte 484 never gets to the card. -/
theorem fatWritefile_drops :
    Reached sampleVolume ∧ WellFormed sampleVolume 65530 ∧ FileChain sampleVolume 65530 [2, 3] ∧
      ¬ WritesExactly sampleVolume [2, 3] (marked 484 0) 28 512 := by
  refine ⟨sample_reached, sample_wellFormed, sample_chain, ?_⟩
  rintro ⟨s', run, wrote, -⟩
  have after : (fatWritefile sampleVolume 2 (marked 484 0) 28 512).map
      (fun r => r.2.card.bytes 263680) = some 0 := by decide
  have change : (fatWritefile sampleVolume 2 (marked 484 0) 28 512) = some (512, s') := run
  rw [change] at after
  have claimed := wrote.inside 484 (by decide)
  have place : addr sampleVolume.clusterSize (bases sampleVolume [2, 3]) (28 + 484) = 263680 := by
    decide
  rw [place] at claimed
  simp [claimed, marked] at after

end Fat
