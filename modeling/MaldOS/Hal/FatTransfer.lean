import MaldOS.Hal.FatChain

/-!
`fat_transferfile` on a mounted volume: the cluster of the chain it reads or
writes, and when it gets there.
-/
namespace Fat
open Arch ByteMemory Slices Sd

theorem word_lt (n : Nat) (b : Nat → Byte) (offset : Nat) : word n b offset < 256 ^ n := by
  have bound := ofBytes_lt ((List.range n).map fun i => b (offset + i))
  rwa [List.length_map, List.length_range] at bound

theorem spc_lt (s : Volume) : s.spc < 256 := word_lt 1 _ _

theorem transfer_bound (s : Volume) (data : Buffer Byte) (rw : ReadWrite) (left cluster : Nat) :
    (transferLoop s data rw left cluster).1 < 2 ^ 17 := by
  induction left generalizing s cluster with
  | zero =>
    have small := spc_lt s
    have moved : (sdTransferblock s.card ((cluster - 2) * s.spc + dataSec s) data s.spc rw).1 <
        2 ^ 17 := by
      have fits : u32 s.spc = s.spc := u32_of_lt (by omega)
      cases rw <;> simp only [sdTransferblock, fits] <;> split_ifs <;> omega
    unfold transferLoop
    dsimp only
    have refused : (-1 : Int) < 2 ^ 17 := by decide
    have missed : (0 : Int) < 2 ^ 17 := by decide
    split_ifs <;> assumption
  | succ left ih =>
    unfold transferLoop
    split_ifs
    · exact ih _ _
    · exact (by decide : (0 : Int) < 2 ^ 17)

theorem dataSec_eq {s : Volume} {clusters : Nat} (well : WellFormed s clusters)
    (some : 0 < clusters) : dataSec s = s.partitionlba + s.rsc + s.spf32 * s.nf := by
  obtain ⟨sectors, tables, table, count, room⟩ := well
  have used := Nat.mul_pos some sectors
  unfold dataSec
  rw [u32_of_lt (by omega : s.spf32 * s.nf + s.rsc < 2 ^ 32), u32_of_lt (by omega)]
  omega

theorem cluster_sector {s : Volume} {clusters c : Nat} (well : WellFormed s clusters)
    (valid : DataCluster clusters c) :
    u32 ((c - 2) * s.spc + dataSec s) * 512 = clusterAddr s c := by
  obtain ⟨low, high⟩ := valid
  have fits : (c - 2 + 1) * s.spc ≤ clusters * s.spc := Nat.mul_le_mul_right _ (by omega)
  rw [Nat.add_mul, Nat.one_mul] at fits
  have sectors := well.sectors
  have room := well.room
  rw [dataSec_eq well (by omega), clusterAddr, u32_of_lt (by omega)]

theorem loop_reads {s : Volume} {clusters c : Nat} (ready : Ready s)
    (well : WellFormed s clusters) (valid : DataCluster clusters c) (taken : c < 0xFFF8)
    (data : Buffer Byte) :
    transferLoop s data .sdReadblock 0 c =
      ((s.clusterSize : Int),
        data.put 0 (fun i => s.card.bytes (clusterAddr s c + i)) s.clusterSize,
        { s with card := { s.card with issued := s.card.issued + 1 } }) := by
  have small := spc_lt s
  have positive : ¬ ((s.spc : Int) * 512 ≤ 0) := by have := well.sectors; omega
  rw [transferLoop, if_pos ⟨by have := valid.1; omega, taken⟩]
  simp only [read_sound ready.sound _ data well.sectors (by omega : s.spc < 2 ^ 32),
    cluster_sector well valid, if_neg positive, Volume.clusterSize, Int.natCast_mul, Int.cast_ofNat_Int]

theorem loop_writes {s : Volume} {clusters c : Nat} (ready : Ready s)
    (well : WellFormed s clusters) (valid : DataCluster clusters c) (taken : c < 0xFFF8)
    (data : Buffer Byte) :
    transferLoop s data .sdWriteblock 0 c =
      ((s.clusterSize : Int), data.touch 0 s.clusterSize,
        { s with card := { s.card with
            bytes := blit s.card.bytes (clusterAddr s c) data.get s.clusterSize
            issued := s.card.issued + 1 } }) := by
  have small := spc_lt s
  have positive : ¬ ((s.spc : Int) * 512 ≤ 0) := by have := well.sectors; omega
  rw [transferLoop, if_pos ⟨by have := valid.1; omega, taken⟩]
  simp only [write_sound ready.sound _ data well.sectors (by omega : s.spc < 2 ^ 32),
    cluster_sector well valid, if_neg positive, Volume.clusterSize, Int.natCast_mul, Int.cast_ofNat_Int]

/-- The volumes as the program has them: mounted with success, then looked up in. -/
inductive Reached : Volume → Prop where
  | mount (card : Card) (stack : Nat → Byte) (sound : Sound card)
      (accepted : (fatGetpartition (staticVolume card stack)).1 = 1) :
      Reached (fatGetpartition (staticVolume card stack)).2
  | lookup (s : Volume) (index : Nat) (before : Reached s) : Reached (fatGetTableEntry s index).2

theorem boot_sound {s : Volume} (sound : Sound s.card) :
    Sound (readBootRecord s).2.card ∧
      (readBootRecord s).2.lastEntrySectorOffset = s.lastEntrySectorOffset := by
  have first := read_sound sound 0 (static 512) Nat.one_pos (by decide : 1 < 2 ^ 32)
  have sound' : Sound { s.card with issued := s.card.issued + 1 } :=
    sound_later sound rfl (Nat.le_succ _)
  have second := fun lba => read_sound sound' lba s.biosPartitionBlock Nat.one_pos
    (by decide : 1 < 2 ^ 32)
  have sound'' : Sound { s.card with issued := s.card.issued + 1 + 1 } :=
    sound_later sound rfl (by simp; omega)
  unfold readBootRecord
  simp only [first, second]
  split_ifs <;> exact ⟨by first | exact sound' | exact sound'', rfl⟩

theorem mount_ready {card : Card} {stack : Nat → Byte} (sound : Sound card)
    (accepted : (fatGetpartition (staticVolume card stack)).1 = 1) :
    Ready (fatGetpartition (staticVolume card stack)).2 := by
  obtain ⟨kept, last⟩ := boot_sound (s := staticVolume card stack) sound
  generalize booted : readBootRecord (staticVolume card stack) = boot at kept last
  obtain ⟨ok, s⟩ := boot
  cases ok with
  | false => simp [fatGetpartition, booted] at accepted
  | true =>
    by_cases sector : word 2 s.biosPartitionBlock.get 11 = 512
    · have blocks : cachedfatsize * 4 / 512 = 1 := by decide
      have run : (fatGetpartition (staticVolume card stack)).2 = { s with
          card := { s.card with issued := s.card.issued + 1 }
          rootDirectorySector := u32 (u32 (s.spf32 * s.nf + s.rsc) + s.partitionlba)
          bytesPerSector := 512
          cachedFAT := s.cachedFAT.put 0
            (fun i => s.card.bytes (u32 (s.partitionlba + s.rsc) * 512 + i)) 512 } := by
        simp only [fatGetpartition, booted, sector, blocks, Bool.not_true, Bool.false_eq_true,
          ne_eq, not_true_eq_false, ↓reduceIte,
          read_sound kept _ s.cachedFAT Nat.one_pos (by decide : 1 < 2 ^ 32), Nat.one_mul]
        rfl
      rw [run]
      refine ⟨rfl, ?_, sound_later kept rfl (Nat.le_succ _)⟩
      intro _ i inside
      have zero : s.lastEntrySectorOffset = 0 := last
      change (s.cachedFAT.put 0 _ 512).get i = s.card.bytes
        (u32 (s.partitionlba + s.rsc + s.lastEntrySectorOffset) * 512 + i)
      rw [put_get, blit_front _ _ inside, zero, Nat.add_zero]
    · simp [fatGetpartition, booted, sector] at accepted

theorem reached_ready {s : Volume} (reached : Reached s) : Ready s := by
  induction reached with
  | mount card stack sound accepted => exact mount_ready sound accepted
  | lookup s index before ih => exact (lookup_ready ih index).1

/-- Cluster `num` of the chain is exchanged with `data`, or nothing is when there is none. -/
def TransfersCluster (s : Volume) (cs : List Nat) (num : Nat) (data : Buffer Byte)
    (rw : ReadWrite) (result : Int × Buffer Byte × Volume) : Prop :=
  if num < cs.length then
    result.1 = s.clusterSize ∧
      match rw with
      | .sdReadblock =>
        result.2.1.get = blit data.get 0
            (fun i => s.card.bytes (clusterAddr s (cs.getD num 0) + i)) s.clusterSize ∧
          result.2.2.card.bytes = s.card.bytes
      | .sdWriteblock =>
        result.2.1.get = data.get ∧
          result.2.2.card.bytes =
            blit s.card.bytes (clusterAddr s (cs.getD num 0)) data.get s.clusterSize
  else result.1 ≤ 0 ∧ result.2.1.get = data.get ∧ result.2.2.card.bytes = s.card.bytes

theorem passes_last {s : Volume} {clusters num : Nat} {cs : List Nat}
    (valid : ∀ c ∈ cs, DataCluster clusters c) (passes : Passes s cs num) :
    DataCluster clusters (cs.getD num 0) ∧ cs.getD num 0 < 0xFFF8 := by
  obtain ⟨short, taken, _⟩ := passes
  rw [List.getD_eq_getElem _ _ short]
  refine ⟨valid _ (List.getElem_mem short), taken _ ?_⟩
  exact List.mem_iff_getElem.mpr ⟨num, by simp; omega, by simp⟩

theorem transfer_reads {s : Volume} {clusters num : Nat} {cs : List Nat} (ready : Ready s)
    (well : WellFormed s clusters) (path : FilePath s clusters cs) (passes : Passes s cs num)
    (data : Buffer Byte) :
    ∃ s', fatTransferfile s (cs.getD 0 0) data num .sdReadblock =
        ((s.clusterSize : Int),
          data.put 0 (fun i => s.card.bytes (clusterAddr s (cs.getD num 0) + i)) s.clusterSize, s') ∧
      Ready s' ∧ Alike s s' := by
  obtain ⟨s', ready', alike, through⟩ :=
    walk_through data .sdReadblock num ready well path.data path.leads passes
  obtain ⟨member, taken⟩ := passes_last path.data passes
  have run := through.trans
    (loop_reads ready' (alike_wellFormed alike well) member taken data)
  rw [alike_clusterAddr alike, alike_clusterSize alike, alike.bytes] at run
  refine ⟨_, run, ⟨ready'.sector, ready'.cached, ?_⟩, ⟨alike.lba, alike.bpb, alike.bytes⟩⟩
  exact sound_later ready'.sound rfl (Nat.le_succ _)

def Volume.rewrite (s : Volume) (bytes : Nat → Byte) : Volume :=
  { s with card := { s.card with bytes := bytes } }

def Volume.dataStart (s : Volume) : Nat := (s.partitionlba + s.rsc + s.spf32 * s.nf) * 512

theorem dataStart_le (s : Volume) (c : Nat) : s.dataStart ≤ clusterAddr s c := by
  unfold Volume.dataStart clusterAddr
  exact Nat.mul_le_mul_right _ (Nat.le_add_left _ _)

theorem rewrite_ready {s : Volume} {clusters : Nat} (bytes : Nat → Byte) (ready : Ready s)
    (well : WellFormed s clusters) (some : 0 < clusters)
    (kept : ∀ a < s.dataStart, bytes a = s.card.bytes a) : Ready (s.rewrite bytes) := by
  refine ⟨ready.sector, fun table i inside => ?_, ready.sound⟩
  have table' : s.lastEntrySectorOffset < s.spf32 := table
  have room := well.room
  have used := Nat.mul_pos some well.sectors
  have wide : s.spf32 ≤ s.spf32 * s.nf := Nat.le_mul_of_pos_right _ well.tables
  have sector : u32 (s.partitionlba + s.rsc + s.lastEntrySectorOffset) =
      s.partitionlba + s.rsc + s.lastEntrySectorOffset := u32_of_lt (by omega)
  have below := kept (u32 (s.partitionlba + s.rsc + s.lastEntrySectorOffset) * 512 + i)
    (by rw [sector]; unfold Volume.dataStart; omega)
  exact (ready.cached table' i inside).trans below.symm

theorem rewrite_entry {s : Volume} {clusters c : Nat} {bytes : Nat → Byte}
    (well : WellFormed s clusters) (inside : c < clusters + 2)
    (kept : ∀ a < s.dataStart, bytes a = s.card.bytes a) :
    fatEntry (s.rewrite bytes) c = fatEntry s c := by
  have wide : s.spf32 ≤ s.spf32 * s.nf := Nat.le_mul_of_pos_right _ well.tables
  have table := well.table
  apply word_congr
  intro i bound
  apply kept
  change (s.partitionlba + s.rsc) * 512 + 4 * c + i < s.dataStart
  unfold Volume.dataStart
  omega

theorem rewrite_linked {s : Volume} {clusters : Nat} {bytes : Nat → Byte}
    (well : WellFormed s clusters) (kept : ∀ a < s.dataStart, bytes a = s.card.bytes a)
    (cs : List Nat) (valid : ∀ c ∈ cs, DataCluster clusters c) (linked : Linked s cs) :
    Linked (s.rewrite bytes) cs := by
  induction cs with
  | nil => exact linked
  | cons c cs ih =>
    have entry := rewrite_entry well (valid c (by simp)).2 kept
    cases cs with
    | nil =>
      unfold Linked at linked ⊢
      rw [entry]
      exact linked
    | cons d cs =>
      unfold Linked at linked ⊢
      rw [entry]
      exact ⟨linked.1, ih (fun e member => valid e (by simp [member])) linked.2⟩

theorem rewrite_passes {s : Volume} {clusters num : Nat} {bytes : Nat → Byte} {cs : List Nat}
    (well : WellFormed s clusters) (kept : ∀ a < s.dataStart, bytes a = s.card.bytes a)
    (valid : ∀ c ∈ cs, DataCluster clusters c) :
    Passes (s.rewrite bytes) cs num ↔ Passes s cs num := by
  have entries : (∀ c ∈ cs.take num, fatEntry (s.rewrite bytes) c < 2 ^ 28) ↔
      ∀ c ∈ cs.take num, fatEntry s c < 2 ^ 28 := by
    apply forall₂_congr
    intro c member
    rw [rewrite_entry well (valid c (List.mem_of_mem_take member)).2 kept]
  unfold Passes
  rw [entries]

theorem transfer_writes {s : Volume} {clusters num : Nat} {cs : List Nat} (ready : Ready s)
    (well : WellFormed s clusters) (chain : FileChain s clusters cs) (passes : Passes s cs num)
    (data : Buffer Byte) :
    ∃ s', fatTransferfile s (cs.getD 0 0) data num .sdWriteblock =
        ((s.clusterSize : Int), data.touch 0 s.clusterSize, s') ∧ Ready s' ∧
      Alike (s.rewrite
        (blit s.card.bytes (clusterAddr s (cs.getD num 0)) data.get s.clusterSize)) s' := by
  obtain ⟨s', ready', alike, through⟩ := walk_through data .sdWriteblock num ready well chain.data
    (linked_leads cs chain.linked) passes
  obtain ⟨member, taken⟩ := passes_last chain.data passes
  have well' := alike_wellFormed alike well
  have run := through.trans (loop_writes ready' well' member taken data)
  rw [alike_clusterAddr alike, alike_clusterSize alike, alike.bytes] at run
  have beyond : s'.dataStart ≤ clusterAddr s (cs.getD num 0) := by
    rw [← alike_clusterAddr alike]
    exact dataStart_le s' _
  have written := rewrite_ready
    (blit s.card.bytes (clusterAddr s (cs.getD num 0)) data.get s.clusterSize) ready' well'
    (by unfold DataCluster at member; omega)
    (fun a below => by rw [blit_outside (by omega), alike.bytes])
  refine ⟨_, run, ⟨written.sector, written.cached, ?_⟩, ⟨alike.lba, alike.bpb, rfl⟩⟩
  exact sound_later written.sound rfl (Nat.le_succ _)

theorem transfer_misses {s : Volume} {clusters num : Nat} {cs : List Nat} (ready : Ready s)
    (well : WellFormed s clusters) (valid : ∀ c ∈ cs, DataCluster clusters c)
    (linked : Linked s cs) (passes : ¬ Passes s cs num) (data : Buffer Byte) (rw : ReadWrite) :
    ∃ s', fatTransferfile s (cs.getD 0 0) data num rw = (0, data, s') ∧ Ready s' ∧ Alike s s' := by
  obtain ⟨s', ready', alike, stopped⟩ := walk_stops data rw cs num ready well valid linked passes
  exact ⟨s', stopped, ready', alike⟩

/-- Exactly when the cluster asked for is the one transferred: when no cluster up to it has a
    number from 0xFFF8 on, and no entry before it a reserved bit. -/
theorem transfer_chain_iff {s : Volume} {clusters : Nat} {cs : List Nat} (reached : Reached s)
    (well : WellFormed s clusters) (chain : FileChain s clusters cs) (num : Nat)
    (data : Buffer Byte) (rw : ReadWrite) :
    TransfersCluster s cs num data rw (fatTransferfile s (cs.getD 0 0) data num rw) ↔
      (num < cs.length → (∀ c ∈ cs.take (num + 1), c < 0xFFF8) ∧
        ∀ c ∈ cs.take num, fatEntry s c < 2 ^ 28) := by
  have ready := reached_ready reached
  by_cases passes : Passes s cs num
  · have goal : TransfersCluster s cs num data rw (fatTransferfile s (cs.getD 0 0) data num rw) := by
      unfold TransfersCluster
      rw [if_pos passes.1]
      cases rw with
      | sdReadblock =>
        obtain ⟨s', run, -, alike⟩ := transfer_reads ready well (chain_path well chain) passes data
        rw [run]
        exact ⟨rfl, rfl, alike.bytes⟩
      | sdWriteblock =>
        obtain ⟨s', run, -, alike⟩ := transfer_writes ready well chain passes data
        rw [run]
        exact ⟨rfl, rfl, alike.bytes⟩
    exact ⟨fun _ _ => passes.2, fun _ => goal⟩
  · obtain ⟨s', run, -, alike⟩ := transfer_misses ready well chain.data chain.linked passes data rw
    rw [run]
    by_cases short : num < cs.length
    · have positive : 0 < s.clusterSize := Nat.mul_pos well.sectors (by decide)
      unfold TransfersCluster
      rw [if_pos short]
      constructor
      · intro h
        have size : (0 : Int) = s.clusterSize := h.1
        omega
      · intro clean
        exact absurd ⟨short, clean short⟩ passes
    · unfold TransfersCluster
      rw [if_neg short]
      exact ⟨fun _ inside => absurd inside short, fun _ => ⟨le_rfl, rfl, alike.bytes⟩⟩

/-! A card to try things on: one sector a cluster, a file in clusters 2 and 3 and
    one in cluster 0xFFF8. -/

def sampleBytes : List (Nat × Byte) :=
  [(0x1C2, 0x0C), (0x1C6, 1), (510, 0x55), (511, 0xAA),
   (512 + 12, 2), (512 + 13, 1), (512 + 14, 1), (512 + 16, 1), (512 + 37, 2),
   (512 + 82, 0x46), (512 + 83, 0x41), (512 + 84, 0x54),
   (1024 + 4 * 2, 3),
   (1024 + 4 * 3, 0xFF), (1024 + 4 * 3 + 1, 0xFF), (1024 + 4 * 3 + 2, 0xFF), (1024 + 4 * 3 + 3, 0x0F),
   (1024 + 4 * 65528, 0xF8), (1024 + 4 * 65528 + 1, 0xFF), (1024 + 4 * 65528 + 2, 0xFF),
   (1024 + 4 * 65528 + 3, 0x0F)]

def sampleCard : Card where
  bytes := fun i => (sampleBytes.lookup i).getD 0
  fault := fun _ => none
  issued := 0

def sampleVolume : Volume := (fatGetpartition (staticVolume sampleCard fun _ => 0)).2

theorem sample_reached : Reached sampleVolume :=
  .mount sampleCard _ (fun _ _ => rfl) (by decide)

theorem sample_wellFormed : WellFormed sampleVolume 65530 :=
  ⟨by decide, by decide, by decide, by decide, by decide⟩

theorem sample_chain : FileChain sampleVolume 65530 [2, 3] :=
  ⟨by unfold DataCluster; decide, by decide, by decide, by unfold Linked; decide⟩

theorem transfer_sample : TransfersCluster sampleVolume [2, 3] 1 (static 512) .sdReadblock
      (fatTransferfile sampleVolume 2 (static 512) 1 .sdReadblock) ↔
    (1 < [2, 3].length → (∀ c ∈ [2, 3].take (1 + 1), c < 0xFFF8) ∧
      ∀ c ∈ [2, 3].take 1, fatEntry sampleVolume c < 2 ^ 28) :=
  transfer_chain_iff sample_reached sample_wellFormed sample_chain 1 (static 512) .sdReadblock

/-- The cluster 0xFFF8 of a file is taken for an end mark. -/
theorem transfer_refuses_fff8 :
    Reached sampleVolume ∧ WellFormed sampleVolume 65530 ∧
      FileChain sampleVolume 65530 [65528] ∧
      ¬ TransfersCluster sampleVolume [65528] 0 (static 512) .sdReadblock
        (fatTransferfile sampleVolume 65528 (static 512) 0 .sdReadblock) := by
  refine ⟨sample_reached, sample_wellFormed, ⟨?_, by decide, ?_⟩, ?_⟩
  · unfold DataCluster
    decide
  · unfold Linked
    decide
  · intro h
    unfold TransfersCluster at h
    rw [if_pos (by decide)] at h
    exact absurd h.1 (by decide)

end Fat
