import MaldOS.Hal.Fat
import Mathlib.Data.List.GetD
import Mathlib.Data.List.Perm.Subperm

/-!
Cluster chains: the table behind the one-sector cache, and which clusters of a
chain `fat_transferfile` comes to.
-/
namespace Fat
open Arch ByteMemory Slices Sd

/-- The raw entry of cluster `index` in the first table on the card. -/
def fatEntry (s : Volume) (index : Nat) : Nat :=
  word 4 s.card.bytes ((s.partitionlba + s.rsc) * 512 + 4 * index)

/-- The part of an entry that is a cluster number; the rest is reserved. -/
def low28 (entry : Nat) : Nat := entry % 2 ^ 28

def clusterAddr (s : Volume) (cluster : Nat) : Nat :=
  ((cluster - 2) * s.spc + (s.partitionlba + s.rsc + s.spf32 * s.nf)) * 512

def Volume.clusterSize (s : Volume) : Nat := s.spc * 512

/-- The cache holds the sector it is labelled with, if that is one of the table. -/
structure Ready (s : Volume) : Prop where
  sector : s.bytesPerSector = 512
  cached : s.lastEntrySectorOffset < s.spf32 → ∀ i < 512, s.cachedFAT.get i =
    s.card.bytes (u32 (s.partitionlba + s.rsc + s.lastEntrySectorOffset) * 512 + i)
  sound : Sound s.card

structure Alike (s s' : Volume) : Prop where
  lba : s'.partitionlba = s.partitionlba
  bpb : s'.biosPartitionBlock = s.biosPartitionBlock
  bytes : s'.card.bytes = s.card.bytes

/-- A volume of `clusters` clusters: its table has an entry for each, and its sectors have
    32-bit numbers. -/
structure WellFormed (s : Volume) (clusters : Nat) : Prop where
  sectors : 0 < s.spc
  tables : 0 < s.nf
  table : (clusters + 2) * 4 ≤ s.spf32 * 512
  count : clusters ≤ 0x0FFFFFF5
  room : s.partitionlba + s.rsc + s.spf32 * s.nf + clusters * s.spc ≤ 2 ^ 32

def DataCluster (clusters c : Nat) : Prop := 2 ≤ c ∧ c < clusters + 2

/-- Each cluster of the chain leads to the next one and the last one to an end mark. -/
def Linked (s : Volume) : List Nat → Prop
  | [] => False
  | [c] => 0x0FFFFFF8 ≤ low28 (fatEntry s c)
  | c :: d :: cs => low28 (fatEntry s c) = d ∧ Linked s (d :: cs)

/-- Each cluster leads to the next one; where the last one leads is left open. -/
def Leads (s : Volume) : List Nat → Prop
  | [] => True
  | [_] => True
  | c :: d :: cs => low28 (fatEntry s c) = d ∧ Leads s (d :: cs)

structure FilePath (s : Volume) (clusters : Nat) (cs : List Nat) : Prop where
  data : ∀ c ∈ cs, DataCluster clusters c
  leads : Leads s cs
  few : cs.length < 2 ^ 32

structure FileChain (s : Volume) (clusters : Nat) (cs : List Nat) : Prop where
  data : ∀ c ∈ cs, DataCluster clusters c
  distinct : cs.Nodup
  linked : Linked s cs

/-- The walk comes to cluster number `num` of the chain: none up to there is refused, and no
    entry on the way has a reserved bit set. -/
def Passes (s : Volume) (cs : List Nat) (num : Nat) : Prop :=
  num < cs.length ∧ (∀ c ∈ cs.take (num + 1), c < 0xFFF8) ∧
    ∀ c ∈ cs.take num, fatEntry s c < 2 ^ 28

theorem alike_refl (s : Volume) : Alike s s := ⟨rfl, rfl, rfl⟩

theorem alike_trans {s s' s'' : Volume} (h : Alike s s') (h' : Alike s' s'') : Alike s s'' :=
  ⟨h'.lba.trans h.lba, h'.bpb.trans h.bpb, h'.bytes.trans h.bytes⟩

section
variable {s s' : Volume} (alike : Alike s s')
include alike

theorem alike_spc : s'.spc = s.spc := by unfold Volume.spc; rw [alike.bpb]

theorem alike_rsc : s'.rsc = s.rsc := by unfold Volume.rsc; rw [alike.bpb]

theorem alike_nf : s'.nf = s.nf := by unfold Volume.nf; rw [alike.bpb]

theorem alike_spf32 : s'.spf32 = s.spf32 := by unfold Volume.spf32; rw [alike.bpb]

theorem alike_entry (c : Nat) : fatEntry s' c = fatEntry s c := by
  unfold fatEntry
  rw [alike.lba, alike_rsc alike, alike.bytes]

theorem alike_clusterAddr (c : Nat) : clusterAddr s' c = clusterAddr s c := by
  unfold clusterAddr
  rw [alike.lba, alike_rsc alike, alike_spc alike, alike_spf32 alike, alike_nf alike]

theorem alike_clusterSize : s'.clusterSize = s.clusterSize := by
  unfold Volume.clusterSize
  rw [alike_spc alike]

theorem alike_wellFormed {clusters : Nat} (well : WellFormed s clusters) :
    WellFormed s' clusters := by
  obtain ⟨sectors, tables, table, count, room⟩ := well
  constructor
  · rw [alike_spc alike]; exact sectors
  · rw [alike_nf alike]; exact tables
  · rw [alike_spf32 alike]; exact table
  · exact count
  · rw [alike.lba, alike_rsc alike, alike_spf32 alike, alike_nf alike, alike_spc alike]; exact room

theorem alike_leads (cs : List Nat) (leads : Leads s cs) : Leads s' cs := by
  induction cs with
  | nil => trivial
  | cons c cs ih =>
    cases cs with
    | nil => trivial
    | cons d cs =>
      unfold Leads at leads ⊢
      rw [alike_entry alike]
      exact ⟨leads.1, ih leads.2⟩

theorem alike_path {clusters : Nat} {cs : List Nat} (path : FilePath s clusters cs) :
    FilePath s' clusters cs := ⟨path.data, alike_leads alike cs path.leads, path.few⟩

theorem alike_linked (cs : List Nat) (linked : Linked s cs) : Linked s' cs := by
  induction cs with
  | nil => exact linked
  | cons c cs ih =>
    cases cs with
    | nil =>
      unfold Linked at linked ⊢
      rw [alike_entry alike]
      exact linked
    | cons d cs =>
      unfold Linked at linked ⊢
      rw [alike_entry alike]
      exact ⟨linked.1, ih linked.2⟩

end

theorem linked_leads {s : Volume} (cs : List Nat) (linked : Linked s cs) : Leads s cs := by
  induction cs with
  | nil => trivial
  | cons c cs ih =>
    cases cs with
    | nil => trivial
    | cons d cs => exact ⟨linked.1, ih linked.2⟩

theorem chain_length {s : Volume} {clusters : Nat} {cs : List Nat}
    (chain : FileChain s clusters cs) : cs.length ≤ clusters := by
  have inside : cs ⊆ List.range' 2 clusters := by
    intro c member
    have valid := chain.data c member
    unfold DataCluster at valid
    rw [List.mem_range'_1]
    omega
  have bound := (List.subperm_of_subset chain.distinct inside).length_le
  rwa [List.length_range'] at bound

theorem chain_path {s : Volume} {clusters : Nat} {cs : List Nat} (well : WellFormed s clusters)
    (chain : FileChain s clusters cs) : FilePath s clusters cs := by
  have short := chain_length chain
  have count := well.count
  exact ⟨chain.data, linked_leads cs chain.linked, by omega⟩

theorem word_congr {n : Nat} {b b' : Nat → Byte} {o o' : Nat}
    (same : ∀ i < n, b (o + i) = b' (o' + i)) : word n b o = word n b' o' := by
  unfold word
  apply congrArg
  apply List.map_congr_left
  intro i member
  exact same i (List.mem_range.mp member)

theorem u32_add_u32 (m n : Nat) : u32 (u32 m + n) = u32 (m + n) := Nat.mod_add_mod m _ n

theorem lookup_ready {s : Volume} (ready : Ready s) (index : Nat) :
    Ready (fatGetTableEntry s index).2 ∧ Alike s (fatGetTableEntry s index).2 ∧
      (fatGetTableEntry s index).2.lastEntrySectorOffset = u32 (index * 4) / 512 := by
  have small := u32_lt (index * 4)
  have offset : u32 (u32 (index * 4) / 512) = u32 (index * 4) / 512 := u32_of_lt (by omega)
  have blocks : cachedfatsize * 4 / 512 = 1 := by decide
  by_cases fresh : u32 (index * 4) / 512 < s.lastEntrySectorOffset ∨
      u32 (index * 4) / 512 ≥ s.lastEntrySectorOffset + 1
  · have run : (fatGetTableEntry s index).2 = { s with
        card := { s.card with issued := s.card.issued + 1 }
        cachedFAT := s.cachedFAT.put 0 (fun i => s.card.bytes
          (u32 (u32 (s.partitionlba + s.rsc) + u32 (index * 4) / 512) * 512 + i)) 512
        lastEntrySectorOffset := u32 (index * 4) / 512 } := by
      simp only [fatGetTableEntry, ready.sector, blocks, if_pos fresh, offset,
        read_sound ready.sound _ s.cachedFAT Nat.one_pos (by decide : 1 < 2 ^ 32)]
    rw [run]
    refine ⟨⟨ready.sector, ?_, sound_later ready.sound rfl (Nat.le_succ _)⟩, ⟨rfl, rfl, rfl⟩, rfl⟩
    intro _ i inside
    rw [put_get, blit_front _ _ inside, u32_add_u32]
    rfl
  · have same : u32 (index * 4) / 512 = s.lastEntrySectorOffset := by omega
    have run : (fatGetTableEntry s index).2 = s := by
      simp only [fatGetTableEntry, ready.sector, blocks, if_neg fresh, offset]
      rw [same, ← ready.sector]
    rw [run]
    exact ⟨ready, alike_refl s, same.symm⟩

theorem lookup_value {s : Volume} {clusters : Nat} (ready : Ready s) (well : WellFormed s clusters)
    {index : Nat} (inside : index < clusters + 2) :
    (fatGetTableEntry s index).1 = fatEntry s index := by
  obtain ⟨ready', alike, last⟩ := lookup_ready ready index
  obtain ⟨sectors, tables, table, count, room⟩ := well
  have value : (fatGetTableEntry s index).1 =
      word 4 (fatGetTableEntry s index).2.cachedFAT.get (4 * (index % cachedfatsize)) := rfl
  rw [value]
  apply word_congr
  intro i bound
  have entries : cachedfatsize = 128 := by decide
  have wide : s.spf32 ≤ s.spf32 * s.nf := Nat.le_mul_of_pos_right _ tables
  have held : (fatGetTableEntry s index).2.lastEntrySectorOffset <
      (fatGetTableEntry s index).2.spf32 := by
    rw [last, alike_spf32 alike, u32_of_lt (by omega)]
    omega
  rw [entries, ready'.cached held _ (by omega), alike.lba, alike_rsc alike, alike.bytes, last,
    u32_of_lt (by omega : index * 4 < 2 ^ 32), u32_of_lt (by omega)]
  apply congrArg
  omega

theorem passes_zero {s : Volume} {c : Nat} {cs : List Nat} : Passes s (c :: cs) 0 ↔ c < 0xFFF8 := by
  simp [Passes]

theorem passes_succ {s : Volume} {c : Nat} {cs : List Nat} {num : Nat} :
    Passes s (c :: cs) (num + 1) ↔
      c < 0xFFF8 ∧ fatEntry s c < 2 ^ 28 ∧ Passes s cs num := by
  simp only [Passes, List.length_cons, List.take_succ_cons, List.forall_mem_cons,
    Nat.add_lt_add_iff_right]
  tauto

theorem loop_refused (s : Volume) (data : Buffer Byte) (rw : ReadWrite) (left : Nat) {c : Nat}
    (refused : 0xFFF8 ≤ c) : transferLoop s data rw left c = (0, data, s) := by
  unfold transferLoop
  rw [if_neg (by omega)]

theorem loop_follows {s : Volume} {clusters c : Nat} (ready : Ready s)
    (well : WellFormed s clusters) (valid : DataCluster clusters c) (taken : c < 0xFFF8)
    (data : Buffer Byte) (rw : ReadWrite) (left : Nat) :
    transferLoop s data rw (left + 1) c =
      transferLoop (fatGetTableEntry s c).2 data rw left (fatEntry s c) := by
  obtain ⟨low, high⟩ := valid
  rw [transferLoop, if_pos ⟨by omega, taken⟩]
  simp only [lookup_value ready well high]

/-- A walk through the table that does not pass ends without a transfer. -/
theorem walk_stops (data : Buffer Byte) (rw : ReadWrite) {clusters : Nat} (cs : List Nat)
    (num : Nat) {s : Volume} (ready : Ready s) (well : WellFormed s clusters)
    (valid : ∀ c ∈ cs, DataCluster clusters c) (linked : Linked s cs) (out : ¬ Passes s cs num) :
    ∃ s', Ready s' ∧ Alike s s' ∧ transferLoop s data rw num (cs.getD 0 0) = (0, data, s') := by
  induction cs generalizing s num with
  | nil => exact absurd linked (by simp [Linked])
  | cons c cs ih =>
    by_cases taken : c < 0xFFF8
    · cases num with
      | zero => exact absurd (passes_zero.mpr taken) out
      | succ num =>
        have step := loop_follows ready well (valid c (by simp)) taken data rw num
        obtain ⟨ready', alike, -⟩ := lookup_ready ready c
        have beyond (high : 0xFFF8 ≤ fatEntry s c) : ∃ s', Ready s' ∧ Alike s s' ∧
            transferLoop s data rw (num + 1) c = (0, data, s') :=
          ⟨_, ready', alike, by rw [step, loop_refused _ _ _ _ high]⟩
        by_cases clean : fatEntry s c < 2 ^ 28
        · have low : low28 (fatEntry s c) = fatEntry s c := Nat.mod_eq_of_lt clean
          cases cs with
          | nil =>
            have mark : 0x0FFFFFF8 ≤ fatEntry s c := by rw [← low]; exact linked
            exact beyond (by omega)
          | cons d cs =>
            obtain ⟨next, rest⟩ := linked
            have link : fatEntry s c = d := low.symm.trans next
            have out' : ¬ Passes (fatGetTableEntry s c).2 (d :: cs) num := by
              intro passes
              apply out
              rw [passes_succ]
              simpa only [taken, clean, true_and, Passes, alike_entry alike] using passes
            obtain ⟨s', ready'', alike', stopped⟩ := ih num ready' (alike_wellFormed alike well)
              (fun e member => valid e (by simp [member])) (alike_linked alike _ rest) out'
            refine ⟨s', ready'', alike_trans alike alike', ?_⟩
            rw [List.getD_cons_zero, step, link]
            exact stopped
        · exact beyond (by omega)
    · exact ⟨s, ready, alike_refl s, loop_refused s data rw num (by simpa using taken)⟩

/-- One that passes ends at the cluster asked for, and needs no more of the chain. -/
theorem walk_through (data : Buffer Byte) (rw : ReadWrite) {clusters : Nat} (num : Nat)
    {cs : List Nat} {s : Volume} (ready : Ready s) (well : WellFormed s clusters)
    (valid : ∀ c ∈ cs, DataCluster clusters c) (leads : Leads s cs) (passes : Passes s cs num) :
    ∃ s', Ready s' ∧ Alike s s' ∧ transferLoop s data rw num (cs.getD 0 0) =
      transferLoop s' data rw 0 (cs.getD num 0) := by
  induction num generalizing s cs with
  | zero => exact ⟨s, ready, alike_refl s, rfl⟩
  | succ num ih =>
    cases cs with
    | nil => exact absurd passes.1 (Nat.not_lt_zero _)
    | cons c cs =>
      obtain ⟨taken, clean, rest⟩ := passes_succ.mp passes
      cases cs with
      | nil => exact absurd rest.1 (Nat.not_lt_zero _)
      | cons d cs =>
        have step := loop_follows ready well (valid c (by simp)) taken data rw num
        have low : low28 (fatEntry s c) = fatEntry s c := Nat.mod_eq_of_lt clean
        have link : fatEntry s c = d := low.symm.trans leads.1
        obtain ⟨ready', alike, -⟩ := lookup_ready ready c
        have passes' : Passes (fatGetTableEntry s c).2 (d :: cs) num := by
          simpa only [Passes, alike_entry alike] using rest
        obtain ⟨s', ready'', alike', run⟩ := ih ready' (alike_wellFormed alike well)
          (fun e member => valid e (by simp [member])) (alike_leads alike _ leads.2) passes'
        refine ⟨s', ready'', alike_trans alike alike', ?_⟩
        rw [List.getD_cons_zero, step, link]
        exact run

end Fat
