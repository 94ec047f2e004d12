import MaldOS.Hal.FatBuffers
import MaldOS.Hal.FatKeeps
import MaldOS.Library.Runs
import MaldOS.Library.Stores

/-!
The file functions as a store of byte arrays. A write that starts inside a
cluster and goes over its end comes out wrong, but only in its own range: all
that was known of the files besides stays true.
-/
namespace Fat
open Arch ByteMemory Slices Sd Extents Stores Runs

variable {ι : Type}

/-- The part of the file that can be come to. -/
def fileSize (s : Volume) (cs : List Nat) : Nat := s.clusterSize * reach s cs

structure Files (s : Volume) (clusters : Nat) (chain : ι → List Nat) : Prop where
  chained : ∀ f, FileChain s clusters (chain f)
  apart : ∀ f g, f ≠ g → List.Disjoint (chain f) (chain g)

/-- A call on one of several files, with its `unsigned int` arguments, or a lookup by name. -/
inductive FileCall (ι : Type) where
  | read (file : ι) (data : Nat → Byte) (seek length : BitVec 32)
  | write (file : ι) (data : Nat → Byte) (seek length : BitVec 32)
  | find (fn : List Byte)

def FileCall.call (chain : ι → List Nat) : FileCall ι → Call
  | .read f data seek length => .read ((chain f).getD 0 0) data seek.toNat length.toNat
  | .write f data seek length => .write ((chain f).getD 0 0) data seek.toNat length.toNat
  | .find fn => .find fn

def FileCall.Inside (size : Nat) : FileCall ι → Prop
  | .write _ _ seek length => seek.toNat % size + min length.toNat size ≤ 4096
  | _ => True

/-- A write of a part of the file that starts with a cluster or stays inside one. -/
def Sure (size total seek length : Nat) : Prop :=
  length = 0 ∨ ((seek % size = 0 ∨ seek % size + length ≤ size) ∧ seek + length ≤ total)

instance (size total seek length : Nat) : Decidable (Sure size total seek length) :=
  inferInstanceAs (Decidable (_ ∨ _))

section
variable [DecidableEq ι] (chain : ι → List Nat) (size : Nat) (total : ι → Nat)

def note (k : Contents ι Byte) : FileCall ι → Contents ι Byte
  | .write f data seek length =>
    if Sure size (total f) seek.toNat length.toNat then k.write f seek.toNat length.toNat data
    else k.forget f seek.toNat length.toNat
  | _ => k

def serve (p : Volume × Contents ι Byte) (c : FileCall ι) : Volume × Contents ι Byte :=
  (issue p.1 (c.call chain), note size total p.2 c)

/-- A read counts what is left of the file and returns, of what is known, just that; a write stays
    in the local buffer, and counts what it was asked to write if it can be sure to. -/
def Served (p : Volume × Contents ι Byte) : FileCall ι → Prop
  | .read f data seek length =>
    ∃ (n : Nat) (data' : Nat → Byte) (s' : Volume),
      fatReadfile p.1 ((chain f).getD 0 0) data seek.toNat length.toNat = some ((n : Int), data', s') ∧
      n = min length.toNat (total f - seek.toNat) ∧
      (∀ i < n, ∀ b, p.2 f (seek.toNat + i) = some b → data' i = b) ∧
      (∀ i, n ≤ i → data' i = data i) ∧ s'.buffer.overrun = false
  | .write f data seek length =>
    ∃ (r : Int) (s' : Volume),
      fatWritefile p.1 ((chain f).getD 0 0) data seek.toNat length.toNat = some (r, s') ∧
      s'.buffer.overrun = false ∧ (Sure size (total f) seek.toNat length.toNat → r = length.toNat)
  | .find _ => True

end

def contents (s : Volume) (chain : ι → List Nat) : Contents ι Byte :=
  fun f j => some (fileByte s (chain f) j)

/-! Where the files are. -/

theorem clusters_apart (s : Volume) {c d : Nat} (hc : 2 ≤ c) (hd : 2 ≤ d) (ne : c ≠ d) :
    clusterAddr s c + s.clusterSize ≤ clusterAddr s d ∨
      clusterAddr s d + s.clusterSize ≤ clusterAddr s c := by
  unfold clusterAddr Volume.clusterSize
  rcases Nat.lt_or_gt_of_ne ne with less | more
  · have step : (c - 2 + 1) * s.spc ≤ (d - 2) * s.spc := Nat.mul_le_mul_right _ (by omega)
    rw [Nat.add_mul, Nat.one_mul] at step
    omega
  · have step : (d - 2 + 1) * s.spc ≤ (c - 2) * s.spc := Nat.mul_le_mul_right _ (by omega)
    rw [Nat.add_mul, Nat.one_mul] at step
    omega

theorem files_layout {s : Volume} {clusters : Nat} {chain : ι → List Nat}
    (files : Files s clusters chain) : Layout s.clusterSize fun f => bases s (chain f) := by
  constructor
  · exact fun f => bases_separated (files.chained f)
  · intro f g ne a ma b mb
    obtain ⟨c, mc, rfl⟩ := List.mem_map.mp ma
    obtain ⟨d, md, rfl⟩ := List.mem_map.mp mb
    apply clusters_apart
    · exact ((files.chained f).data c mc).1
    · exact ((files.chained g).data d md).1
    · rintro rfl
      exact files.apart f g ne mc md

theorem retains_files {s s' : Volume} {clusters : Nat} {chain : ι → List Nat}
    (retains : Retains s s') (well : WellFormed s clusters) (files : Files s clusters chain) :
    Files s' clusters chain :=
  ⟨fun f => retains_chain retains well (files.chained f), files.apart⟩

theorem alike_retains {s s' : Volume} (alike : Alike s s') : Retains s s' :=
  ⟨alike.lba, alike.bpb, fun a _ => congrFun alike.bytes a⟩

theorem reach_few {s : Volume} {clusters : Nat} {cs : List Nat} (chain : FileChain s clusters cs) :
    reach s cs ≤ 65526 := by
  by_cases none : reach s cs = 0
  · omega
  obtain ⟨short, taken, -⟩ := (passes_iff s cs (reach s cs - 1)).mpr (by omega)
  rw [show reach s cs - 1 + 1 = reach s cs by omega] at taken
  have inside : cs.take (reach s cs) ⊆ List.range' 2 65526 := by
    intro c member
    have low := (chain.data c (List.mem_of_mem_take member)).1
    have high := taken c member
    rw [List.mem_range'_1]
    omega
  have distinct := (List.take_sublist (reach s cs) cs).nodup chain.distinct
  have bound := (List.subperm_of_subset distinct inside).length_le
  rw [List.length_range', List.length_take] at bound
  omega

theorem fileSize_lt {s : Volume} {clusters : Nat} {cs : List Nat} (chain : FileChain s clusters cs)
    (size : s.clusterSize ≤ 4096) : fileSize s cs < 2 ^ 31 := by
  have total := Nat.mul_le_mul size (reach_few chain)
  unfold fileSize
  omega

/-! One call. -/

/-- A write changes nothing outside of its range, and if it can be sure to, all of that. -/
structure Effect (s : Volume) (cs : List Nat) (data : Nat → Byte) (seek length : Nat) (r : Int)
    (s' : Volume) : Prop where
  ready : Ready s'
  retains : Retains s s'
  overrun : seek % s.clusterSize + min length s.clusterSize ≤ s.buffer.size →
    s'.buffer.overrun = s.buffer.overrun
  within : Within s.clusterSize (bases s cs) s.card.bytes s'.card.bytes seek length
  sure : Sure s.clusterSize (fileSize s cs) seek length → r = i32 length ∧
    Wrote s.clusterSize (bases s cs) s.card.bytes s'.card.bytes seek length data

theorem write_effect {s : Volume} {clusters : Nat} {cs : List Nat} (ready : Ready s)
    (well : WellFormed s clusters) (chain : FileChain s clusters cs) (data : Nat → Byte)
    (seek : Nat) {length : Nat} (room : length < 2 ^ 32) (fits : s.clusterSize ≤ s.buffer.size) :
    ∃ r s', fatWritefile s (cs.getD 0 0) data seek length = some (r, s') ∧
      Effect s cs data seek length r s' := by
  have positive := clusterSize_pos well
  have pos := Nat.div_add_mod seek s.clusterSize
  have low := Nat.mod_lt seek positive
  have next : s.clusterSize * (seek / s.clusterSize + 1) =
      s.clusterSize * (seek / s.clusterSize) + s.clusterSize := Nat.mul_succ _ _
  by_cases begins : seek / s.clusterSize < reach s cs ∧ length > 0
  · obtain ⟨near, more⟩ := begins
    obtain ⟨s₁, s₂, done, n, doneEq, nEq, run, ready₂, retains, overrun, wrote₁, wrote₂⟩ :=
      fatWritefile_rounds ready well chain data seek length near more room fits
    have covered := Nat.mul_le_mul_left s.clusterSize near
    have whole := Nat.mul_le_mul_left s.clusterSize (reach_le s cs)
    have extents : (bases s cs).length = cs.length := List.length_map _
    rw [Nat.succ_eq_add_one] at covered
    refine ⟨_, s₂, run, ready₂, retains, ?_, ?_, ?_⟩
    · intro inside
      rw [overrun, doneEq, past_within inside, Bool.or_false]
    · apply within_trans
      · apply within_mono le_rfl _ (wrote_within _ wrote₁)
        · omega
        · rw [extents]
          omega
      · by_cases none : n = 0
        · rw [none] at wrote₂
          exact within_same _ _ (wrote_nothing_same wrote₂)
        · apply within_mono _ _ (wrote_within _ wrote₂)
          · omega
          · omega
          · rw [extents]
            omega
    · intro sure
      obtain ⟨place, covers⟩ := sure.resolve_left more.ne'
      unfold fileSize at covers
      have first : min length (s.clusterSize - seek % s.clusterSize) = done := by omega
      have all : done + n = length := by omega
      rw [first] at wrote₁
      rw [all]
      refine ⟨rfl, ?_⟩
      rw [← all]
      apply wrote_append positive (bases_separated chain) _ _ wrote₁ wrote₂
      · rw [extents]
        omega
      · omega
  · obtain ⟨s', run, ready', alike, same⟩ := write_over length ready well chain data
      (seek / s.clusterSize) (seek % s.clusterSize) 0 length (by omega)
    refine ⟨i32 0, s', ?_, ready', alike_retains alike, fun _ => by rw [same], ?_, ?_⟩
    · simp only [fatWritefile, cluster_bytes ready, run, Option.map_some]
    · exact within_same _ _ alike.bytes
    · intro sure
      have none : length = 0 := by
        by_contra some
        obtain ⟨_, covers⟩ := sure.resolve_left some
        have far : s.clusterSize * reach s cs ≤ s.clusterSize * (seek / s.clusterSize) :=
          Nat.mul_le_mul_left _ (by omega)
        unfold fileSize at covers
        omega
      subst none
      rw [alike.bytes]
      exact ⟨rfl, wrote_nothing _ _ _ _ _⟩

structure Serving (s₀ : Volume) (clusters : Nat) (chain : ι → List Nat)
    (p : Volume × Contents ι Byte) : Prop where
  ready : Ready p.1
  retains : Retains s₀ p.1
  room : p.1.buffer.size = 4096
  overrun : p.1.buffer.overrun = false
  shows : Shows s₀.clusterSize (fun f => bases s₀ (chain f)) p.1.card.bytes p.2

section
variable {chain : ι → List Nat} {s₀ : Volume} {clusters : Nat} (well : WellFormed s₀ clusters)
  (files : Files s₀ clusters chain) (small : s₀.clusterSize ≤ 4096)

theorem serving_kept {s s' : Volume} {k : Contents ι Byte} (serving : Serving s₀ clusters chain (s, k))
    (keeps : Keeps s s') (size : s'.buffer.size = s.buffer.size)
    (overrun : s'.buffer.overrun = s.buffer.overrun) : Serving s₀ clusters chain (s', k) := by
  obtain ⟨ready', alike⟩ := keeps serving.ready
  constructor
  · exact ready'
  · exact retains_trans serving.retains (alike_retains alike)
  · exact size.trans serving.room
  · exact overrun.trans serving.overrun
  · exact shows_same alike.bytes serving.shows

theorem getcluster_buffer (s : Volume) (fn : List Byte) : (fatGetcluster s fn).2.buffer = s.buffer := by
  unfold fatGetcluster
  dsimp only
  split_ifs <;> rfl

theorem listdirectory_buffer (s : Volume) : (issue s .list).buffer = s.buffer := by
  unfold issue fatListdirectory
  dsimp only
  split_ifs
  · rfl
  · cases listDirectory _ 64 0 <;> rfl

theorem find_serving {s : Volume} {k : Contents ι Byte} (serving : Serving s₀ clusters chain (s, k))
    (fn : List Byte) : Serving s₀ clusters chain (issue s (.find fn), k) := by
  apply serving_kept serving (keeps_getcluster s fn)
  · exact congrArg Buffer.size (getcluster_buffer s fn)
  · exact congrArg Buffer.overrun (getcluster_buffer s fn)

include well files small

theorem read_serves {s : Volume} {k : Contents ι Byte} (serving : Serving s₀ clusters chain (s, k))
    (f : ι) (data : Nat → Byte) (seek length : BitVec 32) :
    Served chain s₀.clusterSize (fun f => fileSize s₀ (chain f)) (s, k) (.read f data seek length) ∧
      Serving s₀ clusters chain (issue s (.read ((chain f).getD 0 0) data seek.toNat length.toNat), k) := by
  have retains := serving.retains
  have own := files.chained f
  have total := fileSize_lt own small
  have positive := clusterSize_pos well
  obtain ⟨s', run, ready', alike, size, overrun⟩ := fatReadfile_spec serving.ready
    (retains_wellFormed retains well) (retains_chain retains well own) data seek.toNat length.toNat
    length.isLt
  rw [retains_clusterSize retains, retains_reach retains well own] at run
  have kept := overrun (by rw [retains_clusterSize retains, serving.room]; exact small)
  unfold fileSize at total
  rw [i32_of_lt (by omega)] at run
  constructor
  · refine ⟨_, _, s', run, rfl, ?_, ?_, kept.trans serving.overrun⟩
    · intro i early b known
      have inside : seek.toNat + i < s₀.clusterSize * (bases s₀ (chain f)).length := by
        have whole := Nat.mul_le_mul_left s₀.clusterSize (reach_le s₀ (chain f))
        rw [bases, List.length_map]
        omega
      rw [blit_front _ _ early, fileByte, fileAddr, retains_clusterSize retains, retains_bases retains]
      exact serving.shows f _ b inside known
    · exact fun i late => blit_outside (by omega)
  · have same : issue s (.read ((chain f).getD 0 0) data seek.toNat length.toNat) = s' := by
      simp only [issue, run, Option.get_some]
    rw [same]
    exact serving_kept serving (fun _ => ⟨ready', alike⟩) size kept

variable [DecidableEq ι]

theorem write_serves {s : Volume} {k : Contents ι Byte} (serving : Serving s₀ clusters chain (s, k))
    (f : ι) (data : Nat → Byte) (seek length : BitVec 32)
    (inside : seek.toNat % s₀.clusterSize + min length.toNat s₀.clusterSize ≤ 4096) :
    Served chain s₀.clusterSize (fun f => fileSize s₀ (chain f)) (s, k) (.write f data seek length) ∧
      Serving s₀ clusters chain (serve chain s₀.clusterSize (fun f => fileSize s₀ (chain f)) (s, k)
        (.write f data seek length)) := by
  have retains := serving.retains
  have own := files.chained f
  have total := fileSize_lt own small
  have positive := clusterSize_pos well
  have layout := files_layout files
  have extents : (bases s₀ (chain f)).length = (chain f).length := List.length_map _
  obtain ⟨r, s', run, effect⟩ := write_effect serving.ready (retains_wellFormed retains well)
    (retains_chain retains well own) data seek.toNat length.isLt
    (by rw [retains_clusterSize retains, serving.room]; exact small)
  obtain ⟨ready', retains', overrun, within, sure⟩ := effect
  have same : fileSize s (chain f) = fileSize s₀ (chain f) := by
    rw [fileSize, fileSize, retains_clusterSize retains, retains_reach retains well own]
  rw [same, retains_clusterSize retains, retains_bases retains] at sure
  rw [retains_clusterSize retains, retains_bases retains] at within
  rw [retains_clusterSize retains, serving.room] at overrun
  have kept := (overrun inside).trans serving.overrun
  constructor
  · refine ⟨r, s', run, kept, fun safe => ?_⟩
    have few : length.toNat < 2 ^ 31 := by
      rcases safe with none | ⟨_, covers⟩
      · omega
      · exact (Nat.le_add_left _ _).trans_lt (covers.trans_lt total)
    rw [(sure safe).1, i32_of_lt few]
  · have after : issue s (.write ((chain f).getD 0 0) data seek.toNat length.toNat) = s' := by
      simp only [issue, run, Option.get_some]
    have size := (writefile_shape s ((chain f).getD 0 0) data seek.toNat length.toNat).buffer
    rw [after] at size
    unfold serve FileCall.call note
    dsimp only
    rw [after]
    refine ⟨ready', retains_trans retains retains', size.trans serving.room, kept, ?_⟩
    by_cases safe : Sure s₀.clusterSize (fileSize s₀ (chain f)) seek.toNat length.toNat
    · rw [if_pos safe]
      by_cases none : length.toNat = 0
      · have wrote := (sure safe).2
        rw [none] at wrote ⊢
        rw [wrote_nothing_same wrote, write_nothing]
        exact serving.shows
      · have covers := (safe.resolve_left none).2
        have whole := Nat.mul_le_mul_left s₀.clusterSize (reach_le s₀ (chain f))
        unfold fileSize at covers
        apply shows_write layout positive _ (sure safe).2 serving.shows
        rw [extents]
        omega
    · rw [if_neg safe]
      exact shows_forget layout positive within serving.shows

theorem call_served {p : Volume × Contents ι Byte} (serving : Serving s₀ clusters chain p)
    (c : FileCall ι) (inside : c.Inside s₀.clusterSize) :
    Served chain s₀.clusterSize (fun f => fileSize s₀ (chain f)) p c ∧
      Serving s₀ clusters chain (serve chain s₀.clusterSize (fun f => fileSize s₀ (chain f)) p c) := by
  obtain ⟨s, k⟩ := p
  cases c with
  | read f data seek length => exact read_serves well files small serving f data seek length
  | write f data seek length => exact write_serves well files small serving f data seek length inside
  | find fn => exact ⟨trivial, find_serving serving fn⟩

end

theorem contents_shown (s : Volume) (chain : ι → List Nat) :
    Shows s.clusterSize (fun f => bases s (chain f)) s.card.bytes (contents s chain) := by
  intro f j b _ known
  exact Option.some.inj known

/-- In every run of reads, writes and lookups on files without a cluster in common, whose writes
    stay in the local buffer, every call is served from what the calls before it wrote. -/
theorem files_served [DecidableEq ι] {s : Volume} {clusters : Nat} {chain : ι → List Nat}
    (reached : Reached s) (well : WellFormed s clusters) (files : Files s clusters chain)
    (small : s.clusterSize ≤ 4096) (calls : List (FileCall ι))
    (inside : ∀ c ∈ calls, c.Inside s.clusterSize) :
    Along (serve chain s.clusterSize fun f => fileSize s (chain f))
      (Served chain s.clusterSize fun f => fileSize s (chain f)) (s, contents s chain) calls := by
  obtain ⟨room, mark⟩ := reached_buffer reached
  have start : Serving s clusters chain (s, contents s chain) :=
    ⟨reached_ready reached, alike_retains (alike_refl s), room, mark, contents_shown s chain⟩
  refine along_invariant ?_ calls start ((along_forall _ _ _ calls).mpr inside)
  exact fun p c serving inside => call_served well files small serving c inside

/-! Calls of any kind, and one byte of one file. -/

/-- A write goes to one of the files, and not over byte `j` of file `f`. -/
def Call.Spares (chain : ι → List Nat) (f : ι) (j : Nat) : Call → Prop
  | .write cluster _ seek length =>
    length < 2 ^ 32 ∧ (∃ g, (chain g).getD 0 0 = cluster) ∧
      (cluster = (chain f).getD 0 0 → j < seek ∨ seek + length ≤ j)
  | _ => True

theorem keeps_issue {s : Volume} {c : Call}
    (reads : ∀ cluster data seek length, c ≠ .write cluster data seek length) :
    Keeps s (issue s c) := by
  cases c with
  | list =>
    unfold issue
    cases listed : fatListdirectory s with
    | none => exact keeps_refl s
    | some s' => exact keeps_listdirectory listed
  | find fn => exact keeps_getcluster s fn
  | read cluster data seek length =>
    exact keeps_readfile (Option.some_get (fatReadfile_some s cluster data seek length)).symm
  | write cluster data seek length => exact absurd rfl (reads cluster data seek length)

theorem issue_spares {s : Volume} {clusters : Nat} {chain : ι → List Nat} (ready : Ready s)
    (well : WellFormed s clusters) (files : Files s clusters chain)
    (fits : s.clusterSize ≤ s.buffer.size) {c : Call} {f : ι} {j : Nat}
    (inside : j < s.clusterSize * (chain f).length) (spares : c.Spares chain f j) :
    Ready (issue s c) ∧ Retains s (issue s c) ∧
      fileByte (issue s c) (chain f) j = fileByte s (chain f) j := by
  have quiet : Keeps s (issue s c) → Ready (issue s c) ∧ Retains s (issue s c) ∧
      fileByte (issue s c) (chain f) j = fileByte s (chain f) j := by
    intro keeps
    obtain ⟨ready', alike⟩ := keeps ready
    exact ⟨ready', alike_retains alike, alike_fileByte alike (chain f) j⟩
  cases c with
  | write cluster data seek length =>
    obtain ⟨room, ⟨g, rfl⟩, away⟩ := spares
    obtain ⟨r, s', run, effect⟩ := write_effect ready well (files.chained g) data seek room fits
    have same : issue s (.write ((chain g).getD 0 0) data seek length) = s' := by
      simp only [issue, run, Option.get_some]
    rw [same]
    refine ⟨effect.ready, effect.retains, ?_⟩
    rw [fileByte, fileAddr, retains_clusterSize effect.retains, retains_bases effect.retains]
    apply effect.within
    intro i hi late early equal
    have layout := files_layout files
    have positive := clusterSize_pos well
    have short : j < s.clusterSize * (bases s (chain f)).length := by
      rw [bases, List.length_map]
      exact inside
    by_cases own : f = g
    · subst own
      have here := addr_injective positive (layout.own f) short hi equal
      have sides := away rfl
      omega
    · exact addr_ne layout positive own short hi equal
  | list => exact quiet (keeps_issue (by simp))
  | find fn => exact quiet (keeps_issue (by simp))
  | read cluster data seek length => exact quiet (keeps_issue (by simp))

theorem run_spares {s : Volume} {clusters : Nat} {chain : ι → List Nat} (ready : Ready s)
    (well : WellFormed s clusters) (files : Files s clusters chain)
    (fits : s.clusterSize ≤ s.buffer.size) {f : ι} {j : Nat}
    (inside : j < s.clusterSize * (chain f).length) (calls : List Call)
    (spares : ∀ c ∈ calls, c.Spares chain f j) :
    Ready (run issue s calls) ∧ Retains s (run issue s calls) ∧
      fileByte (run issue s calls) (chain f) j = fileByte s (chain f) j := by
  induction calls generalizing s with
  | nil => exact ⟨ready, alike_retains (alike_refl s), rfl⟩
  | cons c calls ih =>
    obtain ⟨ready', retains, byte⟩ :=
      issue_spares ready well files fits inside (spares c List.mem_cons_self)
    have size : (issue s c).buffer.size = s.buffer.size := by
      cases c with
      | list => exact (listdirectory_buffer s) ▸ rfl
      | find fn => exact (getcluster_buffer s fn) ▸ rfl
      | read cluster data seek length => exact (readfile_shape s cluster data seek length).buffer
      | write cluster data seek length => exact (writefile_shape s cluster data seek length).buffer
    obtain ⟨ready'', retains', byte'⟩ := ih ready' (retains_wellFormed retains well)
      (retains_files retains well files) (by rw [retains_clusterSize retains, size]; exact fits)
      (by rw [retains_clusterSize retains]; exact inside)
      (fun d member => spares d (List.mem_cons_of_mem c member))
    exact ⟨ready'', retains_trans retains retains', byte'.trans byte⟩

def sampleChains : Bool → List Nat
  | false => [2, 3]
  | true => [65528]

theorem sample_files : Files sampleVolume 65530 sampleChains := by
  constructor
  · intro f
    cases f with
    | false => exact sample_chain
    | true =>
      have mark : 0x0FFFFFF8 ≤ low28 (fatEntry sampleVolume 65528) := by decide
      exact ⟨by unfold DataCluster sampleChains; decide, by decide, mark⟩
  · intro f g ne
    cases f <;> cases g <;> simp [sampleChains] at ne ⊢

theorem files_served_sample :
    Along (serve sampleChains sampleVolume.clusterSize fun f => fileSize sampleVolume (sampleChains f))
      (Served sampleChains sampleVolume.clusterSize fun f => fileSize sampleVolume (sampleChains f))
      (sampleVolume, contents sampleVolume sampleChains)
      [.write false (fun _ => 7) 28 512, .find diskName, .write true (fun _ => 1) 0 4,
        .write false (fun _ => 9) 0 28, .read false (fun _ => 0) 20 500] :=
  files_served sample_reached sample_wellFormed sample_files (by decide) _ (by
    simp [FileCall.Inside]
    decide)

end Fat
