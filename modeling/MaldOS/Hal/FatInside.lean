import MaldOS.Hal.FatBuffers

/-!
The local buffer of the file functions on a volume of small clusters. Whatever
the card holds and whichever transfers fail, no access goes over its end.
-/
namespace Fat
open Arch ByteMemory Slices Sd Runs

/-- Clusters of four sectors at most, and a buffer that nothing went over the end of. -/
structure Snug (s : Volume) : Prop where
  some : 0 < s.spc
  few : s.spc ≤ 4
  sector : s.bytesPerSector = 512
  room : s.buffer.size = 4096
  overrun : s.buffer.overrun = false

theorem shape_spc {s s' : Volume} (shape : SameShape s s') : s'.spc = s.spc := by
  unfold Volume.spc
  rw [shape.bpb]

theorem shape_snug {s s' : Volume} (shape : SameShape s s') (snug : Snug s)
    (overrun : s'.buffer.overrun = false) : Snug s' := by
  have spc := shape_spc shape
  constructor
  · exact spc.symm ▸ snug.some
  · exact spc.symm ▸ snug.few
  · exact shape.sector.trans snug.sector
  · exact shape.buffer.trans snug.room
  · exact overrun

theorem snug_clusterSize {s : Volume} (snug : Snug s) : 0 < s.clusterSize ∧ s.clusterSize ≤ 2048 := by
  have some := snug.some
  have few := snug.few
  unfold Volume.clusterSize
  omega

theorem snug_bytes {s : Volume} (snug : Snug s) : u32 (s.bytesPerSector * s.spc) = s.clusterSize := by
  have few := snug.few
  rw [snug.sector, u32_of_lt (by omega), Nat.mul_comm, Volume.clusterSize]

theorem transfer_inside (c : Card) (lba : Nat) {buffer : Buffer Byte} {num : Nat} (some : 0 < num)
    (few : num ≤ 4) (room : buffer.size = 4096) (rw : ReadWrite) :
    (sdTransferblock c lba buffer num rw).2.1.overrun = buffer.overrun ∧
      ((sdTransferblock c lba buffer num rw).1 ≤ 0 ∨
        (sdTransferblock c lba buffer num rw).1 = (num * 512 : Nat)) := by
  have moved := @moved_within c num 4 (by decide) few
  have asked : (if u32 num < 1 then 1 else u32 num) = num := by
    rw [u32_of_lt (by omega), if_neg (by omega)]
  rw [asked] at moved
  have fits : past buffer.size 0 ((outcome c num).1 * 512) = false := past_within (by omega)
  unfold sdTransferblock
  dsimp only
  rw [asked]
  cases rw with
  | sdReadblock =>
    refine ⟨by rw [put_overrun, fits, Bool.or_false], ?_⟩
    split_ifs <;> simp
  | sdWriteblock =>
    refine ⟨by rw [touch_overrun, fits, Bool.or_false], ?_⟩
    split_ifs <;> simp

theorem loop_inside {data : Buffer Byte} (room : data.size = 4096) (rw : ReadWrite) (left : Nat)
    {s : Volume} (some : 0 < s.spc) (few : s.spc ≤ 4) (cluster : Nat) :
    (transferLoop s data rw left cluster).2.1.overrun = data.overrun ∧
      ((transferLoop s data rw left cluster).1 ≤ 0 ∨
        (transferLoop s data rw left cluster).1 = s.clusterSize) := by
  induction left generalizing s cluster with
  | zero =>
    have negative : (-1 : Int) ≤ 0 := by decide
    obtain ⟨inside, counts⟩ :=
      transfer_inside s.card ((cluster - 2) * s.spc + dataSec s) some few room rw
    unfold transferLoop
    dsimp only
    split_ifs with taken failed
    · exact ⟨inside, Or.inl negative⟩
    · exact ⟨inside, Or.inr (counts.resolve_left failed)⟩
    · exact ⟨rfl, Or.inl le_rfl⟩
  | succ left ih =>
    have same := shape_spc (lookup_shape s cluster)
    unfold transferLoop
    dsimp only
    split_ifs
    · have rest := ih (s := (fatGetTableEntry s cluster).2) (by rw [same]; exact some)
        (by rw [same]; exact few) (fatGetTableEntry s cluster).1
      unfold Volume.clusterSize at rest ⊢
      rwa [same] at rest
    · exact ⟨rfl, Or.inl le_rfl⟩

theorem file_clusterSize (s : Volume) (cluster : Nat) (data : Buffer Byte) (num : Nat) (rw : ReadWrite) :
    (fatTransferfile s cluster data num rw).2.2.clusterSize = s.clusterSize := by
  unfold fatTransferfile Volume.clusterSize
  rw [shape_spc (loop_shape data rw num s cluster).1]

theorem file_snug {s : Volume} (snug : Snug s) (cluster num : Nat) (rw : ReadWrite) :
    Snug { (fatTransferfile s cluster s.buffer num rw).2.2 with
        buffer := (fatTransferfile s cluster s.buffer num rw).2.1 } ∧
      ((fatTransferfile s cluster s.buffer num rw).1 ≤ 0 ∨
        (fatTransferfile s cluster s.buffer num rw).1 = s.clusterSize) := by
  obtain ⟨inside, counts⟩ := loop_inside snug.room rw num snug.some snug.few cluster
  refine ⟨shape_snug (transferfile_shape s cluster num rw rfl) snug ?_, counts⟩
  exact inside.trans snug.overrun

theorem snug_touch {s : Volume} (snug : Snug s) {start n : Nat} (within : start + n ≤ 4096) :
    Snug { s with buffer := s.buffer.touch start n } := by
  refine ⟨snug.some, snug.few, snug.sector, snug.room, ?_⟩
  rw [touch_overrun, snug.overrun, past_within (by rw [snug.room]; exact within), Bool.or_false]

theorem snug_put {s : Volume} (snug : Snug s) {start n : Nat} (data : Nat → Byte)
    (within : start + n ≤ 4096) : Snug { s with buffer := s.buffer.put start data n } := by
  refine ⟨snug.some, snug.few, snug.sector, snug.room, ?_⟩
  rw [put_overrun, snug.overrun, past_within (by rw [snug.room]; exact within), Bool.or_false]

theorem readLoop_snug (cluster fuel : Nat) {s s' : Volume} {data data' : Nat → Byte}
    {clusterNum start index length n : Nat} (snug : Snug s) (early : start < s.clusterSize)
    (done : readLoop cluster fuel s data clusterNum start index length = some (n, data', s')) :
    Snug s' := by
  induction fuel generalizing s data clusterNum start index length with
  | zero => cases done
  | succ fuel ih =>
    obtain ⟨positive, size⟩ := snug_clusterSize snug
    have same := file_clusterSize s cluster s.buffer clusterNum .sdReadblock
    obtain ⟨after, counts⟩ := file_snug snug cluster clusterNum .sdReadblock
    unfold readLoop at done
    by_cases more : length > 0
    · rw [if_pos more] at done
      generalize fatTransferfile s cluster s.buffer clusterNum .sdReadblock = moved at *
      obtain ⟨r, buffer, t⟩ := moved
      dsimp only at *
      by_cases none : r ≤ 0
      · rw [if_pos none] at done
        cases done
        exact after
      · have whole := counts.resolve_left none
        subst whole
        rw [if_neg none, unsigned_rest early.le (by omega)] at done
        refine ih (snug_touch after ?_) ?_ done
        · split_ifs <;> omega
        · exact same.symm ▸ positive
    · rw [if_neg more] at done
      cases done
      exact snug

theorem writeLoop_snug (cluster : Nat) (data : Nat → Byte) (fuel : Nat) {s s' : Volume}
    {clusterNum start index length n : Nat} (snug : Snug s) (early : start < s.clusterSize)
    (done : writeLoop cluster data fuel s clusterNum start index length = some (n, s')) :
    Snug s' := by
  induction fuel generalizing s clusterNum start index length with
  | zero => cases done
  | succ fuel ih =>
    obtain ⟨positive, size⟩ := snug_clusterSize snug
    have same := file_clusterSize s cluster s.buffer clusterNum .sdReadblock
    obtain ⟨after, counts⟩ := file_snug snug cluster clusterNum .sdReadblock
    unfold writeLoop at done
    by_cases more : length > 0
    · rw [if_pos more] at done
      generalize fatTransferfile s cluster s.buffer clusterNum .sdReadblock = moved at *
      obtain ⟨r, buffer, t⟩ := moved
      dsimp only at *
      by_cases none : r ≤ 0
      · rw [if_pos none] at done
        cases done
        exact after
      · have whole := counts.resolve_left none
        subst whole
        rw [if_neg none, Int.toNat_natCast] at done
        generalize part : (if s.clusterSize < length then s.clusterSize else length) = least at done
        have short : least ≤ s.clusterSize := by
          rw [← part]
          split_ifs <;> omega
        have patched := @snug_put _ after start least (fun i => data (index + i)) (by omega)
        -- the cluster goes back from the buffer it was changed in
        obtain ⟨written, -⟩ := file_snug patched cluster clusterNum .sdWriteblock
        refine ih written ?_ done
        refine positive.trans_eq (same.symm.trans (Eq.symm ?_))
        exact file_clusterSize _ _ _ _ _
    · rw [if_neg more] at done
      cases done
      exact snug

/-- No call of the module goes over the end of the buffer. -/
theorem issue_snug {s : Volume} (snug : Snug s) (c : Call) : Snug (issue s c) := by
  obtain ⟨positive, -⟩ := snug_clusterSize snug
  cases c with
  | list =>
    unfold issue fatListdirectory
    dsimp only
    split_ifs
    · exact ⟨snug.some, snug.few, snug.sector, snug.room, snug.overrun⟩
    · cases listDirectory _ 64 0 with
      | none => exact snug
      | some b => exact ⟨snug.some, snug.few, snug.sector, snug.room, snug.overrun⟩
  | find fn =>
    unfold issue fatGetcluster
    dsimp only
    split_ifs <;> exact ⟨snug.some, snug.few, snug.sector, snug.room, snug.overrun⟩
  | read cluster data seek length =>
    obtain ⟨index, data', loop⟩ := read_loops s cluster data seek length
    rw [snug_bytes snug] at loop
    exact readLoop_snug _ _ snug (Nat.mod_lt _ positive) loop
  | write cluster data seek length =>
    obtain ⟨index, loop⟩ := write_loops s cluster data seek length
    rw [snug_bytes snug] at loop
    exact writeLoop_snug _ _ _ snug (Nat.mod_lt _ positive) loop

theorem run_snug (calls : List Call) {s : Volume} (snug : Snug s) : Snug (run issue s calls) :=
  @run_invariant _ _ issue Snug (fun _ c here => issue_snug here c) calls s snug

end Fat
