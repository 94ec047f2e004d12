import MaldOS.Hal.FatWrite
import MaldOS.Library.Runs

/-!
The calls of `sd_transferblock` that the file functions issue, clause by clause
as these functions make them, and the sizes of the buffers they go to.
-/
namespace Fat
open Arch ByteMemory Slices Sd Runs

/-- The bytes that a call moves, and those that its buffer has. -/
structure Transfer where
  moved : Nat
  room : Nat

def transferOf (c : Card) (buffer : Buffer Byte) (num : Nat) : Transfer :=
  ⟨(outcome c (if u32 num < 1 then 1 else u32 num)).1 * 512, buffer.size⟩

def entryTransfers (s : Volume) (index : Nat) : List Transfer :=
  let entrySectorOffset := u32 (index * 4) / s.bytesPerSector
  let cachedBlocks := cachedfatsize * 4 / s.bytesPerSector
  if entrySectorOffset < s.lastEntrySectorOffset ∨
      entrySectorOffset ≥ s.lastEntrySectorOffset + cachedBlocks then
    [transferOf s.card s.cachedFAT cachedBlocks]
  else []

def fileTransfers (data : Buffer Byte) : Nat → Volume → Nat → List Transfer
  | left, s, cluster =>
    if 1 < cluster ∧ cluster < 0xFFF8 then
      match left with
      | 0 => [transferOf s.card data s.spc]
      | left + 1 =>
        entryTransfers s cluster ++
          fileTransfers data left (fatGetTableEntry s cluster).2 (fatGetTableEntry s cluster).1
    else []

def readTransfers (cluster : Nat) : Nat → Volume → Nat → Nat → Nat → List Transfer
  | 0, _, _, _, _ => []
  | fuel + 1, s, clusterNum, start, length =>
    if length > 0 then
      let (size, buffer, s') := fatTransferfile s cluster s.buffer clusterNum .sdReadblock
      fileTransfers s.buffer clusterNum s cluster ++
        if size ≤ 0 then []
        else
          let rest := u32 (size.toNat + 2 ^ 32 - start)
          let effectiveLen := if rest < length then rest else length
          readTransfers cluster fuel { s' with buffer := buffer.touch start effectiveLen }
            (u32 (clusterNum + 1)) 0 (length - effectiveLen)
    else []

def writeTransfers (cluster : Nat) (data : Nat → Byte) :
    Nat → Volume → Nat → Nat → Nat → Nat → List Transfer
  | 0, _, _, _, _, _ => []
  | fuel + 1, s, clusterNum, start, index, length =>
    if length > 0 then
      let (size, buffer, s') := fatTransferfile s cluster s.buffer clusterNum .sdReadblock
      fileTransfers s.buffer clusterNum s cluster ++
        if size ≤ 0 then []
        else
          let effectiveLen := if size.toNat < length then size.toNat else length
          let t := { s' with buffer := buffer.put start (fun i => data (index + i)) effectiveLen }
          let (_, buffer, s'') := fatTransferfile t cluster t.buffer clusterNum .sdWriteblock
          fileTransfers t.buffer clusterNum t cluster ++
            writeTransfers cluster data fuel { s'' with buffer := buffer } (u32 (clusterNum + 1)) 0
              (u32 (index + effectiveLen)) (length - effectiveLen)
    else []

/-! None is left out: the card counts the calls, too. -/

theorem transfer_issued (c : Card) (lba : Nat) (buffer : Buffer Byte) (num : Nat) (rw : ReadWrite) :
    (sdTransferblock c lba buffer num rw).2.2.issued = c.issued + 1 := by
  cases rw <;> rfl

theorem entry_issued (s : Volume) (index : Nat) :
    (fatGetTableEntry s index).2.card.issued = s.card.issued + (entryTransfers s index).length := by
  unfold fatGetTableEntry entryTransfers
  dsimp only
  split_ifs
  · rw [transfer_issued]
    rfl
  · rfl

theorem file_issued (data : Buffer Byte) (rw : ReadWrite) (left : Nat) (s : Volume) (cluster : Nat) :
    (transferLoop s data rw left cluster).2.2.card.issued =
      s.card.issued + (fileTransfers data left s cluster).length := by
  induction left generalizing s cluster with
  | zero =>
    unfold transferLoop fileTransfers
    dsimp only
    split_ifs
    · rw [transfer_issued]
      rfl
    · rw [transfer_issued]
      rfl
    · rfl
  | succ left ih =>
    unfold transferLoop fileTransfers
    dsimp only
    split_ifs
    · rw [ih, entry_issued, List.length_append, Nat.add_assoc]
    · rfl

theorem counted (s : Volume) (cluster : Nat) (data : Buffer Byte) (num : Nat) (rw : ReadWrite) :
    (fatTransferfile s cluster data num rw).2.2.card.issued =
      s.card.issued + (fileTransfers data num s cluster).length := file_issued data rw num s cluster

theorem read_issued (cluster fuel : Nat) {s s' : Volume} {data data' : Nat → Byte}
    {clusterNum start index length n : Nat}
    (done : readLoop cluster fuel s data clusterNum start index length = some (n, data', s')) :
    s'.card.issued = s.card.issued + (readTransfers cluster fuel s clusterNum start length).length := by
  induction fuel generalizing s data clusterNum start index length with
  | zero => cases done
  | succ fuel ih =>
    unfold readLoop at done
    unfold readTransfers
    dsimp only at done ⊢
    by_cases more : length > 0
    · rw [if_pos more] at done ⊢
      by_cases none : (fatTransferfile s cluster s.buffer clusterNum .sdReadblock).1 ≤ 0
      · rw [if_pos none] at done ⊢
        cases done
        rw [List.append_nil]
        exact counted _ _ _ _ _
      · rw [if_neg none] at done ⊢
        rw [ih done, List.length_append]
        dsimp only
        rw [counted]
        omega
    · rw [if_neg more] at done ⊢
      cases done
      rfl

theorem write_issued (cluster : Nat) (data : Nat → Byte) (fuel : Nat) {s s' : Volume}
    {clusterNum start index length n : Nat}
    (done : writeLoop cluster data fuel s clusterNum start index length = some (n, s')) :
    s'.card.issued =
      s.card.issued + (writeTransfers cluster data fuel s clusterNum start index length).length := by
  induction fuel generalizing s clusterNum start index length with
  | zero => cases done
  | succ fuel ih =>
    unfold writeLoop at done
    unfold writeTransfers
    dsimp only at done ⊢
    by_cases more : length > 0
    · rw [if_pos more] at done ⊢
      by_cases none : (fatTransferfile s cluster s.buffer clusterNum .sdReadblock).1 ≤ 0
      · rw [if_pos none] at done ⊢
        cases done
        rw [List.append_nil]
        exact counted _ _ _ _ _
      · rw [if_neg none] at done ⊢
        rw [ih done, List.length_append, List.length_append]
        dsimp only
        rw [counted, counted]
        omega
    · rw [if_neg more] at done ⊢
      cases done
      rfl

inductive Call where
  | list
  | find (fn : List Byte)
  | read (cluster : Nat) (data : Nat → Byte) (seek length : Nat)
  | write (cluster : Nat) (data : Nat → Byte) (seek length : Nat)

def Call.transfers (s : Volume) : Call → List Transfer
  | .list => [transferOf s.card s.rootDir (s.nr * 32 / s.bytesPerSector + 1)]
  | .find _ => [transferOf s.card s.rootDir (s.nr * 32 / s.bytesPerSector + 1)]
  | .read cluster _ seek length =>
    let size := u32 (s.bytesPerSector * s.spc)
    readTransfers cluster (length + 2) s (seek / size) (seek % size) length
  | .write cluster data seek length =>
    let size := u32 (s.bytesPerSector * s.spc)
    writeTransfers cluster data (length + 1) s (seek / size) (seek % size) 0 length

/-- The scan of a directory, if there is one, ends inside `root_dir`. -/
def Call.Inside (s : Volume) : Call → Prop
  | .list => (fatListdirectory s).isSome
  | .find fn => (fatGetcluster s fn).1.isSome
  | _ => True

def issue (s : Volume) : Call → Volume
  | .list => (fatListdirectory s).getD s
  | .find fn => (fatGetcluster s fn).2
  | .read cluster data seek length =>
    ((fatReadfile s cluster data seek length).get (fatReadfile_some s cluster data seek length)).2.2
  | .write cluster data seek length =>
    ((fatWritefile s cluster data seek length).get (fatWritefile_some s cluster data seek length)).2

/-! A read and a write end as their loops do. -/

theorem read_loops (s : Volume) (cluster : Nat) (data : Nat → Byte) (seek length : Nat) :
    ∃ index data', readLoop cluster (length + 2) s data (seek / u32 (s.bytesPerSector * s.spc))
      (seek % u32 (s.bytesPerSector * s.spc)) 0 length =
        some (index, data', issue s (.read cluster data seek length)) := by
  have done := Option.some_get (fatReadfile_some s cluster data seek length)
  obtain ⟨⟨index, data', s'⟩, loop, same⟩ := Option.map_eq_some_iff.mp done.symm
  refine ⟨index, data', ?_⟩
  unfold issue
  dsimp only
  rw [← same]
  exact loop

theorem write_loops (s : Volume) (cluster : Nat) (data : Nat → Byte) (seek length : Nat) :
    ∃ index, writeLoop cluster data (length + 1) s (seek / u32 (s.bytesPerSector * s.spc))
      (seek % u32 (s.bytesPerSector * s.spc)) 0 length =
        some (index, issue s (.write cluster data seek length)) := by
  have done := Option.some_get (fatWritefile_some s cluster data seek length)
  obtain ⟨⟨index, s'⟩, loop, same⟩ := Option.map_eq_some_iff.mp done.symm
  refine ⟨index, ?_⟩
  unfold issue
  dsimp only
  rw [← same]
  exact loop

theorem list_issued {s : Volume} (inside : Call.list.Inside s) :
    (issue s .list).card.issued = s.card.issued + (Call.list.transfers s).length := by
  obtain ⟨s', listed⟩ := Option.isSome_iff_exists.mp inside
  have once : s'.card.issued = s.card.issued + 1 := by
    unfold fatListdirectory at listed
    dsimp only at listed
    split_ifs at listed
    · cases listed
      dsimp only
      rw [transfer_issued]
    · obtain ⟨b, _, same⟩ := Option.map_eq_some_iff.mp listed
      rw [← same]
      dsimp only
      rw [transfer_issued]
  unfold issue Call.transfers
  dsimp only
  rw [listed]
  exact once

theorem find_issued (s : Volume) (fn : List Byte) :
    (issue s (.find fn)).card.issued = s.card.issued + (Call.transfers s (.find fn)).length := by
  have once : (fatGetcluster s fn).2.card.issued = s.card.issued + 1 := by
    unfold fatGetcluster
    dsimp only
    split_ifs <;> exact transfer_issued s.card 0 s.rootDir 0 .sdReadblock
  exact once

theorem readfile_issued (s : Volume) (cluster : Nat) (data : Nat → Byte) (seek length : Nat) :
    (issue s (.read cluster data seek length)).card.issued =
      s.card.issued + (Call.transfers s (.read cluster data seek length)).length := by
  obtain ⟨index, data', loop⟩ := read_loops s cluster data seek length
  exact read_issued _ _ loop

theorem writefile_issued (s : Volume) (cluster : Nat) (data : Nat → Byte) (seek length : Nat) :
    (issue s (.write cluster data seek length)).card.issued =
      s.card.issued + (Call.transfers s (.write cluster data seek length)).length := by
  obtain ⟨index, loop⟩ := write_loops s cluster data seek length
  exact write_issued _ _ _ loop

/-- Every transfer fits its buffer, every call of the card is one of these transfers, and every scan
    stays inside the directory. -/
structure Call.Fits (s : Volume) (c : Call) : Prop where
  transfers : ∀ t ∈ c.transfers s, t.moved ≤ t.room
  all : (issue s c).card.issued = s.card.issued + (c.transfers s).length
  inside : c.Inside s

/-! What no file function changes. -/

structure SameShape (s s' : Volume) : Prop where
  bpb : s'.biosPartitionBlock = s.biosPartitionBlock
  sector : s'.bytesPerSector = s.bytesPerSector
  rootDir : s'.rootDir = s.rootDir
  cachedFAT : s'.cachedFAT.size = s.cachedFAT.size
  buffer : s'.buffer.size = s.buffer.size

theorem shape_refl (s : Volume) : SameShape s s := ⟨rfl, rfl, rfl, rfl, rfl⟩

theorem shape_trans {s s' s'' : Volume} (first : SameShape s s') (second : SameShape s' s'') :
    SameShape s s'' :=
  ⟨second.bpb.trans first.bpb, second.sector.trans first.sector, second.rootDir.trans first.rootDir,
    second.cachedFAT.trans first.cachedFAT, second.buffer.trans first.buffer⟩

theorem transfer_size (c : Card) (lba : Nat) (buffer : Buffer Byte) (num : Nat) (rw : ReadWrite) :
    (sdTransferblock c lba buffer num rw).2.1.size = buffer.size := by
  cases rw <;> rfl

theorem lookup_shape (s : Volume) (index : Nat) : SameShape s (fatGetTableEntry s index).2 := by
  unfold fatGetTableEntry
  dsimp only
  split_ifs
  · refine ⟨rfl, rfl, rfl, ?_, rfl⟩
    dsimp only
    rw [transfer_size]
  · exact ⟨rfl, rfl, rfl, rfl, rfl⟩

theorem loop_shape (data : Buffer Byte) (rw : ReadWrite) (left : Nat) (s : Volume) (cluster : Nat) :
    SameShape s (transferLoop s data rw left cluster).2.2 ∧
      (transferLoop s data rw left cluster).2.1.size = data.size := by
  induction left generalizing s cluster with
  | zero =>
    unfold transferLoop
    dsimp only
    split_ifs
    · exact ⟨⟨rfl, rfl, rfl, rfl, rfl⟩, transfer_size _ _ _ _ _⟩
    · exact ⟨⟨rfl, rfl, rfl, rfl, rfl⟩, transfer_size _ _ _ _ _⟩
    · exact ⟨shape_refl s, rfl⟩
  | succ left ih =>
    unfold transferLoop
    dsimp only
    split_ifs
    · obtain ⟨rest, size⟩ := ih (fatGetTableEntry s cluster).2 (fatGetTableEntry s cluster).1
      exact ⟨shape_trans (lookup_shape s cluster) rest, size⟩
    · exact ⟨shape_refl s, rfl⟩

theorem transferfile_shape (s : Volume) (cluster num : Nat) (rw : ReadWrite) {buffer : Buffer Byte}
    (size : buffer.size = (fatTransferfile s cluster s.buffer num rw).2.1.size) :
    SameShape s { (fatTransferfile s cluster s.buffer num rw).2.2 with buffer := buffer } := by
  obtain ⟨shape, same⟩ := loop_shape s.buffer rw num s cluster
  exact ⟨shape.bpb, shape.sector, shape.rootDir, shape.cachedFAT, size.trans same⟩

theorem readLoop_shape (cluster fuel : Nat) {s s' : Volume} {data data' : Nat → Byte}
    {clusterNum start index length n : Nat}
    (done : readLoop cluster fuel s data clusterNum start index length = some (n, data', s')) :
    SameShape s s' := by
  induction fuel generalizing s data clusterNum start index length with
  | zero => cases done
  | succ fuel ih =>
    unfold readLoop at done
    dsimp only at done
    by_cases more : length > 0
    · rw [if_pos more] at done
      by_cases none : (fatTransferfile s cluster s.buffer clusterNum .sdReadblock).1 ≤ 0
      · rw [if_pos none] at done
        cases done
        exact transferfile_shape s cluster clusterNum .sdReadblock rfl
      · rw [if_neg none] at done
        have rest := ih done
        apply shape_trans (transferfile_shape s cluster clusterNum .sdReadblock (touch_size _ _ _))
        exact rest
    · rw [if_neg more] at done
      cases done
      exact shape_refl _

theorem writeLoop_shape (cluster : Nat) (data : Nat → Byte) (fuel : Nat) {s s' : Volume}
    {clusterNum start index length n : Nat}
    (done : writeLoop cluster data fuel s clusterNum start index length = some (n, s')) :
    SameShape s s' := by
  induction fuel generalizing s clusterNum start index length with
  | zero => cases done
  | succ fuel ih =>
    unfold writeLoop at done
    dsimp only at done
    by_cases more : length > 0
    · rw [if_pos more] at done
      by_cases none : (fatTransferfile s cluster s.buffer clusterNum .sdReadblock).1 ≤ 0
      · rw [if_pos none] at done
        cases done
        exact transferfile_shape s cluster clusterNum .sdReadblock rfl
      · rw [if_neg none] at done
        have rest := ih done
        apply shape_trans (transferfile_shape s cluster clusterNum .sdReadblock (put_size _ _ _ _))
        exact shape_trans (transferfile_shape _ cluster clusterNum .sdWriteblock rfl) rest
    · rw [if_neg more] at done
      cases done
      exact shape_refl _

theorem readfile_shape (s : Volume) (cluster : Nat) (data : Nat → Byte) (seek length : Nat) :
    SameShape s (issue s (.read cluster data seek length)) := by
  obtain ⟨index, data', loop⟩ := read_loops s cluster data seek length
  exact readLoop_shape _ _ loop

theorem writefile_shape (s : Volume) (cluster : Nat) (data : Nat → Byte) (seek length : Nat) :
    SameShape s (issue s (.write cluster data seek length)) := by
  obtain ⟨index, loop⟩ := write_loops s cluster data seek length
  exact writeLoop_shape _ _ _ loop

/-- The clusters fit `buffer` and the directory leaves the last sector of `root_dir` alone, which
    is zero from the start. -/
structure Roomy (s : Volume) : Prop where
  cluster : s.spc ≤ 8
  entries : s.nr < 48
  sector : s.bytesPerSector = 512
  directory : s.rootDir.size = 512 * 4
  table : s.cachedFAT.size = cachedfatsize * 4
  buffer : s.buffer.size = 4096
  ended : ∀ j, 512 * 3 ≤ j → s.rootDir.get j = 0

theorem roomy_shape {s s' : Volume} (shape : SameShape s s') (roomy : Roomy s) : Roomy s' where
  cluster := by
    have few := roomy.cluster
    unfold Volume.spc at few ⊢
    rw [shape.bpb]
    exact few
  entries := by
    have few := roomy.entries
    unfold Volume.nr at few ⊢
    rw [shape.bpb]
    exact few
  sector := shape.sector.trans roomy.sector
  directory := by
    rw [shape.rootDir]
    exact roomy.directory
  table := shape.cachedFAT.trans roomy.table
  buffer := shape.buffer.trans roomy.buffer
  ended := by
    rw [shape.rootDir]
    exact roomy.ended

theorem moved_within (c : Card) {num limit : Nat} (one : 1 ≤ limit) (few : num ≤ limit) :
    (outcome c (if u32 num < 1 then 1 else u32 num)).1 ≤ limit := by
  have cut : u32 num ≤ num := Nat.mod_le _ _
  have asked : (if u32 num < 1 then 1 else u32 num) ≤ limit := by
    split_ifs <;> omega
  unfold outcome
  split
  · exact asked
  · exact (min_le_right _ _).trans asked

theorem transfer_fits (c : Card) {buffer : Buffer Byte} {num limit : Nat} (one : 1 ≤ limit)
    (few : num ≤ limit) (room : limit * 512 ≤ buffer.size) :
    (transferOf c buffer num).moved ≤ (transferOf c buffer num).room :=
  (Nat.mul_le_mul_right 512 (moved_within c one few)).trans room

theorem transfer_beyond (c : Card) (lba : Nat) (buffer : Buffer Byte) (rw : ReadWrite)
    {num limit j : Nat} (one : 1 ≤ limit) (few : num ≤ limit) (beyond : limit * 512 ≤ j) :
    (sdTransferblock c lba buffer num rw).2.1.get j = buffer.get j := by
  have short := Nat.mul_le_mul_right 512 (moved_within c one few)
  cases rw with
  | sdReadblock =>
    have outside : 0 + (outcome c (if u32 num < 1 then 1 else u32 num)).1 * 512 ≤ j := by
      rw [Nat.zero_add]
      exact short.trans beyond
    unfold sdTransferblock
    dsimp only
    rw [put_get, blit_outside (Or.inr outside)]
  | sdWriteblock => rfl

theorem entry_fits {s : Volume} (roomy : Roomy s) (index : Nat) :
    ∀ t ∈ entryTransfers s index, t.moved ≤ t.room := by
  have size := roomy.table
  intro t member
  unfold entryTransfers at member
  dsimp only at member
  split_ifs at member
  · rw [List.mem_singleton.mp member, roomy.sector]
    exact transfer_fits s.card le_rfl (by decide) size.ge
  · cases member

theorem file_fits (data : Buffer Byte) (size : data.size = 4096) (left : Nat) {s : Volume}
    (roomy : Roomy s) (cluster : Nat) : ∀ t ∈ fileTransfers data left s cluster, t.moved ≤ t.room := by
  induction left generalizing s cluster with
  | zero =>
    intro t member
    unfold fileTransfers at member
    split_ifs at member
    · rw [List.mem_singleton.mp member]
      exact transfer_fits s.card (by decide) roomy.cluster size.ge
    · cases member
  | succ left ih =>
    intro t member
    unfold fileTransfers at member
    split_ifs at member
    · obtain first | rest := List.mem_append.mp member
      · exact entry_fits roomy cluster t first
      · exact ih (roomy_shape (lookup_shape s cluster) roomy) _ t rest
    · cases member

theorem read_fits (cluster fuel : Nat) {s : Volume} (roomy : Roomy s) (clusterNum start length : Nat) :
    ∀ t ∈ readTransfers cluster fuel s clusterNum start length, t.moved ≤ t.room := by
  induction fuel generalizing s clusterNum start length with
  | zero =>
    intro t member
    cases member
  | succ fuel ih =>
    intro t member
    unfold readTransfers at member
    dsimp only at member
    by_cases more : length > 0
    · rw [if_pos more] at member
      obtain first | rest := List.mem_append.mp member
      · exact file_fits _ roomy.buffer clusterNum roomy cluster t first
      · by_cases none : (fatTransferfile s cluster s.buffer clusterNum .sdReadblock).1 ≤ 0
        · rw [if_pos none] at rest
          cases rest
        · rw [if_neg none] at rest
          apply ih _ _ _ _ t rest
          exact roomy_shape (transferfile_shape s cluster clusterNum .sdReadblock (touch_size _ _ _)) roomy
    · rw [if_neg more] at member
      cases member

theorem write_fits (cluster : Nat) (data : Nat → Byte) (fuel : Nat) {s : Volume} (roomy : Roomy s)
    (clusterNum start index length : Nat) :
    ∀ t ∈ writeTransfers cluster data fuel s clusterNum start index length, t.moved ≤ t.room := by
  induction fuel generalizing s clusterNum start index length with
  | zero =>
    intro t member
    cases member
  | succ fuel ih =>
    intro t member
    unfold writeTransfers at member
    dsimp only at member
    by_cases more : length > 0
    · rw [if_pos more] at member
      obtain first | rest := List.mem_append.mp member
      · exact file_fits _ roomy.buffer clusterNum roomy cluster t first
      · by_cases none : (fatTransferfile s cluster s.buffer clusterNum .sdReadblock).1 ≤ 0
        · rw [if_pos none] at rest
          cases rest
        · rw [if_neg none] at rest
          have filled := fun src n => roomy_shape (transferfile_shape s cluster clusterNum .sdReadblock
            (put_size (fatTransferfile s cluster s.buffer clusterNum .sdReadblock).2.1 start src n)) roomy
          obtain second | later := List.mem_append.mp rest
          · exact file_fits _ (filled _ _).buffer clusterNum (filled _ _) cluster t second
          · apply ih _ _ _ _ _ t later
            exact roomy_shape (transferfile_shape _ cluster clusterNum .sdWriteblock rfl) (filled _ _)
    · rw [if_neg more] at member
      cases member

/-! A scan ends at the first entry without a name. -/

theorem scan_ends {b : Nat → Byte} (fn : List Byte) {e : Nat} (zero : b (e * 32) = 0) (left : Nat)
    {dir : Nat} (before : dir ≤ e) (inside : e < dir + left) :
    (scanDirectory b fn left dir).isSome := by
  induction left generalizing dir with
  | zero => omega
  | succ left ih =>
    unfold scanDirectory
    by_cases here : dir = e
    · rw [here, if_pos zero]
      rfl
    · have rest : (scanDirectory b fn left (dir + 1)).isSome := ih (by omega) (by omega)
      split_ifs
      · rfl
      · exact rest
      · rfl
      · exact rest

theorem list_ends {b : Nat → Byte} {e : Nat} (zero : b (e * 32) = 0) (left : Nat) {dir : Nat}
    (before : dir ≤ e) (inside : e < dir + left) :
    ∃ b', listDirectory b left dir = some b' ∧ ∀ j, e * 32 ≤ j → b' j = b j := by
  induction left generalizing b dir with
  | zero => omega
  | succ left ih =>
    unfold listDirectory
    by_cases here : dir = e
    · rw [here, if_pos zero]
      exact ⟨b, rfl, fun _ _ => rfl⟩
    · have apart : ∀ j, e * 32 ≤ j → Function.update b (dir * 32 + 11) 0 j = b j := by
        intro j beyond
        exact Function.update_of_ne (by omega) _ _
      split_ifs
      · exact ⟨b, rfl, fun _ _ => rfl⟩
      · exact ih zero (by omega) (by omega)
      · have rest : ∃ b', listDirectory (Function.update b (dir * 32 + 11) 0) left (dir + 1) = some b' ∧
            ∀ j, e * 32 ≤ j → b' j = Function.update b (dir * 32 + 11) 0 j :=
          ih ((apart _ le_rfl).trans zero) (by omega) (by omega)
        obtain ⟨b', listed, same⟩ := rest
        exact ⟨b', listed, fun j beyond => (same j beyond).trans (apart j beyond)⟩

theorem list_leaves {b : Nat → Byte} (left : Nat) {dir : Nat}
    (deleted : ∀ e < dir + left, b (e * 32) = 0xE5) : listDirectory b left dir = none := by
  induction left generalizing dir with
  | zero => rfl
  | succ left ih =>
    have here := deleted dir (by omega)
    unfold listDirectory
    rw [if_neg (by rw [here]; decide), if_pos (Or.inl here)]
    exact ih (fun e inside => deleted e (by omega))

/-! The directory calls. -/

def loaded (s : Volume) : Volume :=
  let (_, dir, card) := sdTransferblock s.card s.rootDirectorySector s.rootDir
    (s.nr * 32 / s.bytesPerSector + 1) .sdReadblock
  { s with card := card, rootDir := dir }

theorem roomy_directory {s : Volume} (roomy : Roomy s) (card : Card) {dir : Buffer Byte}
    (size : dir.size = s.rootDir.size) (ended : ∀ j, 512 * 3 ≤ j → dir.get j = 0) :
    Roomy { s with card := card, rootDir := dir } :=
  ⟨roomy.cluster, roomy.entries, roomy.sector, size.trans roomy.directory, roomy.table,
    roomy.buffer, ended⟩

theorem directory_sectors {s : Volume} (roomy : Roomy s) : s.nr * 32 / s.bytesPerSector + 1 ≤ 3 := by
  have few := roomy.entries
  rw [roomy.sector]
  omega

theorem roomy_loaded {s : Volume} (roomy : Roomy s) : Roomy (loaded s) := by
  unfold loaded
  dsimp only
  apply roomy_directory roomy
  · rw [transfer_size]
  intro j beyond
  rw [transfer_beyond _ _ _ _ (by decide) (directory_sectors roomy) (by omega)]
  exact roomy.ended j beyond

theorem scan_inside {s : Volume} (roomy : Roomy s) (fn : List Byte) :
    (fatGetcluster s fn).1.isSome := by
  have inside := scan_ends fn ((roomy_loaded roomy).ended (48 * 32) le_rfl) 64
    (Nat.zero_le 48) (by decide)
  unfold fatGetcluster
  dsimp only
  split_ifs
  · rfl
  · exact inside

theorem list_inside {s : Volume} (roomy : Roomy s) :
    ∃ s', fatListdirectory s = some s' ∧ Roomy s' := by
  have read := roomy_loaded roomy
  obtain ⟨b, listed, same⟩ := list_ends (read.ended (48 * 32) le_rfl) 64 (Nat.zero_le 48) (by decide)
  by_cases failed : (sdTransferblock s.card s.rootDirectorySector s.rootDir
      (s.nr * 32 / s.bytesPerSector + 1) .sdReadblock).1 = 0
  · have run : fatListdirectory s = some (loaded s) := by
      unfold fatListdirectory
      dsimp only
      rw [if_pos failed]
      rfl
    exact ⟨_, run, read⟩
  · have run : fatListdirectory s =
        some { loaded s with rootDir := { (loaded s).rootDir with get := b } } := by
      unfold fatListdirectory
      dsimp only
      rw [if_neg failed]
      exact congrArg (Option.map _) listed
    refine ⟨_, run, roomy_directory read (loaded s).card rfl ?_⟩
    intro j beyond
    exact (same j beyond).trans (read.ended j beyond)

theorem issue_roomy {s : Volume} (roomy : Roomy s) (c : Call) : Roomy (issue s c) := by
  cases c with
  | list =>
    obtain ⟨s', run, roomy'⟩ := list_inside roomy
    unfold issue
    dsimp only
    rw [run]
    exact roomy'
  | find fn =>
    have same : issue s (.find fn) = loaded s := by
      unfold issue fatGetcluster
      dsimp only
      split_ifs <;> rfl
    rw [same]
    exact roomy_loaded roomy
  | read cluster data seek length => exact roomy_shape (readfile_shape _ _ _ _ _) roomy
  | write cluster data seek length => exact roomy_shape (writefile_shape _ _ _ _ _) roomy

theorem directory_fits {s : Volume} (roomy : Roomy s) :
    ∀ t ∈ [transferOf s.card s.rootDir (s.nr * 32 / s.bytesPerSector + 1)], t.moved ≤ t.room := by
  have size := roomy.directory
  intro t member
  rw [List.mem_singleton.mp member]
  exact transfer_fits s.card (by decide) (directory_sectors roomy) (by omega)

theorem call_fits {s : Volume} (roomy : Roomy s) (c : Call) : c.Fits s := by
  cases c with
  | list =>
    obtain ⟨s', run, _⟩ := list_inside roomy
    have inside : Call.list.Inside s := by
      unfold Call.Inside
      dsimp only
      rw [run]
      rfl
    exact ⟨directory_fits roomy, list_issued inside, inside⟩
  | find fn => exact ⟨directory_fits roomy, find_issued s fn, scan_inside roomy fn⟩
  | read cluster data seek length =>
    exact ⟨read_fits _ _ roomy _ _ _, readfile_issued s cluster data seek length, trivial⟩
  | write cluster data seek length =>
    exact ⟨write_fits _ _ _ roomy _ _ _ _, writefile_issued s cluster data seek length, trivial⟩

theorem roomy_fits (calls : List Call) {s : Volume} (roomy : Roomy s) :
    Along issue (fun s c => c.Fits s) s calls := by
  induction calls generalizing s with
  | nil => trivial
  | cons c calls ih => exact ⟨call_fits roomy c, ih (issue_roomy roomy c)⟩

theorem mount_sizes {card : Card} {stack : Nat → Byte}
    (accepted : (fatGetpartition (staticVolume card stack)).1 = 1) :
    (fatGetpartition (staticVolume card stack)).2.bytesPerSector = 512 ∧
      (fatGetpartition (staticVolume card stack)).2.rootDir = static (512 * 4) ∧
      (fatGetpartition (staticVolume card stack)).2.cachedFAT.size = cachedfatsize * 4 ∧
      (fatGetpartition (staticVolume card stack)).2.buffer.size = 4096 := by
  have booted : (readBootRecord (staticVolume card stack)).2.rootDir = static (512 * 4) ∧
      (readBootRecord (staticVolume card stack)).2.cachedFAT = static (cachedfatsize * 4) ∧
      (readBootRecord (staticVolume card stack)).2.buffer.size = 4096 := by
    unfold readBootRecord
    dsimp only
    split_ifs <;> exact ⟨rfl, rfl, rfl⟩
  obtain ⟨directory, table, buffer⟩ := booted
  unfold fatGetpartition at accepted ⊢
  dsimp only at accepted ⊢
  split_ifs at accepted ⊢ with refused wrong
  · cases accepted
  · cases accepted
  · refine ⟨not_not.mp wrong, directory, ?_, buffer⟩
    dsimp only
    rw [transfer_size, table]
    rfl

theorem mount_roomy {card : Card} {stack : Nat → Byte} (content : Card)
    (accepted : (fatGetpartition (staticVolume card stack)).1 = 1)
    (clusters : (fatGetpartition (staticVolume card stack)).2.spc ≤ 8)
    (entries : (fatGetpartition (staticVolume card stack)).2.nr < 48) :
    Roomy { (fatGetpartition (staticVolume card stack)).2 with card := content } := by
  obtain ⟨sector, directory, table, buffer⟩ := mount_sizes accepted
  refine ⟨clusters, entries, sector, ?_, table, buffer, ?_⟩
  · dsimp only
    rw [directory]
    rfl
  · intro j _
    dsimp only
    rw [directory]
    rfl

/-! Larger clusters and directories are not looked at either. -/

theorem transferOf_sound {c : Card} (sound : Sound c) (buffer : Buffer Byte) {num : Nat}
    (some : 0 < num) (small : num < 2 ^ 32) : transferOf c buffer num = ⟨num * 512, buffer.size⟩ := by
  have one : ¬ num < 1 := by omega
  unfold transferOf
  rw [u32_of_lt small, if_neg one, sound_outcome sound]

theorem cluster_overruns {s : Volume} (sound : Sound s.card) (size : s.buffer.size = 4096)
    (large : 8 < s.spc) {cluster : Nat} (inside : 1 < cluster ∧ cluster < 0xFFF8) (data : Nat → Byte)
    (length : Nat) : ¬ (Call.read cluster data 0 (length + 1)).Fits s := by
  intro fits
  have byte := spc_lt s
  have member : transferOf s.card s.buffer s.spc ∈
      (Call.read cluster data 0 (length + 1)).transfers s := by
    unfold Call.transfers readTransfers
    dsimp only
    rw [if_pos (Nat.succ_pos length), Nat.zero_div]
    apply List.mem_append_left
    unfold fileTransfers
    rw [if_pos inside]
    exact List.mem_singleton_self _
  have few := fits.transfers _ member
  rw [transferOf_sound sound _ (by omega) (by omega)] at few
  dsimp only at few
  omega

theorem directory_left {s : Volume} (sound : Sound s.card) (sector : s.bytesPerSector = 512)
    (entries : 48 ≤ s.nr) (deleted : ∀ a, s.card.bytes a = 0xE5) : ¬ Call.list.Fits s := by
  intro fits
  have word : s.nr < 2 ^ 16 := word_lt 2 _ _
  have inside := fits.inside
  unfold Call.Inside fatListdirectory at inside
  dsimp only at inside
  rw [sector, read_sound sound _ _ (Nat.succ_pos _) (by omega)] at inside
  dsimp only at inside
  rw [if_neg (by omega), put_get, list_leaves 64] at inside
  · cases inside
  · intro e within
    rw [blit_front _ _ (by omega)]
    exact deleted _

/-- Whatever the card holds, every run of calls on an accepted volume keeps to its buffers and to
    the directory, or else its clusters are too large or its directory is. -/
theorem transfers_fit_iff {card : Card} {stack : Nat → Byte}
    (accepted : (fatGetpartition (staticVolume card stack)).1 = 1) :
    (∀ (content : Card) (calls : List Call), Along issue (fun s c => c.Fits s)
        { (fatGetpartition (staticVolume card stack)).2 with card := content } calls) ↔
      (fatGetpartition (staticVolume card stack)).2.spc ≤ 8 ∧
        (fatGetpartition (staticVolume card stack)).2.nr < 48 := by
  obtain ⟨sector, _, _, buffer⟩ := mount_sizes accepted
  constructor
  · intro fit
    constructor
    · by_contra large
      obtain ⟨fits, _⟩ := fit ⟨fun _ => 0, fun _ => none, 0⟩ [.read 2 (fun _ => 0) 0 1]
      refine cluster_overruns ?_ ?_ ?_ ?_ _ 0 fits
      · exact fun _ _ => rfl
      · exact buffer
      · exact Nat.lt_of_not_le large
      · decide
    · by_contra large
      obtain ⟨fits, _⟩ := fit ⟨fun _ => 0xE5, fun _ => none, 0⟩ [.list]
      refine directory_left ?_ ?_ ?_ ?_ fits
      · exact fun _ _ => rfl
      · exact sector
      · exact Nat.le_of_not_lt large
      · exact fun _ => rfl
  · rintro ⟨clusters, entries⟩ content calls
    exact roomy_fits calls (mount_roomy content accepted clusters entries)

theorem transfers_fit_sample :
    (∀ (content : Card) (calls : List Call), Along issue (fun s c => c.Fits s)
        { sampleVolume with card := content } calls) ↔
      sampleVolume.spc ≤ 8 ∧ sampleVolume.nr < 48 := by
  have accepted : (fatGetpartition (staticVolume sampleCard fun _ => 0)).1 = 1 := by decide
  exact transfers_fit_iff accepted

def diskName : List Byte := [0x44, 0x49, 0x53, 0x4B, 0x30, 0x20, 0x20, 0x20, 0x20, 0x20, 0x20]

/-- A card of 32 KiB clusters, as a large one is formatted, with the file `DISK0` in cluster 3. -/
def largeBytes : List (Nat × Byte) :=
  [(0x1C2, 0x0C), (0x1C6, 1), (510, 0x55), (511, 0xAA),
   (512 + 12, 2), (512 + 13, 64), (512 + 14, 1), (512 + 16, 1), (512 + 36, 1),
   (512 + 82, 0x46), (512 + 83, 0x41), (512 + 84, 0x54),
   (1024 + 4 * 3, 0xFF), (1024 + 4 * 3 + 1, 0xFF), (1024 + 4 * 3 + 2, 0xFF), (1024 + 4 * 3 + 3, 0x0F),
   (1536 + 26, 3)] ++ (diskName.zipIdx 1536).map Prod.swap

def largeCard : Card where
  bytes := fun i => (largeBytes.lookup i).getD 0
  fault := fun _ => none
  issued := 0

def largeVolume : Volume := (fatGetpartition (staticVolume largeCard fun _ => 0)).2

/-- The card is accepted and the file found; the header of the disk is then read with 32768 bytes
    into the 4096 of `buffer`. -/
theorem large_cluster_overruns :
    (fatGetpartition (staticVolume largeCard fun _ => 0)).1 = 1 ∧
      (fatGetcluster largeVolume diskName).1 = some 3 ∧
      ¬ Along issue (fun s c => c.Fits s) largeVolume [.read 3 (fun _ => 0) 0 16] := by
  have accepted : (fatGetpartition (staticVolume largeCard fun _ => 0)).1 = 1 := by decide +kernel
  obtain ⟨_, _, _, buffer⟩ := mount_sizes accepted
  have large : largeVolume.spc = 64 := by decide +kernel
  refine ⟨accepted, by decide +kernel, ?_⟩
  rintro ⟨fits, _⟩
  refine cluster_overruns ?_ buffer (large ▸ by decide) ?_ _ 15 fits
  · exact (mount_ready (fun _ _ => rfl) accepted).sound
  · decide

end Fat
