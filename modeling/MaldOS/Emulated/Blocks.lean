import MaldOS.Emulated.Answers
import MaldOS.Emulated.CardKept

/-!
What the completion of a block command says about the 4096 bytes it was to move
between a client's memory and the file of its device.
-/
namespace Emulated
open Arch ByteMemory Registers ArmTimers EmulatedTimers Runs Slices

def Reads (s : System) (dev : Dev) : Prop :=
  Busy s dev ∧
    match dev.1 with
    | .printer => False
    | .tape => (s.regs dev).command = readblk
    | .disk => getCommand (s.regs dev).command = readblk

def fileCluster (s : System) : Dev → Nat
  | (.printer, _) => 0
  | (.tape, i) => (s.tapes i).fat32Cluster
  | (.disk, i) => (s.disks i).fat32Cluster

/-- Where in the file the block of the command in flight starts. -/
def blockStart (s : System) : Dev → Nat
  | (.printer, _) => 0
  | (.tape, i) =>
    u32 ((s.tapes i).blockIndex * tapeBlocksize + ((s.tapes i).blockIndex + 1) * 4)
  | (.disk, i) => seekDiskBlock ((s.aimDisk i (s.regs (.disk, i)).command).disks i)

def blockBuffer (s : System) (dev : Dev) : BitVec 64 := (s.regs dev).data0.setWidth 64

/-- `cs` are the first clusters of the device's file, and the block lies in them. -/
def Holds (s : System) (dev : Dev) (clusters : Nat) (cs : List Nat) : Prop :=
  Fat.FilePath s.fat clusters cs ∧ cs.getD 0 0 = fileCluster s dev ∧
    blockStart s dev + diskBlocksize ≤ s.fat.clusterSize * cs.length

/-- Every byte of the block was read from the file; the report may have gone over some. -/
def ReadWhole (dev : Dev) (s s' : System) : Prop :=
  ∃ clusters cs, Holds s dev clusters cs ∧ ∀ i < diskBlocksize,
    regBytes ≤ (blockBuffer s dev + BitVec.ofNat 64 i - s.block dev).toNat →
      s'.ram (blockBuffer s dev + BitVec.ofNat 64 i) =
        Fat.fileByte s.fat cs (blockStart s dev + i)

def WroteWhole (dev : Dev) (s s' : System) : Prop :=
  ∃ clusters cs, Holds s dev clusters cs ∧ ∀ i < diskBlocksize,
    Fat.fileByte s'.fat cs (blockStart s dev + i) = s.ram (blockBuffer s dev + BitVec.ofNat 64 i)

def EndsEarly (dev : Dev) (s : System) : Prop :=
  ∃ clusters cs, Fat.FileChain s.fat clusters cs ∧ cs.getD 0 0 = fileCluster s dev ∧
    s.fat.clusterSize * cs.length < blockStart s dev + diskBlocksize

def SdFailed (s s' : System) : Prop :=
  ∃ n, s.fat.card.issued ≤ n ∧ n < s'.fat.card.issued ∧ s.fat.card.fault n ≠ none

/-- The status of a completed block command tells whether the whole block moved. -/
structure Reported (dev : Dev) (s s' : System) : Prop where
  read : Reads s dev → ((s'.regs dev).status = deviceReady → ReadWhole dev s s') ∧
    (EndsEarly dev s ∨ SdFailed s s' → (s'.regs dev).status = readError)
  write : Writes s dev → ((s'.regs dev).status = deviceReady → WroteWhole dev s s') ∧
    (EndsEarly dev s ∨ SdFailed s s' → (s'.regs dev).status = writeError)

/-- If the action completes a block command, this is a READBLK of a block that lies in clusters
    of the file that `fat_transferfile` comes to. -/
def Readable (clusters : Nat) (s : System) (a : Act) : Prop :=
  ∀ dev, Ends dev s a → ¬ Writes s dev ∧
    (Reads s dev → ∃ cs, Fat.FilePath s.fat clusters cs ∧ cs.getD 0 0 = fileCluster s dev ∧
      blockStart s dev + diskBlocksize ≤ s.fat.clusterSize * Fat.reach s.fat cs)

/-- A card without failures whose volume fits the buffer of `fat_readfile`. -/
structure Healthy (b : Boot) (clusters : Nat) : Prop where
  sound : Sd.Sound b.card
  mounted : (Fat.fatGetpartition (Fat.staticVolume b.card b.stack)).1 = 1
  well : Fat.WellFormed (Fat.fatGetpartition (Fat.staticVolume b.card b.stack)).2 clusters
  spc : (Fat.fatGetpartition (Fat.staticVolume b.card b.stack)).2.spc ≤ 8

theorem reads_delayed {s : System} {dev : Dev} (reads : Reads s dev) :
    Delayed dev.1 (s.regs dev).command := by
  obtain ⟨c, i⟩ := dev
  cases c with
  | printer => exact absurd reads.2 id
  | tape => exact Or.inr (Or.inr reads.2)
  | disk => exact Or.inr (Or.inl reads.2)

theorem readfile_whole {s : System} {clusters : Nat} {cs : List Nat} (ready : Fat.Ready s.fat)
    (well : Fat.WellFormed s.fat clusters) (path : Fat.FilePath s.fat clusters cs)
    (p : BitVec 64) {seek length : Nat} (room : length < 2 ^ 31)
    (within : seek + length ≤ s.fat.clusterSize * Fat.reach s.fat cs) :
    (s.readfile (cs.getD 0 0) p seek length).1 = length ∧
      ∀ i < length, (s.readfile (cs.getD 0 0) p seek length).2.ram (p + BitVec.ofNat 64 i) =
        Fat.fileByte s.fat cs (seek + i) := by
  obtain ⟨s', run, _⟩ := Fat.fatReadfile_path ready well path (window s.ram p) seek length
    (Or.inr within) (by omega)
  have count : min length (s.fat.clusterSize * Fat.reach s.fat cs - seek) = length := by omega
  rw [count] at run
  unfold System.readfile
  simp only [run, Option.get_some]
  constructor
  · exact i32_of_lt room
  · intro i inside
    have offset : (p + BitVec.ofNat 64 i - p).toNat = i := by
      rw [BitVec.add_comm, BitVec.add_sub_cancel, BitVec.toNat_ofNat, Nat.mod_eq_of_lt (by omega)]
    rw [unwindow, offset]
    exact blit_front _ _ inside

theorem found_cluster {s : System} {dev : Dev} {clusters : Nat} {cs : List Nat}
    (path : Fat.FilePath s.fat clusters cs) (first : cs.getD 0 0 = fileCluster s dev)
    (within : blockStart s dev + diskBlocksize ≤ s.fat.clusterSize * Fat.reach s.fat cs) :
    fileCluster s dev ≠ 0 := by
  rw [← first]
  cases cs with
  | nil =>
    have size : diskBlocksize = 4096 := rfl
    rw [Fat.reach] at within
    omega
  | cons c cs =>
    have data := (path.data c (by simp)).1
    intro zero
    rw [List.getD_cons_zero] at zero
    omega

theorem perform_reads {s : System} {dev : Dev} {clusters : Nat} {cs : List Nat}
    (reads : Reads s dev) (ready : Fat.Ready s.fat) (well : Fat.WellFormed s.fat clusters)
    (path : Fat.FilePath s.fat clusters cs) (first : cs.getD 0 0 = fileCluster s dev)
    (within : blockStart s dev + diskBlocksize ≤ s.fat.clusterSize * Fat.reach s.fat cs) :
    ∀ i < diskBlocksize, (perform s dev).2.ram (blockBuffer s dev + BitVec.ofNat 64 i) =
      Fat.fileByte s.fat cs (blockStart s dev + i) := by
  have found := found_cluster path first within
  obtain ⟨c, i⟩ := dev
  cases c with
  | printer => exact absurd reads.2 id
  | tape =>
    have isRead : (s.regs (.tape, i)).command = readblk := reads.2
    obtain ⟨count, bytes⟩ := readfile_whole ready well path (blockBuffer s (.tape, i))
      (by decide : tapeBlocksize < 2 ^ 31) within
    rw [first] at count bytes
    have read : readTapeBlock s i (blockBuffer s (.tape, i)) = s.readfile (fileCluster s (.tape, i))
        (blockBuffer s (.tape, i)) (blockStart s (.tape, i)) tapeBlocksize := if_neg found
    rw [← read] at count bytes
    have skip : readblk ≠ skipblk := by decide
    have back : readblk ≠ backblk := by decide
    have done : ¬ (readTapeBlock s i (blockBuffer s (.tape, i))).1 < 0 := by
      rw [count]
      decide
    unfold blockBuffer at done bytes
    simp only [perform, isRead, if_neg skip, if_neg back, if_neg done, blockBuffer]
    generalize readTapeBlock s i _ = r at bytes
    rw [(updateTapeHead_keeps (r.2.moveTape i (u32 ((r.2.tapes i).blockIndex + 1))) i).2]
    exact bytes
  | disk =>
    have isRead : getCommand (s.regs (.disk, i)).command = readblk := reads.2
    obtain ⟨command, sent⟩ : ∃ command, command = (s.regs (.disk, i)).command := ⟨_, rfl⟩
    have cluster : ((s.aimDisk i command).disks i).fat32Cluster = fileCluster s (.disk, i) := by
      simp [System.aimDisk, System.setDisk, fileCluster]
    have read : readDiskBlock (s.aimDisk i command) i (blockBuffer s (.disk, i)) =
        (s.aimDisk i command).readfile (fileCluster s (.disk, i)) (blockBuffer s (.disk, i))
          (blockStart s (.disk, i)) diskBlocksize := by
      unfold readDiskBlock
      dsimp only
      rw [cluster, if_neg found, blockStart, ← sent]
    obtain ⟨-, bytes⟩ := @readfile_whole (s.aimDisk i command) _ _ ready well path
      (blockBuffer s (.disk, i)) _ _ (by decide : diskBlocksize < 2 ^ 31) within
    rw [first, ← read] at bytes
    have seek : readblk ≠ seekcyl := by decide
    rw [← sent] at isRead
    simp only [perform, ← sent, isRead, if_neg seek, ↓reduceIte]
    exact bytes

theorem readDiskBlock_count (s : System) (i : Fin maxDevices) (buffer : BitVec 64) :
    0 ≤ (readDiskBlock s i buffer).1 := by
  unfold readDiskBlock
  dsimp only
  split_ifs
  · exact le_rfl
  · exact Fat.readfile_count (by decide : diskBlocksize < 2 ^ 31) (Option.some_get _).symm

theorem disk_read_ready {s : System} {i : Fin maxDevices} (reads : Reads s (.disk, i)) :
    (perform s (.disk, i)).1 = deviceReady := by
  have isRead : getCommand (s.regs (.disk, i)).command = readblk := reads.2
  have seek : readblk ≠ seekcyl := by decide
  simp only [perform, isRead, if_neg seek, ↓reduceIte]
  exact if_neg (Int.not_lt.mpr (readDiskBlock_count _ _ _))

theorem read_reported {clusters : Nat} {s : System} {dev : Dev} {a : Act} (ready : Fat.Ready s.fat)
    (well : Fat.WellFormed s.fat clusters) (readable : Readable clusters s a)
    (ends : Ends dev s a) : Reported dev s (step s a) := by
  obtain ⟨kept, room⟩ := readable dev ends
  constructor
  · intro reads
    obtain ⟨cs, path, first, within⟩ := room reads
    obtain ⟨r, q, _, completed⟩ := expiry_completes ⟨reads.1, reads_delayed reads⟩ ends
    constructor
    · intro _
      have whole := Nat.mul_le_mul_left s.fat.clusterSize (Fat.reach_le s.fat cs)
      refine ⟨clusters, cs, ⟨path, first, within.trans whole⟩, fun i inside outside => ?_⟩
      rw [completed.ram, storeReg, store_outside _ _ _ _ (by rw [regList_length]; exact outside)]
      exact @perform_reads { s with queue := q } dev _ _ reads ready well path first within i inside
    · rintro (⟨_, ds, chain, same, early⟩ | ⟨n, late, _, fault⟩)
      · have short := Fat.reach_linked ds chain.linked path.leads (first.trans same.symm)
        have less := Nat.mul_le_mul_left s.fat.clusterSize short
        omega
      · exact absurd (ready.sound n late) fault
  · intro writes
    exact absurd writes kept

/-- On a card that never fails, every completed READBLK of a part of a file that can be read is
    rightly reported, as long as no WRITEBLK completes. -/
theorem completions_reported {b : Boot} {sdOk : Bool} {clusters : Nat} {start : System}
    (healthy : sdOk = true → Healthy b clusters) (init : initSystem b sdOk = some start)
    (as : List Act) (readable : Along step (Readable clusters) start as) :
    Along step (fun s a => ∀ dev, Ends dev s a → Reported dev s (step s a)) start as := by
  cases sdOk with
  | false =>
    refine @along_invariant _ _ _ Absent _ _ (fun s a absent _ => ⟨?_, absent_step absent a⟩) as _
      (init_absent init) readable
    intro dev ends
    have idle : dev.1 ≠ .printer → ¬ Busy s dev :=
      fun other busy => busy_installed busy (absent dev other)
    constructor
    · intro reads
      refine absurd reads.1 (idle ?_)
      intro isPrinter
      obtain ⟨c, i⟩ := dev
      cases isPrinter
      exact reads.2
    · intro writes
      refine absurd writes.1 (idle ?_)
      rw [writes.2.1]
      decide
  | true =>
    obtain ⟨sound, mounted, well, _⟩ := healthy rfl
    have ready := Fat.mount_ready sound mounted
    have kept := init_keeps init
    generalize (Fat.fatGetpartition (Fat.staticVolume b.card b.stack)).2 = volume at ready kept well
    refine @along_invariant _ _ _ (fun s => Fat.Ready s.fat ∧ Fat.Alike volume s.fat) _ _ ?_ as _
      (kept ready) readable
    intro s a ⟨ready', alike⟩ readable
    constructor
    · exact fun dev => read_reported ready' (Fat.alike_wellFormed alike well) readable
    · obtain ⟨ready'', alike'⟩ := step_keeps (fun dev ends => (readable dev ends).1) ready'
      exact ⟨ready'', Fat.alike_trans alike alike'⟩

theorem disk_read_completes {s : System} {i : Fin maxDevices} {a : Act} (reads : Reads s (.disk, i))
    (ends : Ends (.disk, i) s a) : ((step s a).regs (.disk, i)).status = deviceReady := by
  obtain ⟨r, q, _, completed⟩ := expiry_completes ⟨reads.1, reads_delayed reads⟩ ends
  rw [completed.status]
  exact @disk_read_ready { s with queue := q } i reads

def waiting : List Act := [readBlock, .tick 10000]

theorem waiting_volume {b : Boot} {start : System} (init : initSystem b true = some start)
    (sound : Sd.Sound b.card)
    (mounted : (Fat.fatGetpartition (Fat.staticVolume b.card b.stack)).1 = 1) :
    Fat.Alike (Fat.fatGetpartition (Fat.staticVolume b.card b.stack)).2
      (run step start waiting).fat := by
  have kept : Along step (fun s a => ∀ dev, Ends dev s a → ¬ Writes s dev) start waiting := by
    simp [waiting, Along, Ends, readBlock]
  exact (Fat.keeps_trans (init_keeps init) (run_keeps _ kept) (Fat.mount_ready sound mounted)).2

def awaited : System := run step diskSystem waiting

def diskVolume : Fat.Volume :=
  (Fat.fatGetpartition (Fat.staticVolume diskBoot.card diskBoot.stack)).2

theorem disk_healthy : Healthy diskBoot 100 :=
  ⟨fun _ _ => rfl, by decide, ⟨by decide, by decide, by decide, by decide, by decide⟩, by decide⟩

theorem awaited_volume : Fat.Alike diskVolume awaited.fat :=
  waiting_volume disk_init disk_healthy.sound disk_healthy.mounted

theorem awaited_disk {dev : Dev} (ends : Ends dev awaited (.expire noTimer)) : dev = (.disk, 0) := by
  obtain ⟨_, r, rest, head, _, own⟩ := ends
  have entries : awaited.queue.entries.head? = some ⟨0, .disk, 0⟩ := by decide +kernel
  rw [head] at entries
  cases entries
  cases own
  rfl

theorem awaited_room : blockStart awaited (.disk, 0) + diskBlocksize ≤
    awaited.fat.clusterSize * Fat.reach awaited.fat [3, 4] := by
  have start : blockStart awaited (.disk, 0) = 28 := by decide +kernel
  rw [Fat.alike_clusterSize awaited_volume, Fat.alike_reach awaited_volume, start]
  decide

theorem awaited_readable : Readable 100 awaited (.expire noTimer) := by
  intro dev ends
  cases awaited_disk ends
  constructor
  · rintro ⟨_, _, isWrite⟩
    exact absurd isWrite (by decide +kernel)
  · intro _
    refine ⟨[3, 4], Fat.alike_path awaited_volume ?_, by decide +kernel, awaited_room⟩
    exact ⟨by unfold Fat.DataCluster; decide, ⟨by decide, trivial⟩, by decide⟩

theorem completions_reported_block :
    Along step (fun s a => ∀ dev, Ends dev s a → Reported dev s (step s a)) diskSystem
      [readBlock, .tick 10000, .expire noTimer] := by
  apply completions_reported (fun _ => disk_healthy) disk_init
  refine ⟨?_, ?_, awaited_readable, trivial⟩
  · simp [Readable, Ends, readBlock]
  · simp [Readable, Ends]

/-- The same card, but the file ends with its first cluster. -/
def shortBoot : Boot :=
  { bareBoot with card := ⟨fun a => (((1024 + 12, 0xFF) :: (1024 + 13, 0xFF) :: (1024 + 14, 0xFF) ::
    (1024 + 15, 0x0F) :: diskBytes).lookup a).getD 0, fun _ => none, 0⟩ }

theorem shortBoot_starts : (initSystem shortBoot true).isSome = true := by decide +kernel

def shortSystem : System := (initSystem shortBoot true).get shortBoot_starts

theorem short_init : initSystem shortBoot true = some shortSystem := (Option.some_get _).symm

def cutOff : System := run step shortSystem waiting

def shortVolume : Fat.Volume :=
  (Fat.fatGetpartition (Fat.staticVolume shortBoot.card shortBoot.stack)).2

theorem cutOff_volume : Fat.Alike shortVolume cutOff.fat :=
  waiting_volume short_init (fun _ _ => rfl) (by decide)

theorem cutOff_early : EndsEarly (.disk, 0) cutOff := by
  have start : blockStart cutOff (.disk, 0) = 28 := by decide +kernel
  refine ⟨100, [3], Fat.alike_chain cutOff_volume ?_, by decide +kernel, ?_⟩
  · exact ⟨by unfold Fat.DataCluster; decide, by decide, by unfold Fat.Linked; decide⟩
  · rw [Fat.alike_clusterSize cutOff_volume, start]
    decide

theorem cutOff_reads : Reads cutOff (.disk, 0) := by
  constructor
  · unfold Busy
    decide +kernel
  · show getCommand (cutOff.regs (.disk, 0)).command = readblk
    decide +kernel

theorem cutOff_ends : Ends (.disk, 0) cutOff (.expire noTimer) := by
  refine ⟨⟨noTimer, rfl⟩, ?_⟩
  have entries : cutOff.queue.entries = [⟨0, .disk, 0⟩] := by decide +kernel
  exact ⟨_, _, entries, by decide +kernel, rfl⟩

/-- 4068 of the 4096 bytes are there, and the disk says that it has read the block. -/
theorem short_block_ready :
    Reachable cutOff ∧ Ends (.disk, 0) cutOff (.expire noTimer) ∧
      ¬ Reported (.disk, 0) cutOff (step cutOff (.expire noTimer)) := by
  refine ⟨⟨shortBoot, true, shortSystem, waiting, short_init, rfl⟩, cutOff_ends, ?_⟩
  intro reported
  have failed := (reported.read cutOff_reads).2 (Or.inl cutOff_early)
  rw [disk_read_completes cutOff_reads cutOff_ends] at failed
  exact absurd failed (by decide)

end Emulated
