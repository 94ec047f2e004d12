import MaldOS.Emulated.Blocks
import MaldOS.Emulated.Divisions
import MaldOS.Hal.FatInside
import MaldOS.Hal.FatStore

/-!
The files behind the devices. Only a WRITEBLK changes any of them, and only in
the range of its block; what tapes and disks read is what the card had at the
start, up to there.
-/
namespace Emulated
open Arch ByteMemory Registers ArmTimers EmulatedTimers Runs Stores

variable {ι : Type}

/-- If the action completes a WRITEBLK, byte `j` of file `f` is not in the range of its block. -/
def Spares (chain : ι → List Nat) (f : ι) (j : Nat) (s : System) (a : Act) : Prop :=
  ∀ i, Ends (.disk, i) s a → Writes s (.disk, i) →
    fileCluster s (.disk, i) = (chain f).getD 0 0 →
    j < blockStart s (.disk, i) ∨ blockStart s (.disk, i) + diskBlocksize ≤ j

/-- A file that a disk was found on is one of those in `chain`. -/
def OwnsFiles (chain : ι → List Nat) (s : System) : Prop :=
  ∀ i, fileCluster s (.disk, i) ≠ 0 → ∃ f, (chain f).getD 0 0 = fileCluster s (.disk, i)

theorem seekDiskBlock_read (s : System) (i : Fin maxDevices) :
    seekDiskBlock ((s.aimDisk i (s.regs (.disk, i)).command).disks i) = blockStart s (.disk, i) := rfl

theorem headCalls_read (s : System) (tape : Fin maxDevices) :
    ∀ c ∈ headCalls s tape, ∀ cluster data seek length, c ≠ .write cluster data seek length := by
  intro c member cluster data seek length
  unfold headCalls at member
  dsimp only at member
  split_ifs at member <;> simp at member
  rw [member]
  simp

theorem tapeCalls_read (s : System) (i : Fin maxDevices) :
    ∀ c ∈ tapeCalls s i, ∀ cluster data seek length, c ≠ .write cluster data seek length := by
  intro c member cluster data seek length
  unfold tapeCalls at member
  dsimp only at member
  split_ifs at member
  · simp at member
  · simp at member
  · exact headCalls_read _ _ c member _ _ _ _
  · exact headCalls_read _ _ c member _ _ _ _
  · simp at member
  · rw [List.append_nil] at member
    unfold tapeBlockCalls at member
    dsimp only at member
    split_ifs at member <;> simp at member
    rw [member]
    simp
  · obtain read | head := List.mem_append.mp member
    · unfold tapeBlockCalls at read
      dsimp only at read
      split_ifs at read <;> simp at read
      rw [read]
      simp
    · exact headCalls_read _ _ c head _ _ _ _
  · simp at member
  · simp at member

theorem diskCalls_write {s : System} {i : Fin maxDevices} {cluster seek length : Nat}
    {data : Nat → Byte} (member : Fat.Call.write cluster data seek length ∈ diskCalls s i) :
    Writes s (.disk, i) ∧ fileCluster s (.disk, i) ≠ 0 ∧ cluster = fileCluster s (.disk, i) ∧
      seek = blockStart s (.disk, i) ∧ length = diskBlocksize := by
  have own : ((s.aimDisk i (s.regs (.disk, i)).command).disks i).fat32Cluster =
      fileCluster s (.disk, i) := by
    simp [System.aimDisk, System.setDisk, fileCluster]
  unfold diskCalls at member
  dsimp only at member
  rw [own, seekDiskBlock_read] at member
  by_cases there : (s.regs (.disk, i)).status = deviceNotInstalled
  · rw [if_pos there] at member
    cases member
  by_cases busy : (s.regs (.disk, i)).status = deviceBusy
  · rw [if_neg there, if_pos busy] at member
    split_ifs at member with isSeek none isRead isWrite
    · cases member
    · cases member
    · simp at member
    · rw [List.mem_singleton] at member
      injection member with hc _ hs hl
      exact ⟨⟨busy, rfl, isWrite⟩, none, hc, hs, hl⟩
    · cases member
  · rw [if_neg there, if_neg busy] at member
    cases member

theorem stepCalls_write {s : System} {a : Act} {cluster seek length : Nat} {data : Nat → Byte}
    (member : Fat.Call.write cluster data seek length ∈ stepCalls s a) :
    ∃ i, Ends (.disk, i) s a ∧ Writes s (.disk, i) ∧ fileCluster s (.disk, i) ≠ 0 ∧
      cluster = fileCluster s (.disk, i) ∧ seek = blockStart s (.disk, i) ∧
      length = diskBlocksize := by
  cases a with
  | expire next =>
    obtain ⟨res, r, q, given, cases⟩ := nextPending_cases s.queue (getTOD s.clock) next
    unfold stepCalls at member
    simp only [given] at member
    by_cases expired : res > 0
    · rw [if_pos expired] at member
      obtain ⟨head, past⟩ : s.queue.entries = r :: q.entries ∧ r.time < getTOD s.clock := by
        rcases cases with ⟨sign, _⟩ | ⟨_, head, past⟩ | ⟨sign, _⟩
        · omega
        · exact ⟨head, past⟩
        · omega
      cases own : owner r with
      | none =>
        rw [own] at member
        cases member
      | some dev =>
        rw [own] at member
        dsimp only at member
        obtain ⟨c, i⟩ := dev
        cases c with
        | printer => cases member
        | tape => exact absurd rfl (tapeCalls_read { s with queue := q } i _ member _ _ _ _)
        | disk =>
          obtain ⟨writes, some, hc, hs, hl⟩ := @diskCalls_write { s with queue := q } _ _ _ _ _ member
          exact ⟨i, ⟨⟨next, rfl⟩, r, _, head, past, own⟩, writes, some, hc, hs, hl⟩
    · rw [if_neg expired] at member
      cases member
  | _ => cases member

structure Sound (v : Fat.Volume) (s : System) : Prop where
  ready : Fat.Ready s.fat
  retains : Fat.Retains v s.fat
  snug : Fat.Snug s.fat

theorem step_clusters (s : System) (a : Act) (i : Fin maxDevices) :
    fileCluster (step s a) (.disk, i) = fileCluster s (.disk, i) := by
  unfold fileCluster
  by_cases serving : a.Serving
  · cases a with
    | request dev block r =>
      by_cases given : block = 0
      · rw [step, given, mailbox_null]
      · cases mailbox_verdict { s with ram := storeReg s.ram block r } dev given with
        | silent quiet => exact quiet.disks i
        | kept quiet => exact quiet.disks i
        | settled quiet => exact quiet.disks i
        | started serves => exact serves.disks i
    | expire next =>
      rcases expire_cases s next with ⟨same, _⟩ | ⟨r, q, _, _, run⟩
      · rw [step, same]
      · rw [step, run]
        unfold manageTimer
        cases owner r with
        | none => rfl
        | some dev => exact (manage_quiet { s with queue := q } dev).disks i
    | _ => exact absurd serving id
  · rw [(step_aside s serving).disks]

theorem sound_fits {v : Fat.Volume} {s : System} (sound : Sound v s) :
    s.fat.clusterSize ≤ s.fat.buffer.size := by
  have size := (Fat.snug_clusterSize sound.snug).2
  rw [sound.snug.room]
  omega

section
variable {v : Fat.Volume} {clusters : Nat} {chain : ι → List Nat} (well : Fat.WellFormed v clusters)
  (files : Fat.Files v clusters chain)
include well files

theorem step_spares {s : System} (sound : Sound v s) (owned : OwnsFiles chain s) {f : ι} {j : Nat}
    (inside : j < v.clusterSize * (chain f).length) {a : Act} (spares : Spares chain f j s a) :
    Sound v (step s a) ∧ OwnsFiles chain (step s a) ∧
      Fat.fileByte (step s a).fat (chain f) j = Fat.fileByte s.fat (chain f) j := by
  have each : ∀ c ∈ stepCalls s a, c.Spares chain f j := by
    intro c member
    cases c with
    | write cluster data seek length =>
      obtain ⟨i, ends, writes, some, rfl, rfl, rfl⟩ := stepCalls_write member
      exact ⟨by decide, owned i some, spares i ends writes⟩
    | _ => trivial
  obtain ⟨ready, retains, byte⟩ := Fat.run_spares sound.ready
    (Fat.retains_wellFormed sound.retains well) (Fat.retains_files sound.retains well files)
    (sound_fits sound) (by rw [Fat.retains_clusterSize sound.retains]; exact inside) _ each
  rw [← step_calls] at ready retains byte
  refine ⟨⟨ready, Fat.retains_trans sound.retains retains, ?_⟩, ?_, byte⟩
  · rw [step_calls]
    exact Fat.run_snug _ sound.snug
  · intro i
    rw [step_clusters]
    exact owned i

theorem run_spares {s : System} (sound : Sound v s) (owned : OwnsFiles chain s) {f : ι} {j : Nat}
    (inside : j < v.clusterSize * (chain f).length) (as : List Act)
    (spared : Along step (Spares chain f j) s as) :
    Sound v (run step s as) ∧
      Fat.fileByte (run step s as).fat (chain f) j = Fat.fileByte s.fat (chain f) j := by
  induction as generalizing s with
  | nil => exact ⟨sound, rfl⟩
  | cons a as ih =>
    obtain ⟨sound', owned', byte⟩ := step_spares well files sound owned inside spared.1
    obtain ⟨last, bytes⟩ := ih sound' owned' spared.2
    exact ⟨last, bytes.trans byte⟩

theorem read_delivers {s : System} (sound : Sound v s) {f : ι} {dev : Dev} {a : Act}
    (ends : Ends dev s a) (reads : Reads s dev) (own : (chain f).getD 0 0 = fileCluster s dev)
    (within : blockStart s dev + diskBlocksize ≤ Fat.fileSize s.fat (chain f)) {i : Nat}
    (inside : i < diskBlocksize)
    (apart : regBytes ≤ (blockBuffer s dev + BitVec.ofNat 64 i - s.block dev).toNat) :
    (step s a).ram (blockBuffer s dev + BitVec.ofNat 64 i) =
      Fat.fileByte s.fat (chain f) (blockStart s dev + i) := by
  have well' := Fat.retains_wellFormed sound.retains well
  have path := Fat.chain_path well' ((Fat.retains_files sound.retains well files).chained f)
  obtain ⟨r, q, -, completed⟩ := expiry_completes ⟨reads.1, reads_delayed reads⟩ ends
  rw [completed.ram, storeReg, store_outside _ _ _ _ (by rw [regList_length]; exact apart)]
  exact @perform_reads { s with queue := q } dev _ _ reads sound.ready well' path own within i inside

end

def mountedVolume (b : Boot) : Fat.Volume :=
  (Fat.fatGetpartition (Fat.staticVolume b.card b.stack)).2

theorem init_sound {b : Boot} {clusters : Nat} {start : System} (healthy : Healthy b clusters)
    (few : (mountedVolume b).spc ≤ 4) (init : initSystem b true = some start) :
    Sound (mountedVolume b) start ∧ ∀ cs j,
      Fat.fileByte start.fat cs j = Fat.fileByte (mountedVolume b) cs j := by
  have ready := Fat.mount_ready healthy.sound healthy.mounted
  obtain ⟨room, mark⟩ :=
    Fat.reached_buffer (.mount b.card b.stack healthy.sound healthy.mounted)
  obtain ⟨ready', alike⟩ := init_keeps init ready
  refine ⟨⟨ready', Fat.alike_retains alike, ?_⟩, Fat.alike_fileByte alike⟩
  rw [init_calls init]
  exact Fat.run_snug _ ⟨healthy.well.sectors, few, ready.sector, room, mark⟩

/-- On a sound card with clusters of at most four sectors, every byte of every file stays as it was
    when the card was mounted until a WRITEBLK of the disk in that file covers it, and up to then
    is what tapes and disks read there. -/
theorem files_kept {b : Boot} {clusters : Nat} {start : System} (healthy : Healthy b clusters)
    (few : (mountedVolume b).spc ≤ 4) (init : initSystem b true = some start)
    {chain : ι → List Nat} (files : Fat.Files (mountedVolume b) clusters chain)
    (owned : OwnsFiles chain start) (f : ι) {j : Nat}
    (inside : j < (mountedVolume b).clusterSize * (chain f).length) (as : List Act)
    (spared : Along step (Spares chain f j) start as) :
    Fat.fileByte (run step start as).fat (chain f) j = Fat.fileByte (mountedVolume b) (chain f) j ∧
      (run step start as).fat.buffer.overrun = false ∧
      ∀ dev a i, Ends dev (run step start as) a → Reads (run step start as) dev →
        (chain f).getD 0 0 = fileCluster (run step start as) dev →
        blockStart (run step start as) dev + diskBlocksize ≤
          Fat.fileSize (run step start as).fat (chain f) →
        i < diskBlocksize → blockStart (run step start as) dev + i = j →
        regBytes ≤ (blockBuffer (run step start as) dev + BitVec.ofNat 64 i -
          (run step start as).block dev).toNat →
        (step (run step start as) a).ram (blockBuffer (run step start as) dev + BitVec.ofNat 64 i) =
          Fat.fileByte (mountedVolume b) (chain f) j := by
  obtain ⟨sound, first⟩ := init_sound healthy few init
  obtain ⟨later, byte⟩ := run_spares healthy.well files sound owned inside as spared
  have kept := byte.trans (first (chain f) j)
  refine ⟨kept, later.snug.overrun, ?_⟩
  rintro dev a i ends reads own within early rfl apart
  rw [← kept]
  exact read_delivers healthy.well files later ends reads own within early apart

/-- The file `DISK0` in five clusters of 2048 bytes, with two blocks and a byte in the second. -/
def smallBytes : List (Nat × Byte) :=
  [(510, 0x55), (511, 0xAA), (0x1C2, 0xB), (0x1C6, 1),
   (512 + 12, 2), (512 + 13, 4), (512 + 14, 1), (512 + 16, 1), (512 + 36, 1),
   (512 + 82, 0x46), (512 + 83, 0x41), (512 + 84, 0x54),
   (1024 + 8, 0xFF), (1024 + 9, 0xFF), (1024 + 10, 0xFF), (1024 + 11, 0x0F), (1024 + 12, 4),
   (1024 + 16, 5), (1024 + 20, 6), (1024 + 24, 7),
   (1024 + 28, 0xFF), (1024 + 29, 0xFF), (1024 + 30, 0xFF), (1024 + 31, 0x0F),
   (1536, 0x44), (1537, 0x49), (1538, 0x53), (1539, 0x4B), (1540, 0x30), (1541, 0x20),
   (1542, 0x20), (1543, 0x20), (1544, 0x20), (1545, 0x20), (1546, 0x20), (1536 + 26, 3),
   (3584, 0x4D), (3585, 0x50), (3586, 0x53), (3588, 1), (3592, 1), (3596, 2),
   (3600, 0x60), (3601, 0xEA), (3584 + 6000, 0x41)]

def smallBoot : Boot :=
  { bareBoot with card := ⟨fun a => (smallBytes.lookup a).getD 0, fun _ => none, 0⟩ }

theorem smallBoot_starts : (initSystem smallBoot true).isSome = true := by decide +kernel

def smallSystem : System := (initSystem smallBoot true).get smallBoot_starts


theorem small_init : initSystem smallBoot true = some smallSystem := (Option.some_get _).symm

theorem small_healthy : Healthy smallBoot 100 :=
  ⟨fun _ _ => rfl, by decide, ⟨by decide, by decide, by decide, by decide, by decide⟩, by decide⟩

theorem small_files : Fat.Files (mountedVolume smallBoot) 100 (fun _ : Unit => [3, 4, 5, 6, 7]) := by
  constructor
  · intro _
    exact ⟨by unfold Fat.DataCluster; decide, by decide, by decide, by decide, by decide,
      by decide, by unfold Fat.Linked; decide⟩
  · intro f g ne
    exact absurd rfl ne

theorem small_owned : OwnsFiles (fun _ : Unit => [3, 4, 5, 6, 7]) smallSystem := by
  have own : ∀ i, fileCluster smallSystem (.disk, i) ≠ 0 →
      3 = fileCluster smallSystem (.disk, i) := by decide +kernel
  exact fun i some => ⟨(), own i some⟩

/-- A client of disk 0 has it write block 0, which ends before byte 6000 of the file, and read
    block 1, which holds it. -/
def writeThenRead : List Act :=
  [.request (.disk, 0) 0x10000 ⟨0, writeblk, 0x20000, 0, 0⟩, .tick 10000, .expire noTimer,
    .request (.disk, 0) 0x10000 ⟨0, readblk ||| 0x100, 0x30000, 0, 0⟩, .tick 100000]

theorem small_spared : Along step (Spares (fun _ : Unit => [3, 4, 5, 6, 7]) () 6000) smallSystem
    writeThenRead := by
  have before : ∀ i, blockStart (run step smallSystem [.request (.disk, 0) 0x10000
      ⟨0, writeblk, 0x20000, 0, 0⟩, .tick 10000]) (.disk, i) + diskBlocksize ≤ 6000 := by
    decide +kernel
  refine ⟨?_, ?_, fun i _ _ _ => Or.inr (before i), ?_, ?_, trivial⟩
  · simp [Spares, Ends]
  · simp [Spares, Ends]
  · simp [Spares, Ends]
  · simp [Spares, Ends]

theorem files_kept_small :
    Fat.fileByte (run step smallSystem writeThenRead).fat [3, 4, 5, 6, 7] 6000 =
        Fat.fileByte (mountedVolume smallBoot) [3, 4, 5, 6, 7] 6000 ∧
      (run step smallSystem writeThenRead).fat.buffer.overrun = false ∧
      (step (run step smallSystem writeThenRead) (.expire noTimer)).ram 0x30754 = 0x41 := by
  obtain ⟨kept, snug, read⟩ := files_kept small_healthy (by decide) small_init small_files
    small_owned () (j := 6000) (by decide) writeThenRead small_spared
  have starts : blockStart (run step smallSystem writeThenRead) (.disk, 0) = 4124 := by
    decide +kernel
  have buffer : blockBuffer (run step smallSystem writeThenRead) (.disk, 0) = 0x30000 := by
    decide +kernel
  have client : (run step smallSystem writeThenRead).block (.disk, 0) = 0x10000 := by
    decide +kernel
  have apart : regBytes ≤ (blockBuffer (run step smallSystem writeThenRead) (.disk, 0) +
      BitVec.ofNat 64 1876 - (run step smallSystem writeThenRead).block (.disk, 0)).toNat := by
    rw [buffer, client]
    decide
  have due : (run step smallSystem writeThenRead).queue.entries = [⟨1020, .disk, 0⟩] := by
    decide +kernel
  have ends : Ends (.disk, 0) (run step smallSystem writeThenRead) (.expire noTimer) :=
    ⟨⟨noTimer, rfl⟩, _, [], due, by decide +kernel, rfl⟩
  have delivered := read (.disk, 0) _ 1876 ends ⟨by decide +kernel, by decide +kernel⟩
    (by decide +kernel) (by decide +kernel) (by decide) (by rw [starts]) apart
  have place : (0x30000 : BitVec 64) + BitVec.ofNat 64 1876 = 0x30754 := by decide
  rw [buffer, place] at delivered
  refine ⟨kept, snug, ?_⟩
  have byte : Fat.fileByte (mountedVolume smallBoot) [3, 4, 5, 6, 7] 6000 = 0x41 := by
    decide +kernel
  exact delivered.trans byte

end Emulated
