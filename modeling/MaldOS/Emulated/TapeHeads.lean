import MaldOS.Emulated.Announced
import MaldOS.Emulated.TapeOrder

/-!
Where a tape command that fails leaves the tape. The driver moves the position
before it looks at the marker there, and does not move it back.
-/
namespace Emulated
open Arch ByteMemory Registers ArmTimers EmulatedTimers Runs

def System.head (s : System) (i : Fin maxDevices) : Nat × BitVec 32 :=
  ((s.tapes i).blockIndex, (s.regs (.tape, i)).data1)

/-- A run with a record of where each tape was when it accepted its last command. -/
def headed (p : System × (Fin maxDevices → Nat × BitVec 32)) (a : Act) :
    System × (Fin maxDevices → Nat × BitVec 32) :=
  (step p.1 a, fun i =>
    if ¬ Busy p.1 (.tape, i) ∧ Busy (step p.1 a) (.tape, i) then p.1.head i else p.2 i)

def Failed (status : BitVec 32) : Prop :=
  status = skipError ∨ status = backBlockError ∨ status = readError

/-- A command that fails leaves the tape where it was accepted; a READBLK that is refused leaves
    it where it is. -/
structure HeadKept (p : System × (Fin maxDevices → Nat × BitVec 32)) (a : Act)
    (i : Fin maxDevices) : Prop where
  completed : Busy p.1 (.tape, i) → Ends (.tape, i) p.1 a →
    Failed ((step p.1 a).regs (.tape, i)).status → (step p.1 a).head i = p.2 i
  refused : ∀ block r, a = .request (.tape, i) block r → r.command = readblk →
    (step p.1 a).head i = p.1.head i

def destination (s : System) (i : Fin maxDevices) : Option Nat :=
  let r := s.regs (.tape, i)
  let blockIndex := (s.tapes i).blockIndex
  if r.command = skipblk then if r.data1 = eot then none else some (u32 (blockIndex + 1))
  else if r.command = backblk then if blockIndex > 0 then some (blockIndex - 1) else none
  else some (u32 (blockIndex + 1))

/-- What happened when the marker is looked for: READBLK has read its block. -/
def System.beforeMarker (s : System) (i : Fin maxDevices) : System :=
  if (s.regs (.tape, i)).command = readblk then
    (readTapeBlock s i ((s.regs (.tape, i)).data0.setWidth 64)).2
  else s

/-- The four bytes that a read at block `k` brings, over those on the stack, are a marker. -/
def ShowsMarker (s : System) (i : Fin maxDevices) (k : Nat) : Prop :=
  k = 0 ∨ (s.readlocal (s.tapes i).fat32Cluster (u32 (k * tapeBlocksize + k * 4))).1 ∈ [eob, eof, eot]

/-- The command in flight comes to a marker, if it goes anywhere. -/
def Arrives (s : System) (i : Fin maxDevices) : Prop :=
  ∀ k, destination s i = some k → ShowsMarker (s.beforeMarker i) i k

theorem destination_moves {s : System} {i : Fin maxDevices} {k : Nat}
    (goes : destination s i = some k) : k ≠ (s.tapes i).blockIndex := by
  have next : u32 ((s.tapes i).blockIndex + 1) ≠ (s.tapes i).blockIndex := by
    unfold u32
    omega
  unfold destination at goes
  dsimp only at goes
  split_ifs at goes <;> cases goes
  · exact next
  · omega
  · exact next

theorem moved_marker (s : System) (i : Fin maxDevices) (k : Nat) :
    (ShowsMarker s i k → (updateTapeHead (s.moveTape i k) i).1 = 0) ∧
      (¬ ShowsMarker s i k → (updateTapeHead (s.moveTape i k) i).1 = -1 ∧
        (updateTapeHead (s.moveTape i k) i).2.head i = (k, (s.regs (.tape, i)).data1)) := by
  have tape : (s.moveTape i k).tapes i = { s.tapes i with blockIndex := k } := by
    simp [System.moveTape, System.setTape]
  have word : ((s.moveTape i k).readlocal (s.tapes i).fat32Cluster
      (u32 (k * tapeBlocksize + k * 4))).1 =
        (s.readlocal (s.tapes i).fat32Cluster (u32 (k * tapeBlocksize + k * 4))).1 := rfl
  have after : ((s.moveTape i k).readlocal (s.tapes i).fat32Cluster
      (u32 (k * tapeBlocksize + k * 4))).2.head i = (k, (s.regs (.tape, i)).data1) := by
    show (((s.moveTape i k).tapes i).blockIndex, _) = _
    rw [tape]
    rfl
  unfold ShowsMarker updateTapeHead
  rw [tape]
  dsimp only
  rw [word]
  by_cases start : k = 0
  · simp [start]
  · rw [if_neg start]
    by_cases known : (s.readlocal (s.tapes i).fat32Cluster
        (u32 (k * tapeBlocksize + k * 4))).1 ∈ [eob, eof, eot]
    · have marker := known
      simp only [List.mem_cons, List.not_mem_nil, or_false] at marker
      rw [if_neg]
      · exact ⟨fun _ => rfl, fun lost => absurd (.inr known) lost⟩
      · rintro ⟨notEob, notEof, notEot⟩
        exact marker.elim notEob (Or.rec notEof notEot)
    · have other := known
      simp only [List.mem_cons, List.not_mem_nil, or_false, not_or] at other
      rw [if_pos other]
      exact ⟨fun found => absurd (found.resolve_left start) known, fun _ => ⟨rfl, after⟩⟩

/-- The work of a command: it fails exactly if it stays where it is or comes to no marker. -/
structure Placement (s : System) (i : Fin maxDevices) (r : BitVec 32 × System) : Prop where
  stays : destination s i = none → r.2.head i = s.head i
  arrives : ∀ k, destination s i = some k → ShowsMarker (s.beforeMarker i) i k → ¬ Failed r.1
  strands : ∀ k, destination s i = some k → ¬ ShowsMarker (s.beforeMarker i) i k →
    Failed r.1 ∧ r.2.head i = (k, (s.regs (.tape, i)).data1)

theorem placement_moved {s : System} {i : Fin maxDevices} {k : Nat}
    (goes : destination s i = some k)
    (same : ((s.beforeMarker i).regs (.tape, i)).data1 = (s.regs (.tape, i)).data1)
    {error : BitVec 32} (fails : Failed error) :
    Placement s i (if (updateTapeHead ((s.beforeMarker i).moveTape i k) i).1 < 0 then error
      else deviceReady, (updateTapeHead ((s.beforeMarker i).moveTape i k) i).2) := by
  obtain ⟨found, lost⟩ := moved_marker (s.beforeMarker i) i k
  constructor
  · intro stays
    rw [goes] at stays
    cases stays
  · intro k' here marker
    rw [goes] at here
    cases here
    dsimp only
    rw [found marker, if_neg (by decide)]
    unfold Failed
    decide
  · intro k' here strange
    rw [goes] at here
    cases here
    obtain ⟨sign, head⟩ := lost strange
    dsimp only
    rw [sign, if_pos (by decide), head, same]
    exact ⟨fails, rfl⟩

theorem placement_stays {s : System} {i : Fin maxDevices} (stays : destination s i = none)
    (status : BitVec 32) : Placement s i (status, s) := by
  constructor
  · exact fun _ => rfl
  · intro k goes
    rw [stays] at goes
    cases goes
  · intro k goes
    rw [stays] at goes
    cases goes

theorem perform_placement {s : System} {i : Fin maxDevices}
    (delayed : Delayed .tape (s.regs (.tape, i)).command) :
    Placement s i (perform s (.tape, i)) := by
  rcases delayed with isSkip | isBack | isRead
  · have before : s.beforeMarker i = s := if_neg (by rw [isSkip]; decide)
    have skips : Failed skipError := .inl rfl
    unfold perform
    dsimp only
    rw [if_pos isSkip]
    unfold tapeNextBlock
    by_cases ended : (s.regs (.tape, i)).data1 = eot
    · rw [if_pos ended]
      apply placement_stays
      simp [destination, isSkip, ended]
    · rw [if_neg ended]
      have goes : destination s i = some (u32 ((s.tapes i).blockIndex + 1)) := by
        simpa [destination, isSkip] using ended
      have moved := placement_moved goes (by rw [before]) skips
      rwa [before] at moved
  · have before : s.beforeMarker i = s := if_neg (by rw [isBack]; decide)
    have backs : Failed backBlockError := .inr (.inl rfl)
    unfold perform
    dsimp only
    rw [if_neg (by rw [isBack]; decide), if_pos isBack]
    unfold tapePrevBlock
    by_cases later : (s.tapes i).blockIndex > 0
    · rw [if_pos later]
      have goes : destination s i = some ((s.tapes i).blockIndex - 1) := by
        simp [destination, isBack, later]
      have moved := placement_moved goes (by rw [before]) backs
      rwa [before] at moved
    · rw [if_neg later]
      apply placement_stays
      simp [destination, isBack, later]
  · have before : s.beforeMarker i = (readTapeBlock s i ((s.regs (.tape, i)).data0.setWidth 64)).2 :=
      if_pos isRead
    have reads : Failed readError := .inr (.inr rfl)
    have count := readTapeBlock_count s i ((s.regs (.tape, i)).data0.setWidth 64)
    have ports := (readTapeBlock_worked s i ((s.regs (.tape, i)).data0.setWidth 64)).2
    have units := readTapeBlock_units s i ((s.regs (.tape, i)).data0.setWidth 64)
    unfold perform
    dsimp only
    rw [if_neg (by rw [isRead]; decide), if_neg (by rw [isRead]; decide), if_neg (by omega), ← before]
    rw [← before] at ports units
    rw [units.tapes]
    have goes : destination s i = some (u32 ((s.tapes i).blockIndex + 1)) := by
      simp [destination, isRead]
    exact placement_moved goes (by rw [System.regs, ports]; rfl) reads

/-! The expiry of the timer of a busy tape. -/

theorem manage_head {s : System} {i : Fin maxDevices} (busy : Busy s (.tape, i))
    (delayed : Delayed .tape (s.regs (.tape, i)).command) :
    (manage s (.tape, i)).head i = (perform s (.tape, i)).2.head i := by
  have completed := manage_completes busy delayed
  unfold System.head
  rw [manage_data1 busy delayed, completed.tapes]

theorem arrives_queue (s : System) (q : TimerQueue) (i : Fin maxDevices) :
    Arrives { s with queue := q } i ↔ Arrives s i := by
  have read : ∀ p, (readTapeBlock { s with queue := q } i p).2 =
      { (readTapeBlock s i p).2 with queue := q } := by
    intro p
    unfold readTapeBlock
    dsimp only
    split_ifs <;> rfl
  have same : ({ s with queue := q } : System).beforeMarker i =
      { s.beforeMarker i with queue := q } := by
    unfold System.beforeMarker
    by_cases isRead : (s.regs (.tape, i)).command = readblk
    · have isRead' : (({ s with queue := q } : System).regs (.tape, i)).command = readblk := isRead
      rw [if_pos isRead, if_pos isRead']
      exact read _
    · have other : (({ s with queue := q } : System).regs (.tape, i)).command ≠ readblk := isRead
      rw [if_neg isRead, if_neg other]
  unfold Arrives
  rw [same]
  rfl

/-- A completion that fails leaves the tape where it is exactly if the command comes to a marker
    wherever it goes. -/
theorem completion_iff {s : System} {i : Fin maxDevices} {a : Act} (flight : InFlight (.tape, i) s)
    (ends : Ends (.tape, i) s a) :
    (Failed ((step s a).regs (.tape, i)).status → (step s a).head i = s.head i) ↔ Arrives s i := by
  obtain ⟨⟨next, rfl⟩, expires⟩ := ends
  obtain ⟨q, run⟩ := expire_own expires next
  rw [step, run, ← arrives_queue s q i]
  have same : s.head i = ({ s with queue := q } : System).head i := rfl
  have flight' : InFlight (.tape, i) { s with queue := q } := ⟨flight.busy, flight.delayed⟩
  rw [same]
  generalize ({ s with queue := q } : System) = t at flight'
  have placement := perform_placement flight'.delayed
  rw [manage_head flight'.busy flight'.delayed,
    (manage_completes flight'.busy flight'.delayed).status]
  constructor
  · intro kept k goes
    by_contra strange
    obtain ⟨fails, stranded⟩ := placement.strands k goes strange
    have back := congrArg Prod.fst (stranded.symm.trans (kept fails))
    exact destination_moves goes back
  · intro arrives fails
    cases goes : destination t i with
    | none => exact placement.stays goes
    | some k => exact absurd fails (placement.arrives k goes (arrives k goes))

/-! Until then the tape stays where the command was accepted. -/

theorem follows_head {i : Fin maxDevices} {s s' : System} (follows : Follows i s s')
    (busy : Busy s' (.tape, i)) : s'.head i = s.head i := by
  cases follows with
  | stays tape head =>
    unfold System.head
    rw [tape, head]
  | rewound tape head idle => exact absurd busy idle

theorem busy_head {s : System} {i : Fin maxDevices} {a : Act}
    (delayed : Busy s (.tape, i) → Delayed .tape (s.regs (.tape, i)).command)
    (busy : Busy (step s a) (.tape, i)) : (step s a).head i = s.head i := by
  by_cases concerns : Concerns s a (.tape, i)
  · rcases concerns with ⟨block, r, rfl, given⟩ | ⟨⟨next, rfl⟩, expires⟩
    · have follows : Follows i { s with ram := storeReg s.ram block r }
        (step s (.request (.tape, i) block r)) := tape_follows _ i block
      have still := follows_head follows busy
      exact still
    · exact absurd busy (expire_idle expires next delayed)
  · unfold System.head System.regs
    rw [(step_sameUnit concerns).tape i rfl, (step_untouched concerns).port]

/-- Of a tape with a command in flight, the record has the place. -/
structure HeadNoted (p : System × (Fin maxDevices → Nat × BitVec 32)) : Prop where
  reachable : Reachable p.1
  record : ∀ i, Busy p.1 (.tape, i) → p.2 i = p.1.head i

theorem noted_step (p : System × (Fin maxDevices → Nat × BitVec 32)) (a : Act) (noted : HeadNoted p) :
    HeadNoted (headed p a) := by
  refine ⟨reachable_run noted.reachable [a], ?_⟩
  intro i busy
  have still := busy_head (fun busy => (reachable_inFlight noted.reachable busy).delayed) busy
  show (if _ then _ else _) = (step p.1 a).head i
  rw [still]
  by_cases before : Busy p.1 (.tape, i)
  · rw [if_neg (fun taken => taken.1 before)]
    exact noted.record i before
  · rw [if_pos ⟨before, busy⟩]

section
variable {i : Fin maxDevices} {s s' s'' : System}

theorem head_ite {c : Prop} [Decidable c] (yes : c → s'.head i = s.head i)
    (no : ¬ c → s''.head i = s.head i) : (if c then s' else s'').head i = s.head i := by
  split_ifs with h
  · exact yes h
  · exact no h

theorem head_setRegs (s : System) (i : Fin maxDevices) {f : DevReg → DevReg}
    (same : (f (s.regs (.tape, i))).data1 = (s.regs (.tape, i)).data1) :
    (s.setRegs (.tape, i) f).head i = s.head i := by
  have regs : (s.setRegs (.tape, i) f).regs (.tape, i) = f (s.regs (.tape, i)) := by
    simp [System.regs]
  unfold System.head
  rw [regs, same]
  rfl

theorem head_startTape (t : System) (registers : BitVec 64) (command data0 : BitVec 32) :
    (t.startTape i registers command data0).head i = t.head i := by
  have units := startTape_units i registers command data0 (⟨rfl, rfl, rfl⟩ : SameUnits t t)
  unfold System.head
  rw [startTape_regs, units.tapes]

end

theorem readblk_head (s : System) (i : Fin maxDevices) (block : BitVec 64) {r : DevReg}
    (isRead : r.command = readblk) :
    (step s (.request (.tape, i) block r)).head i = s.head i := by
  obtain ⟨t, filled⟩ : ∃ t, t = { s with ram := storeReg s.ram block r } := ⟨_, rfl⟩
  have same : t.head i = s.head i := by
    rw [filled]
    rfl
  have command : (loadReg t.ram block).command = readblk := by
    rw [filled, loadReg_storeReg]
    exact isRead
  have run : step s (.request (.tape, i) block r) = emulatedTapeMailbox t i block := by
    rw [filled]
    rfl
  obtain ⟨u, marked⟩ : ∃ u, u = t.setRegs (.tape, i) fun r => { r with mailbox := 1 } := ⟨_, rfl⟩
  have head : u.head i = t.head i := by
    rw [marked]
    exact head_setRegs t i rfl
  have message : loadReg u.ram block = loadReg t.ram block := by
    rw [marked]
    rfl
  rw [run, ← same]
  unfold emulatedTapeMailbox
  rw [← marked]
  dsimp only
  rw [message, command]
  apply head_ite
  · exact fun _ => rfl
  intro _
  apply head_ite
  · exact fun _ => head
  intro _
  rw [if_neg (by decide), if_neg (by decide), if_neg (by decide), if_neg (by decide),
    if_neg (by decide), if_pos rfl]
  apply head_ite
  · intro _
    apply head_ite
    · have refused := @head_setRegs u i (fun r => { r with status := readError }) rfl
      exact fun _ => refused.trans head
    · exact fun _ => (head_startTape u block readblk _).trans head
  · exact fun _ => head

theorem headKept_iff {p : System × (Fin maxDevices → Nat × BitVec 32)} (noted : HeadNoted p) (a : Act) :
    (∀ i, HeadKept p a i) ↔ ∀ i, Busy p.1 (.tape, i) → Ends (.tape, i) p.1 a → Arrives p.1 i := by
  apply forall_congr'
  intro i
  constructor
  · intro kept busy ends
    have flight := reachable_inFlight noted.reachable busy
    rw [← completion_iff flight ends, ← noted.record i busy]
    exact kept.completed busy ends
  · intro arrives
    constructor
    · intro busy ends
      have flight := reachable_inFlight noted.reachable busy
      rw [noted.record i busy]
      exact (completion_iff flight ends).mpr (arrives busy ends)
    · rintro block r rfl isRead
      exact readblk_head p.1 i block isRead

/-- In every run, each command that fails leaves its tape where it was accepted, exactly if each
    one that completes comes to a marker wherever it moves its tape. -/
theorem heads_kept_iff {b : Boot} {sdOk : Bool} {start : System}
    (init : initSystem b sdOk = some start) (as : List Act) :
    Along headed (fun p a => ∀ i, HeadKept p a i) (start, start.head) as ↔
      Along step (fun s a => ∀ i, Busy s (.tape, i) → Ends (.tape, i) s a → Arrives s i) start as := by
  have quiescent := (init_quiescent init).1
  have noted : HeadNoted (start, start.head) :=
    ⟨⟨b, sdOk, start, [], init, rfl⟩, fun i _ => rfl⟩
  have alone := @along_fst _ _ _ step headed (fun _ _ => rfl)
    (fun s a => ∀ i, Busy s (.tape, i) → Ends (.tape, i) s a → Arrives s i) as (start, start.head)
  rw [← alone]
  exact @along_same _ _ headed HeadNoted _ _ (fun p a noted => headKept_iff noted a)
    (fun p a noted _ => noted_step p a noted) as (start, start.head) noted

theorem heads_kept_read :
    Along headed (fun p a => ∀ i, HeadKept p a i) (tapeSystem, tapeSystem.head) tapeReads ↔
      Along step (fun s a => ∀ i, Busy s (.tape, i) → Ends (.tape, i) s a → Arrives s i) tapeSystem
        tapeReads := heads_kept_iff tape_init tapeReads

/-- The same tape, where the first record does not end in a marker. -/
def tornBoot : Boot :=
  { tapeBoot with card := { tapeBoot.card with
      bytes := fun a => if a = 9732 then 7 else tapeBoot.card.bytes a } }

theorem tornBoot_starts : (initSystem tornBoot true).isSome = true := by decide +kernel

def tornSystem : System := (initSystem tornBoot true).get tornBoot_starts

theorem torn_init : initSystem tornBoot true = some tornSystem := (Option.some_get _).symm

def tapeSkip : List Act :=
  [.request (.tape, 0) 0x10000 ⟨0, skipblk, 0, 0, 0⟩, .tick 40000]

theorem stranded {s : System} {record : Fin maxDevices → Nat × BitVec 32} {as : List Act}
    {next : Timer} {i : Fin maxDevices} (busy : Busy (run step s as) (.tape, i))
    (idle : ¬ Busy (step (run step s as) (.expire next)) (.tape, i))
    (failed : Failed ((step (run step s as) (.expire next)).regs (.tape, i)).status)
    (away : (step (run step s as) (.expire next)).head i ≠ (run headed (s, record) as).2 i) :
    ¬ Along headed (fun p a => ∀ i, HeadKept p a i) (s, record) (as ++ [.expire next]) := by
  have same : (run headed (s, record) as).1 = run step s as := run_fst (fun _ _ => rfl) as _
  rw [along_append]
  rintro ⟨-, kept, -⟩
  rw [← same] at busy idle failed away
  exact away ((kept i).completed busy (expiry_own busy idle) failed)

/-- The command fails, and the tape is at block 1. -/
theorem failed_skip_moves :
    initSystem tornBoot true = some tornSystem ∧ tornSystem.head 0 = (0, ts) ∧
      ((run step tornSystem (tapeSkip ++ [.expire noTimer])).regs (.tape, 0)).status = skipError ∧
      (run step tornSystem (tapeSkip ++ [.expire noTimer])).head 0 = (1, ts) ∧
      ¬ Along headed (fun p a => ∀ i, HeadKept p a i) (tornSystem, tornSystem.head)
        (tapeSkip ++ [.expire noTimer]) := by
  have facts : tornSystem.head 0 = (0, ts) ∧
      (run headed (tornSystem, tornSystem.head) tapeSkip).2 0 = (0, ts) ∧
      Busy (run step tornSystem tapeSkip) (.tape, 0) ∧
      ((step (run step tornSystem tapeSkip) (.expire noTimer)).regs (.tape, 0)).status = skipError ∧
      (step (run step tornSystem tapeSkip) (.expire noTimer)).head 0 = (1, ts) := by
    decide +kernel
  obtain ⟨start, record, busy, failed, moved⟩ := facts
  simp only [run_append, run]
  refine ⟨torn_init, start, failed, moved, stranded busy ?_ (.inl failed) ?_⟩
  · unfold Busy
    rw [failed]
    decide
  · rw [moved, record]
    decide

end Emulated
