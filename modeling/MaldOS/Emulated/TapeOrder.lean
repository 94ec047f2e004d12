import MaldOS.Emulated.Apart
import MaldOS.Emulated.Blocks
import MaldOS.Emulated.TapeFiles

/-!
The order in which a tape delivers its blocks. READBLK is kept from the end of
the tape when it is accepted, SKIPBLK when its timer expires.
-/
namespace Emulated
open Arch ByteMemory Registers ArmTimers EmulatedTimers Runs Slices

/-- The tape is at one of its blocks, and `data1` shows the marker before it. -/
structure InPlace (t : TapeFile) (i : Fin maxDevices) (s : System) : Prop where
  inside : (s.tapes i).blockIndex ≤ t.count
  head : (s.regs (.tape, i)).data1 = t.mark (s.tapes i).blockIndex

/-- A completed READBLK: its record is in memory, where the report did not go over it, and the
    tape is at the next one. -/
structure Delivered (t : TapeFile) (i : Fin maxDevices) (s s' : System) : Prop where
  ready : (s'.regs (.tape, i)).status = deviceReady
  moved : (s'.tapes i).blockIndex = (s.tapes i).blockIndex + 1
  copied : ∀ j < tapeBlocksize,
    regBytes ≤ (blockBuffer s (.tape, i) + BitVec.ofNat 64 j - s.block (.tape, i)).toNat →
      s'.ram (blockBuffer s (.tape, i) + BitVec.ofNat 64 j) =
        (t.block (s.tapes i).blockIndex).getD j 0

/-- What one action may do to the tape: a READBLK that ends delivers its record, and nothing
    moves the tape on from its end. -/
structure Ordered (t : TapeFile) (i : Fin maxDevices) (s : System) (a : Act) : Prop where
  delivers : Ends (.tape, i) s a → Reads s (.tape, i) → Delivered t i s (step s a)
  stops : (s.regs (.tape, i)).data1 = eot →
    ((step s a).tapes i).blockIndex ≤ (s.tapes i).blockIndex

structure OnTape (t : TapeFile) (cluster : Nat) (i : Fin maxDevices) (s : System) : Prop
    extends InPlace t i s where
  there : (s.regs (.tape, i)).status ≠ deviceNotInstalled
  file : (s.tapes i).fat32Cluster = cluster
  flight : Reads s (.tape, i) → (s.tapes i).blockIndex < t.count

/-- After a message the tape is where it was, or rewound and idle. A command that is new in
    flight is no READBLK at the end of the tape. -/
inductive Follows (i : Fin maxDevices) (s s' : System) : Prop where
  | stays (tape : s'.tapes i = s.tapes i)
      (head : (s'.regs (.tape, i)).data1 = (s.regs (.tape, i)).data1)
      (flight : Busy s' (.tape, i) →
        Busy s (.tape, i) ∧ (s'.regs (.tape, i)).command = (s.regs (.tape, i)).command ∨
          ((s'.regs (.tape, i)).command = readblk → (s.regs (.tape, i)).data1 ≠ eot))
  | rewound (tape : s'.tapes i = { s.tapes i with blockIndex := 0 })
      (head : (s'.regs (.tape, i)).data1 = ts) (idle : ¬ Busy s' (.tape, i))

section
variable {i : Fin maxDevices} {s s' s'' : System}

theorem follows_ite {c : Prop} [Decidable c] (yes : c → Follows i s s')
    (no : ¬ c → Follows i s s'') : Follows i s (if c then s' else s'') := by
  split_ifs with h
  · exact yes h
  · exact no h

theorem follows_answer (follows : Follows i s s') (registers : BitVec 64) :
    Follows i s (s'.answer (.tape, i) registers) := by
  cases follows with
  | stays tape head flight => exact .stays tape head flight
  | rewound tape head idle => exact .rewound tape head idle

theorem follows_same (tape : s'.tapes i = s.tapes i) (regs : (s'.regs (.tape, i)) =
    { s.regs (.tape, i) with mailbox := (s'.regs (.tape, i)).mailbox }) : Follows i s s' := by
  refine .stays tape ?_ ?_
  · rw [regs]
  · intro busy
    left
    unfold Busy at *
    rw [regs] at busy ⊢
    exact ⟨busy, rfl⟩

theorem follows_stops (follows : Follows i s s') :
    (s'.tapes i).blockIndex ≤ (s.tapes i).blockIndex := by
  cases follows with
  | stays tape => rw [tape]
  | rewound tape =>
    rw [tape]
    exact Nat.zero_le _

theorem follows_idle (tape : s'.tapes i = s.tapes i)
    (head : (s'.regs (.tape, i)).data1 = (s.regs (.tape, i)).data1)
    (idle : (s'.regs (.tape, i)).status ≠ deviceBusy) : Follows i s s' :=
  .stays tape head fun busy => absurd busy idle

theorem startTape_regs (t : System) (registers : BitVec 64) (command data0 : BitVec 32) :
    (t.startTape i registers command data0).regs (.tape, i) =
      { t.regs (.tape, i) with command := command, data0 := data0, status := deviceBusy } := by
  unfold System.startTape
  obtain ⟨virtualTimer, armed⟩ := setDeviceTimer_eq ((t.setPort (.tape, i) ⟨registers,
    { t.regs (.tape, i) with command := command, data0 := data0, status := deviceBusy }⟩).answer
      (.tape, i) registers) 1000 .tape i
  dsimp only
  rw [armed]
  simp [System.regs]

theorem follows_start {t : System} (tapes : t.tapes = s.tapes)
    (head : (t.regs (.tape, i)).data1 = (s.regs (.tape, i)).data1) (registers : BitVec 64)
    {command : BitVec 32} (data0 : BitVec 32)
    (allowed : command = readblk → (s.regs (.tape, i)).data1 ≠ eot) :
    Follows i s (t.startTape i registers command data0) := by
  have same := startTape_units i registers command data0 (⟨rfl, rfl, rfl⟩ : SameUnits t t)
  refine .stays ?_ ?_ ?_
  · rw [same.tapes, tapes]
  · rw [startTape_regs]
    exact head
  · intro _
    right
    rw [startTape_regs]
    exact allowed

end

theorem tape_follows (s : System) (i : Fin maxDevices) (registers : BitVec 64) :
    Follows i s (emulatedTapeMailbox s i registers) := by
  obtain ⟨t, marked⟩ : ∃ t, t = s.setRegs (.tape, i) fun r => { r with mailbox := 1 } := ⟨_, rfl⟩
  have regs : t.regs (.tape, i) = { s.regs (.tape, i) with mailbox := 1 } := by
    rw [marked]
    simp [System.regs]
  have tapes : t.tapes = s.tapes := by
    rw [marked]
    rfl
  have head : (t.regs (.tape, i)).data1 = (s.regs (.tape, i)).data1 := by rw [regs]
  have same : Follows i s t := follows_same (congrFun tapes i) (by rw [regs])
  unfold emulatedTapeMailbox
  rw [← marked]
  dsimp only
  apply follows_ite
  · exact fun _ => follows_same rfl rfl
  intro _
  apply follows_ite
  · exact fun _ => follows_answer same registers
  intro _
  apply follows_ite
  · intro _
    refine .rewound ?_ ?_ ?_
    · have units := updateTapeHead_units ((t.setRegs (.tape, i) fun r =>
        { r with command := reset, status := deviceReady }).moveTape i 0) i
      show (updateTapeHead _ i).2.tapes i = _
      rw [units.tapes]
      simp [System.moveTape, System.setTape, System.setRegs, System.setPort, tapes]
    · simp [updateTapeHead, System.moveTape, System.setTape, System.regs]
    · unfold Busy
      simp [updateTapeHead, System.moveTape, System.setTape, System.regs]
  intro _
  apply follows_ite
  · intro _
    apply follows_answer
    apply follows_ite
    · exact fun _ => follows_idle (congrFun tapes i) (by simpa [System.regs] using head)
        (by simp [System.regs])
    · exact fun _ => same
  intro _
  apply follows_ite
  · exact fun _ => follows_answer same registers
  intro _
  apply follows_ite
  · intro _
    apply follows_ite
    · exact fun _ => follows_start tapes head registers _ fun wrong => absurd wrong (by decide)
    · exact fun _ => follows_answer same registers
  intro _
  apply follows_ite
  · intro _
    apply follows_ite
    · exact fun _ => follows_start tapes head registers _ fun wrong => absurd wrong (by decide)
    · exact fun _ => follows_answer same registers
  intro _
  apply follows_ite
  · intro _
    apply follows_ite
    · intro _
      apply follows_ite
      · exact fun _ => follows_idle (congrFun tapes i) (by simpa [System.regs] using head)
          (by simp [System.regs])
      · intro early
        apply follows_start tapes head
        intro _
        rw [← head]
        exact early
    · exact fun _ => follows_answer same registers
  · exact fun _ => follows_idle (congrFun tapes i) (by simpa [System.regs] using head)
      (by simp [System.regs])

/-! The work of the three commands, with exact reads. -/

def TapeFile.next (t : TapeFile) (k : Nat) (command : BitVec 32) : Nat :=
  if command = backblk then k - 1 else if k = t.count then k else k + 1

structure At (t : TapeFile) (i : Fin maxDevices) (k : Nat) (s s' : System) : Prop where
  tape : s'.tapes i = { s.tapes i with blockIndex := k }
  head : (s'.regs (.tape, i)).data1 = t.mark k

section
variable {exact : Fat.Volume → Prop} {cluster : Nat} {t : TapeFile} {i : Fin maxDevices}
  (reads : Exact exact cluster t.bytes)
include reads

theorem moved_at {s : System} (held : exact s.fat) (file : (s.tapes i).fat32Cluster = cluster)
    {k : Nat} (inside : k ≤ t.count) :
    (updateTapeHead (s.moveTape i k) i).1 = 0 ∧ At t i k s (updateTapeHead (s.moveTape i k) i).2 ∧
      (updateTapeHead (s.moveTape i k) i).2.ram = s.ram := by
  have tape : (s.moveTape i k).tapes i = { s.tapes i with blockIndex := k } := by
    simp [System.moveTape, System.setTape]
  unfold updateTapeHead
  rw [tape]
  dsimp only
  cases k with
  | zero =>
    rw [if_pos rfl]
    refine ⟨rfl, ⟨tape, ?_⟩, rfl⟩
    simp [System.regs, TapeFile.mark]
  | succ k =>
    obtain ⟨seek, room⟩ := mark_room t inside
    obtain ⟨v, -, run⟩ := @readlocal_exact _ _ _ (s.moveTape i (k + 1)) reads held _ room
    rw [if_neg (Nat.succ_ne_zero k), seek, file, run, file_mark t inside]
    dsimp only
    rw [if_neg (by have known := mark_known t inside; tauto)]
    refine ⟨rfl, ⟨tape, ?_⟩, rfl⟩
    simp [System.regs]

variable {s : System} (on : OnTape t cluster i s) (held : exact s.fat)
include on held

theorem perform_skips (isSkip : (s.regs (.tape, i)).command = skipblk) :
    At t i (t.next (s.tapes i).blockIndex skipblk) s (perform s (.tape, i)).2 := by
  have notBack : skipblk ≠ backblk := by decide
  have inside := on.inside
  have ends := mark_eot_iff t inside
  rw [← on.head] at ends
  simp only [perform, isSkip, ↓reduceIte, TapeFile.next, if_neg notBack]
  unfold tapeNextBlock
  by_cases last : (s.tapes i).blockIndex = t.count
  · have ended := ends.mpr last
    simp only [if_pos ended, if_pos last]
    exact ⟨rfl, on.head⟩
  · have early := fun ended => last (ends.mp ended)
    simp only [if_neg early, if_neg last]
    rw [index_small t (by omega)]
    exact (moved_at reads held on.file (by omega)).2.1

theorem perform_backs (isBack : (s.regs (.tape, i)).command = backblk) :
    At t i (t.next (s.tapes i).blockIndex backblk) s (perform s (.tape, i)).2 := by
  have notSkip : backblk ≠ skipblk := by decide
  simp only [perform, isBack, ↓reduceIte, TapeFile.next, if_neg notSkip]
  unfold tapePrevBlock
  by_cases first : (s.tapes i).blockIndex > 0
  · have inside := on.inside
    rw [if_pos first]
    exact (moved_at reads held on.file (by omega)).2.1
  · have start : (s.tapes i).blockIndex = 0 := by omega
    rw [if_neg first, start, Nat.zero_sub]
    refine ⟨?_, ?_⟩
    · rw [← start]
    · rw [on.head, start]

theorem readTapeBlock_exact (found : cluster ≠ 0) (inside : (s.tapes i).blockIndex < t.count)
    (p : BitVec 64) :
    ∃ u, readTapeBlock s i p = ((tapeBlocksize : Int), u) ∧ exact u.fat ∧ u.tapes = s.tapes ∧
      ∀ j < tapeBlocksize,
        u.ram (p + BitVec.ofNat 64 j) = (t.block (s.tapes i).blockIndex).getD j 0 := by
  obtain ⟨seek, room⟩ := block_room t inside
  obtain ⟨v, kept, run⟩ := readfile_exact reads held p room
  unfold readTapeBlock
  dsimp only
  rw [on.file, if_neg found, seek, run]
  refine ⟨_, rfl, kept, rfl, ?_⟩
  intro j early
  have size : tapeBlocksize < 2 ^ 64 := by decide
  have offset : (p + BitVec.ofNat 64 j - p).toNat = j := by
    rw [BitVec.add_comm, BitVec.add_sub_cancel, BitVec.toNat_ofNat, Nat.mod_eq_of_lt (by omega)]
  dsimp only
  rw [unwindow, offset, blit_front _ _ early]
  exact file_block t inside early

theorem perform_delivers (found : cluster ≠ 0) (reading : Reads s (.tape, i)) :
    (perform s (.tape, i)).1 = deviceReady ∧
      At t i ((s.tapes i).blockIndex + 1) s (perform s (.tape, i)).2 ∧
      ∀ j < tapeBlocksize,
        (perform s (.tape, i)).2.ram (blockBuffer s (.tape, i) + BitVec.ofNat 64 j) =
          (t.block (s.tapes i).blockIndex).getD j 0 := by
  have isRead : (s.regs (.tape, i)).command = readblk := reading.2
  have inside := on.flight reading
  obtain ⟨u, run, kept, tapes, copied⟩ :=
    readTapeBlock_exact reads on held found inside ((s.regs (.tape, i)).data0.setWidth 64)
  have notSkip : readblk ≠ skipblk := by decide
  have notBack : readblk ≠ backblk := by decide
  have done : ¬ ((tapeBlocksize : Int) < 0) := by decide
  have file : (u.tapes i).fat32Cluster = cluster := by
    rw [tapes]
    exact on.file
  obtain ⟨zero, there, ram⟩ := moved_at reads kept file (Nat.succ_le_of_lt inside)
  simp only [perform, isRead, if_neg notSkip, if_neg notBack, run, if_neg done, tapes,
    index_small t inside]
  refine ⟨?_, ⟨?_, there.head⟩, ?_⟩
  · rw [zero]
    rfl
  · rw [there.tape, tapes]
  · rw [ram]
    exact copied

end

theorem next_le (t : TapeFile) {k : Nat} (inside : k ≤ t.count) (command : BitVec 32) :
    t.next k command ≤ t.count := by
  unfold TapeFile.next
  split_ifs
  · omega
  · exact inside
  · omega

theorem manage_data1 {s : System} {dev : Dev} (busy : Busy s dev)
    (delayed : Delayed dev.1 (s.regs dev).command) :
    ((manage s dev).regs dev).data1 = ((perform s dev).2.regs dev).data1 := by
  obtain ⟨lines, run⟩ := manage_performs busy delayed
  rw [run]
  simp [System.report, System.finish, System.regs]

section
variable {exact : Fat.Volume → Prop} {cluster : Nat} {t : TapeFile} {i : Fin maxDevices}
  {s : System} (on : OnTape t cluster i s)
include on

theorem onTape_same {s' : System} (port : s'.ports (.tape, i) = s.ports (.tape, i))
    (tape : s'.tapes i = s.tapes i) : OnTape t cluster i s' := by
  refine ⟨⟨?_, ?_⟩, ?_, ?_, ?_⟩
  · rw [tape]
    exact on.inside
  · rw [System.regs, port, tape]
    exact on.head
  · rw [System.regs, port]
    exact on.there
  · rw [tape]
    exact on.file
  · unfold Reads Busy System.regs
    rw [port, tape]
    exact on.flight

theorem follows_onTape {s' : System} (follows : Follows i s s')
    (there : (s'.regs (.tape, i)).status ≠ deviceNotInstalled) : OnTape t cluster i s' := by
  cases follows with
  | stays tape head flight =>
    refine ⟨⟨?_, ?_⟩, there, ?_, ?_⟩
    · rw [tape]
      exact on.inside
    · rw [head, tape]
      exact on.head
    · rw [tape]
      exact on.file
    · rintro ⟨busy, isRead⟩
      rw [tape]
      rcases flight busy with ⟨before, same⟩ | taken
      · apply on.flight
        exact ⟨before, same.symm.trans isRead⟩
      · have early := taken isRead
        rw [on.head] at early
        have inside := on.inside
        exact Nat.lt_of_le_of_ne inside fun last => early ((mark_eot_iff t inside).mpr last)
  | rewound tape head idle =>
    refine ⟨⟨?_, ?_⟩, there, ?_, fun reading => absurd reading.1 idle⟩
    · rw [tape]
      exact Nat.zero_le _
    · rw [head, tape]
      rfl
    · rw [tape]
      exact on.file

variable (reads : Exact exact cluster t.bytes) (held : exact s.fat) (found : cluster ≠ 0)
include reads held found

theorem perform_at (busy : Busy s (.tape, i)) (delayed : Delayed .tape (s.regs (.tape, i)).command) :
    At t i (t.next (s.tapes i).blockIndex (s.regs (.tape, i)).command) s (perform s (.tape, i)).2 := by
  rcases delayed with isSkip | isBack | isRead
  · rw [isSkip]
    exact perform_skips reads on held isSkip
  · rw [isBack]
    exact perform_backs reads on held isBack
  · have inside := on.flight ⟨busy, isRead⟩
    have notBack : readblk ≠ backblk := by decide
    rw [isRead, TapeFile.next, if_neg notBack, if_neg (Nat.ne_of_lt inside)]
    exact (perform_delivers reads on held found ⟨busy, isRead⟩).2.1

theorem completed_onTape (busy : Busy s (.tape, i))
    (delayed : Delayed .tape (s.regs (.tape, i)).command)
    (there : ((manage s (.tape, i)).regs (.tape, i)).status ≠ deviceNotInstalled) :
    OnTape t cluster i (manage s (.tape, i)) ∧
      ((s.regs (.tape, i)).data1 = eot →
        ((manage s (.tape, i)).tapes i).blockIndex ≤ (s.tapes i).blockIndex) ∧
      (Reads s (.tape, i) → Delivered t i s (manage s (.tape, i))) := by
  have completed := manage_completes busy delayed
  have moved := perform_at on reads held found busy delayed
  have tape : (manage s (.tape, i)).tapes i = _ := (congrFun completed.tapes i).trans moved.tape
  have head := (manage_data1 busy delayed).trans moved.head
  have idle := completed_idle completed
  refine ⟨⟨⟨?_, ?_⟩, there, ?_, fun reading => absurd reading.1 idle⟩, ?_, ?_⟩
  · rw [tape]
    exact next_le t on.inside _
  · rw [head, tape]
  · rw [tape]
    exact on.file
  · intro ended
    rw [on.head] at ended
    have last := (mark_eot_iff t on.inside).mp ended
    rw [tape, last]
    exact next_le t le_rfl _
  · intro reading
    obtain ⟨ready, here, copied⟩ := perform_delivers reads on held found reading
    refine ⟨?_, ?_, ?_⟩
    · rw [completed.status]
      exact ready
    · rw [congrFun completed.tapes i, here.tape]
    · intro j early spared
      rw [completed.ram, storeReg, store_outside _ _ _ _ (by rw [regList_length]; exact spared)]
      exact copied j early

/-- One action keeps the invariant, and does to the tape what it may. -/
theorem ordered_step (a : Act) : Ordered t i s a ∧ OnTape t cluster i (step s a) := by
  have there := installed_step on.there a
  by_cases concerns : Concerns s a (.tape, i)
  · rcases concerns with ⟨block, r, rfl, given⟩ | ⟨⟨next, rfl⟩, expires⟩
    · have follows : Follows i s (step s (.request (.tape, i) block r)) := by
        have moved := tape_follows { s with ram := storeReg s.ram block r } i block
        cases moved with
        | stays tape head flight => exact .stays tape head flight
        | rewound tape head idle => exact .rewound tape head idle
      refine ⟨⟨?_, fun _ => follows_stops follows⟩, follows_onTape on follows there⟩
      rintro ⟨⟨next, wrong⟩, _⟩
      cases wrong
    · obtain ⟨q, run⟩ := expire_own expires next
      have same : OnTape t cluster i { s with queue := q } := onTape_same on rfl rfl
      rw [step, run] at there
      by_cases busy : Busy s (.tape, i)
      · by_cases delayed : Delayed .tape (s.regs (.tape, i)).command
        · obtain ⟨kept, stops, delivers⟩ :=
            completed_onTape same reads held found busy delayed there
          rw [← run] at kept
          refine ⟨⟨?_, ?_⟩, kept⟩
          · intro _ reading
            rw [step, run]
            obtain ⟨ready, moved, copied⟩ := delivers reading
            exact ⟨ready, moved, copied⟩
          · rw [step, run]
            exact stops
        · have odd := @manage_odd { s with queue := q } (.tape, i) delayed
          rw [odd] at run
          refine ⟨⟨?_, ?_⟩, ?_⟩
          · exact fun _ reading => absurd (reads_delayed reading) delayed
          · rw [step, run]
            exact fun _ => le_rfl
          · rw [step, run]
            exact same
      · have quiet := @manage_idle { s with queue := q } (.tape, i) busy
        rw [quiet] at run
        refine ⟨⟨?_, ?_⟩, ?_⟩
        · exact fun _ reading => absurd reading.1 busy
        · rw [step, run]
          exact fun _ => le_rfl
        · rw [step, run]
          exact same
  · have tape := (step_sameUnit concerns).tape i rfl
    refine ⟨⟨?_, ?_⟩, onTape_same on (step_untouched concerns).port tape⟩
    · exact fun ends => absurd (Or.inr ends) concerns
    · rw [tape]
      exact fun _ => le_rfl

end

theorem init_onTape {b : Boot} {sdOk : Bool} {start : System}
    (init : initSystem b sdOk = some start) (t : TapeFile) {i : Fin maxDevices}
    (there : (start.regs (.tape, i)).status ≠ deviceNotInstalled) :
    (start.tapes i).fat32Cluster ≠ 0 ∧ OnTape t (start.tapes i).fat32Cluster i start := by
  have first : ∀ i, (start.regs (.tape, i)).status = deviceNotInstalled ∨
      (start.tapes i).fat32Cluster ≠ 0 ∧ (start.tapes i).blockIndex = 0 ∧
        (start.regs (.tape, i)).data1 = ts := by
    apply init_invariant init fun s => ∀ i, (s.regs (.tape, i)).status = deviceNotInstalled ∨
      (s.tapes i).fat32Cluster ≠ 0 ∧ (s.tapes i).blockIndex = 0 ∧ (s.regs (.tape, i)).data1 = ts
    · exact fun _ => Or.inl rfl
    · exact fun _ _ first => first
    · exact fun _ _ first => first
    · intro s fileid j r first done k
      unfold initEmulatedTape at done
      generalize Fat.fatGetcluster s.fat (tapeName j) = looked at done
      obtain ⟨cluster, -, rfl⟩ := Option.map_eq_some_iff.mp done
      dsimp only
      by_cases here : k = j
      · subst here
        split_ifs with given known
        · simp [System.regs]
        · right
          simpa [System.regs, System.setRegs, System.setPort, System.setTape, System.install] using given
        · simp [System.regs]
      · have before := first k
        unfold System.regs at before ⊢
        split_ifs
        · simpa [System.setRegs, System.setPort, System.setTape, here] using before
        · simpa [System.setRegs, System.setPort, System.setTape, System.install, here] using before
        · simpa [System.setRegs, System.setPort, System.setTape, here] using before
    · intro s header j r first done k
      have before := first k
      unfold initEmulatedDisk at done
      generalize Fat.fatGetcluster s.fat (diskName j) = looked at done
      obtain ⟨cluster, -, rfl⟩ := Option.map_eq_some_iff.mp done
      unfold System.regs at before ⊢
      dsimp only
      split_ifs
      · simpa [System.setRegs, System.setPort, System.setDisk] using before
      · simpa [System.setRegs, System.setPort, System.setDisk, System.install] using before
      · simpa [System.setRegs, System.setPort, System.setDisk] using before
    · intro s j first k
      have apart : (initEmulatedPrinter s j).ports (.tape, k) = s.ports (.tape, k) :=
        (quiet_setRegs (.printer, j) s _).ports (.tape, k) (by simp)
      unfold System.regs at first ⊢
      rw [apart]
      exact first k
    · exact fun _ first => first
  obtain ⟨found, index, head⟩ := (first i).resolve_left there
  refine ⟨found, ⟨⟨?_, ?_⟩, there, rfl, ?_⟩⟩
  · rw [index]
    exact Nat.zero_le _
  · rw [head, index]
    rfl
  · exact fun reading => absurd reading.1 ((init_quiescent init).1 (.tape, i))

/-- In every run, with exact reads of a well-formed file, a tape is at one of its blocks and shows
    the marker before it, every READBLK that completes delivers the record at that block and goes
    on to the next one, and nothing goes past the end of the tape. -/
theorem tape_in_order {b : Boot} {sdOk : Bool} {start : System}
    (init : initSystem b sdOk = some start) {i : Fin maxDevices}
    (there : (start.regs (.tape, i)).status ≠ deviceNotInstalled) (t : TapeFile)
    {exact : Fat.Volume → Prop} (reads : Exact exact (start.tapes i).fat32Cluster t.bytes)
    (as : List Act) (held : Along step (fun s _ => exact s.fat) start as) :
    InPlace t i (run step start as) ∧ Along step (Ordered t i) start as := by
  obtain ⟨found, on⟩ := init_onTape init t there
  constructor
  · exact (@run_along _ _ step (OnTape t (start.tapes i).fat32Cluster i) _
      (fun s a on held => (ordered_step on reads held found a).2) as start on held).toInPlace
  · exact @along_invariant _ _ step (OnTape t (start.tapes i).fat32Cluster i) _ _
      (fun s a on held => ordered_step on reads held found a) as start on held

theorem reads_along {v : Fat.Volume} (as : List Act) {s : System}
    (kept : Along step (fun s a => ∀ dev, Ends dev s a → ¬ Writes s dev) s as)
    (start : Fat.Ready s.fat ∧ Fat.Alike v s.fat) :
    Along step (fun s _ => Fat.Ready s.fat ∧ Fat.Alike v s.fat) s as := by
  refine @along_invariant _ _ step (fun s => Fat.Ready s.fat ∧ Fat.Alike v s.fat) _ _ ?_ as s start kept
  intro s a held kept
  obtain ⟨ready, alike⟩ := step_keeps kept held.1
  exact ⟨held, ready, Fat.alike_trans held.2 alike⟩

def lettered (c : Byte) (marker : BitVec 32) : Record :=
  ⟨c :: List.replicate 4095 0, marker, by rw [List.length_cons, List.length_replicate]⟩

def shortTape : TapeFile where
  front := [lettered 0x41 eob]
  last := lettered 0x42 eot
  inner r member := by
    rw [List.mem_singleton.mp member]
    exact Or.inl rfl
  ends := rfl
  small := by decide

/-- A FAT32 card with the file `TAPE0` in three clusters of 4096 bytes; here all but that file. -/
def tapeTables : List (Nat × Byte) :=
  [(510, 0x55), (511, 0xAA), (0x1C2, 0xB), (0x1C6, 1),
   (512 + 12, 2), (512 + 13, 8), (512 + 14, 1), (512 + 16, 1), (512 + 36, 1),
   (512 + 82, 0x46), (512 + 83, 0x41), (512 + 84, 0x54),
   (1024 + 8, 0xFF), (1024 + 9, 0xFF), (1024 + 10, 0xFF), (1024 + 11, 0x0F), (1024 + 12, 4),
   (1024 + 16, 5), (1024 + 20, 0xFF), (1024 + 21, 0xFF), (1024 + 22, 0xFF), (1024 + 23, 0x0F),
   (1536, 0x54), (1537, 0x41), (1538, 0x50), (1539, 0x45), (1540, 0x30), (1541, 0x20),
   (1542, 0x20), (1543, 0x20), (1544, 0x20), (1545, 0x20), (1546, 0x20), (1536 + 26, 3)]

def tapeBoot : Boot :=
  { bareBoot with card := ⟨fun a =>
      if 5632 ≤ a then shortTape.bytes.getD (a - 5632) 0 else (tapeTables.lookup a).getD 0,
    fun _ => none, 0⟩ }

theorem tapeBoot_starts : (initSystem tapeBoot true).isSome = true := by decide +kernel

def tapeSystem : System := (initSystem tapeBoot true).get tapeBoot_starts

theorem tape_init : initSystem tapeBoot true = some tapeSystem := (Option.some_get _).symm

theorem tapeSystem_there : (tapeSystem.regs (.tape, 0)).status ≠ deviceNotInstalled := by
  decide +kernel

def tapeVolume : Fat.Volume :=
  (Fat.fatGetpartition (Fat.staticVolume tapeBoot.card tapeBoot.stack)).2

theorem tape_healthy : Healthy tapeBoot 100 :=
  ⟨fun _ _ => rfl, by decide, ⟨by decide, by decide, by decide, by decide, by decide⟩, by decide⟩

theorem tapeVolume_exact :
    Exact (fun v => Fat.Ready v ∧ Fat.Alike tapeVolume v) (tapeSystem.tapes 0).fat32Cluster
      shortTape.bytes := by
  have cluster : (tapeSystem.tapes 0).fat32Cluster = [3, 4, 5].getD 0 0 := by decide +kernel
  have size : tapeVolume.clusterSize = 4096 := by decide
  have clusters : Fat.bases tapeVolume [3, 4, 5] = [5632, 9728, 13824] := by decide
  have length : shortTape.bytes.length = 8204 := file_length shortTape
  have well : Fat.WellFormed tapeVolume 100 := tape_healthy.well
  rw [cluster]
  apply path_exact well
  · exact ⟨by unfold Fat.DataCluster; decide, ⟨by decide, by decide, trivial⟩, by decide⟩
  · rw [length]
    decide
  · intro j inside
    have address : Fat.fileAddr tapeVolume [3, 4, 5] j = 5632 + j := by
      unfold Fat.fileAddr Extents.addr
      rw [size, clusters]
      rcases (by omega : j / 4096 = 0 ∨ j / 4096 = 1 ∨ j / 4096 = 2) with first | second | third
      · rw [first, List.getD_cons_zero]
        omega
      · rw [second, List.getD_cons_succ, List.getD_cons_zero]
        omega
      · rw [third, List.getD_cons_succ, List.getD_cons_succ, List.getD_cons_zero]
        omega
    unfold Fat.fileByte
    rw [address]
    show (if 5632 ≤ 5632 + j then shortTape.bytes.getD (5632 + j - 5632) 0 else _) = _
    rw [if_pos (by omega), Nat.add_sub_cancel_left]

/-- A client of tape 0 has it read a block, waits, and the timer expires; and once more. -/
def tapeReads : List Act :=
  [.request (.tape, 0) 0x10000 ⟨0, readblk, 0x20000, 0, 0⟩, .tick 40000, .expire noTimer,
    .request (.tape, 0) 0x10000 ⟨0, readblk, 0x30000, 0, 0⟩, .tick 80000, .expire noTimer]

theorem tapeReads_held :
    Along step (fun s _ => Fat.Ready s.fat ∧ Fat.Alike tapeVolume s.fat) tapeSystem tapeReads := by
  have none : ∀ i, (tapeSystem.regs (.disk, i)).status = deviceNotInstalled := by decide +kernel
  apply reads_along
  · refine @along_always _ _ step (fun s => ∀ i, (s.regs (.disk, i)).status = deviceNotInstalled)
      _ ?_ tapeReads tapeSystem none
    intro s a absent
    refine ⟨?_, fun i => absent_stays (by simp) (absent i) a⟩
    rintro ⟨c, i⟩ _ ⟨busy, isDisk, _⟩
    cases isDisk
    exact busy_installed busy (absent i)
  · exact init_keeps tape_init (Fat.mount_ready tape_healthy.sound tape_healthy.mounted)

theorem tape_in_order_read :
    InPlace shortTape 0 (run step tapeSystem tapeReads) ∧
      Along step (Ordered shortTape 0) tapeSystem tapeReads ∧
      (run step tapeSystem tapeReads).ram 0x20000 = 0x41 ∧
      (run step tapeSystem tapeReads).ram 0x30000 = 0x42 := by
  obtain ⟨place, ordered⟩ :=
    tape_in_order tape_init tapeSystem_there shortTape tapeVolume_exact tapeReads tapeReads_held
  exact ⟨place, ordered, by decide +kernel⟩

end Emulated
