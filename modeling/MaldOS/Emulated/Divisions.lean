import MaldOS.Emulated.CardKept
import MaldOS.Hal.FatDirectory

/-!
The calls of the file functions that `initSystem` and the devices make, clause by
clause, and the cards on which none of them divides by zero.
-/
namespace Emulated
open Arch ByteMemory Registers ArmTimers EmulatedTimers Runs

def headCalls (s : System) (tape : Fin maxDevices) : List Fat.Call :=
  let t := s.tapes tape
  if t.blockIndex = 0 then []
  else
    let seek := u32 (t.blockIndex * tapeBlocksize + t.blockIndex * 4)
    [.read t.fat32Cluster (fun i => (toBytes 4 (s.locals s.met).toNat).getD i 0) seek 4]

def tapeBlockCalls (s : System) (tape : Fin maxDevices) (buffer : BitVec 64) : List Fat.Call :=
  let t := s.tapes tape
  if t.fat32Cluster = 0 then []
  else
    let blockStart := u32 (t.blockIndex * tapeBlocksize + (t.blockIndex + 1) * 4)
    [.read t.fat32Cluster (window s.ram buffer) blockStart tapeBlocksize]

def tapeCalls (s : System) (i : Fin maxDevices) : List Fat.Call :=
  let r := s.regs (.tape, i)
  if r.status = deviceNotInstalled then []
  else if r.status = deviceBusy then
    if r.command = skipblk then
      if r.data1 = eot then [] else headCalls (s.moveTape i (u32 ((s.tapes i).blockIndex + 1))) i
    else if r.command = backblk then
      if (s.tapes i).blockIndex > 0 then headCalls (s.moveTape i ((s.tapes i).blockIndex - 1)) i
      else []
    else if r.command = readblk then
      let (res, s') := readTapeBlock s i (r.data0.setWidth 64)
      tapeBlockCalls s i (r.data0.setWidth 64) ++
        if res < 0 then [] else headCalls (s'.moveTape i (u32 ((s'.tapes i).blockIndex + 1))) i
    else []
  else []

def diskCalls (s : System) (i : Fin maxDevices) : List Fat.Call :=
  let r := s.regs (.disk, i)
  if r.status = deviceNotInstalled then []
  else if r.status = deviceBusy then
    let d := (s.aimDisk i r.command).disks i
    let buffer := window s.ram (r.data0.setWidth 64)
    if getCommand r.command = seekcyl then []
    else if d.fat32Cluster = 0 then []
    else if getCommand r.command = readblk then
      [.read d.fat32Cluster buffer (seekDiskBlock d) diskBlocksize]
    else if getCommand r.command = writeblk then
      [.write d.fat32Cluster buffer (seekDiskBlock d) diskBlocksize]
    else []
  else []

def manageCalls (s : System) : Dev → List Fat.Call
  | (.printer, _) => []
  | (.tape, i) => tapeCalls s i
  | (.disk, i) => diskCalls s i

/-- The calls of a step. A message brings about none: a tape that is reset goes to its first
    block, which has no head. -/
def stepCalls (s : System) : Act → List Fat.Call
  | .expire next =>
    let (res, next, queue) := s.queue.nextPending (getTOD s.clock) next
    if res > 0 then
      match owner next with
      | some dev => manageCalls { s with queue := queue } dev
      | none => []
    else []
  | _ => []

/-- The calls for one file of `init_emulated_tapes` or `init_emulated_disks`. -/
def fileCalls (s : Fat.Volume) (buffer : Nat → Byte) (fn : List Byte) (length : Nat) :
    List Fat.Call :=
  .find fn ::
    match (Fat.fatGetcluster s fn).1 with
    | some cluster => if cluster ≠ 0 then [.read cluster buffer 0 length] else []
    | none => []

abbrev Round := System → (Nat → Byte) → Fin maxDevices → Option ((Nat → Byte) × System)

/-- The calls of the rounds, up to one that does not end. -/
def roundCalls (round : Round) (name : Fin maxDevices → List Byte) (length : Nat) :
    List (Fin maxDevices) → (Nat → Byte) × System → List Fat.Call
  | [], _ => []
  | i :: is, (buffer, s) =>
    fileCalls s.fat buffer (name i) length ++
      match round s buffer i with
      | some r => roundCalls round name length is r
      | none => []

def initTapesCalls (s : System) (stack : Nat → Byte) : List Fat.Call :=
  let s := { s with installed := Function.update s.installed DeviceClass.tape.line 0 }
  roundCalls initEmulatedTape tapeName 4 (List.finRange maxDevices) (stack, s)

def initDisksCalls (s : System) (stack : Nat → Byte) : List Fat.Call :=
  let s := { s with installed := Function.update s.installed DeviceClass.disk.line 0 }
  roundCalls initEmulatedDisk diskName (8 * 4) (List.finRange maxDevices) (stack, s)

/-- The calls of `initSystem` after that of `fat_getpartition`. -/
def mountCalls (s : System) (stack : Nat → Byte) : List Fat.Call :=
  .list ::
    match Fat.fatListdirectory s.fat with
    | none => []
    | some fat =>
      let s := { s with fat := fat }
      initTapesCalls s stack ++
        match initEmulatedTapes s stack with
        | some s => initDisksCalls s stack
        | none => []

/-! None is left out: the volume goes the same way. -/

theorem head_calls (s : System) (i : Fin maxDevices) :
    (updateTapeHead s i).2.fat = run Fat.issue s.fat (headCalls s i) := by
  unfold updateTapeHead headCalls
  dsimp only
  split_ifs <;> rfl

theorem tapeBlock_calls (s : System) (i : Fin maxDevices) (buffer : BitVec 64) :
    (readTapeBlock s i buffer).2.fat = run Fat.issue s.fat (tapeBlockCalls s i buffer) := by
  unfold readTapeBlock tapeBlockCalls
  dsimp only
  split_ifs <;> rfl

theorem tape_calls (s : System) (i : Fin maxDevices) :
    (manageEmulatedTape s i).fat = run Fat.issue s.fat (tapeCalls s i) := by
  unfold manageEmulatedTape tapeCalls
  dsimp only
  by_cases there : (s.regs (.tape, i)).status = deviceNotInstalled
  · rw [if_pos there, if_pos there]
    rfl
  by_cases busy : (s.regs (.tape, i)).status = deviceBusy
  · rw [if_neg there, if_neg there, if_pos busy, if_pos busy]
    by_cases isSkip : (s.regs (.tape, i)).command = skipblk
    · rw [if_pos isSkip, if_pos isSkip]
      change (tapeNextBlock s i).2.fat = _
      unfold tapeNextBlock
      by_cases ended : (s.regs (.tape, i)).data1 = eot
      · rw [if_pos ended, if_pos ended]
        rfl
      · rw [if_neg ended, if_neg ended]
        exact head_calls _ i
    by_cases isBack : (s.regs (.tape, i)).command = backblk
    · rw [if_neg isSkip, if_neg isSkip, if_pos isBack, if_pos isBack]
      change (tapePrevBlock s i).2.fat = _
      unfold tapePrevBlock
      by_cases first : (s.tapes i).blockIndex > 0
      · rw [if_pos first, if_pos first]
        exact head_calls _ i
      · rw [if_neg first, if_neg first]
        rfl
    by_cases isRead : (s.regs (.tape, i)).command = readblk
    · rw [if_neg isSkip, if_neg isSkip, if_neg isBack, if_neg isBack, if_pos isRead, if_pos isRead,
        run_append, ← tapeBlock_calls]
      generalize readTapeBlock s i _ = r
      by_cases failed : r.1 < 0
      · rw [if_pos failed, if_pos failed]
        rfl
      · rw [if_neg failed, if_neg failed]
        exact head_calls (r.2.moveTape i (u32 ((r.2.tapes i).blockIndex + 1))) i
    · rw [if_neg isSkip, if_neg isSkip, if_neg isBack, if_neg isBack, if_neg isRead, if_neg isRead]
      rfl
  · rw [if_neg there, if_neg there, if_neg busy, if_neg busy]
    rfl

theorem disk_calls (s : System) (i : Fin maxDevices) :
    (manageEmulatedDisk s i).fat = run Fat.issue s.fat (diskCalls s i) := by
  unfold manageEmulatedDisk diskCalls readDiskBlock writeDiskBlock
  dsimp only
  split_ifs <;> rfl

theorem manage_calls (s : System) (dev : Dev) :
    (manage s dev).fat = run Fat.issue s.fat (manageCalls s dev) := by
  obtain ⟨c, i⟩ := dev
  cases c with
  | printer =>
    unfold manage manageEmulatedPrinter
    dsimp only
    split_ifs <;> rfl
  | tape => exact tape_calls s i
  | disk => exact disk_calls s i

theorem step_calls (s : System) (a : Act) : (step s a).fat = run Fat.issue s.fat (stepCalls s a) := by
  cases a with
  | request dev block r => exact mailbox_fat { s with ram := storeReg s.ram block r } dev block
  | expire next =>
    unfold step expire stepCalls manageTimer
    dsimp only
    by_cases expired : (s.queue.nextPending (getTOD s.clock) next).1 > 0
    · rw [if_pos expired, if_pos expired]
      cases owner (s.queue.nextPending (getTOD s.clock) next).2.1 with
      | none => rfl
      | some dev => exact manage_calls _ dev
    · rw [if_neg expired, if_neg expired]
      rfl
  | _ => exact (step_aside s id).fat

/-! The rounds of the init functions. -/

theorem absent_setRegs {s : System} {dev : Dev} {f : DevReg → DevReg} (absent : Absent s)
    (still : (f (s.regs dev)).status = deviceNotInstalled) : Absent (s.setRegs dev f) := by
  intro other device
  by_cases same : other = dev
  · rw [same]
    simpa [System.setRegs, System.setPort, System.regs] using still
  · simpa [System.setRegs, System.setPort, System.regs, same] using absent other device

structure LooksUp (round : Round) (name : Fin maxDevices → List Byte) (length : Nat) : Prop where
  ends : ∀ s buffer i, (round s buffer i).isSome = (Fat.fatGetcluster s.fat (name i)).1.isSome
  fat : ∀ s buffer i r, round s buffer i = some r →
    r.2.fat = run Fat.issue s.fat (fileCalls s.fat buffer (name i) length)
  absent : ∀ s buffer i r, (Fat.fatGetcluster s.fat (name i)).1 = some 0 →
    round s buffer i = some r → Absent s → Absent r.2

theorem tapes_look : LooksUp initEmulatedTape tapeName 4 where
  ends s buffer i := by
    unfold initEmulatedTape
    exact Option.isSome_map
  fat s buffer i r done := by
    unfold initEmulatedTape at done
    unfold fileCalls
    change _ = run Fat.issue (Fat.fatGetcluster s.fat (tapeName i)).2 _
    generalize Fat.fatGetcluster s.fat (tapeName i) = looked at done ⊢
    obtain ⟨cluster, found, rfl⟩ := Option.map_eq_some_iff.mp done
    rw [found]
    dsimp only
    split_ifs <;> rfl
  absent s buffer i r missing done absent := by
    unfold initEmulatedTape at done
    generalize Fat.fatGetcluster s.fat (tapeName i) = looked at done missing
    obtain ⟨cluster, found, rfl⟩ := Option.map_eq_some_iff.mp done
    cases missing.symm.trans found
    dsimp only
    rw [if_neg (by simp)]
    apply absent_setRegs
    · dsimp only
      exact absent_setRegs absent rfl
    · simp [System.regs, System.setRegs, System.setPort]

theorem disks_look : LooksUp initEmulatedDisk diskName (8 * 4) where
  ends s buffer i := by
    unfold initEmulatedDisk
    exact Option.isSome_map
  fat s buffer i r done := by
    unfold initEmulatedDisk at done
    unfold fileCalls
    change _ = run Fat.issue (Fat.fatGetcluster s.fat (diskName i)).2 _
    generalize Fat.fatGetcluster s.fat (diskName i) = looked at done ⊢
    obtain ⟨cluster, found, rfl⟩ := Option.map_eq_some_iff.mp done
    rw [found]
    dsimp only
    split_ifs <;> rfl
  absent s buffer i r missing done absent := by
    unfold initEmulatedDisk at done
    generalize Fat.fatGetcluster s.fat (diskName i) = looked at done missing
    obtain ⟨cluster, found, rfl⟩ := Option.map_eq_some_iff.mp done
    cases missing.symm.trans found
    dsimp only
    rw [if_neg (by simp)]
    apply absent_setRegs
    · dsimp only
      exact absent_setRegs absent rfl
    · simp [System.regs, System.setRegs, System.setPort]

section

variable {round : Round} {name : Fin maxDevices → List Byte} {length : Nat} {c : Sd.Card}

theorem round_calls (looks : LooksUp round name length) (is : List (Fin maxDevices))
    {r r' : (Nat → Byte) × System}
    (done : is.foldlM (fun r i => round r.2 r.1 i) r = some r') :
    r'.2.fat = run Fat.issue r.2.fat (roundCalls round name length is r) := by
  induction is generalizing r with
  | nil =>
    cases done
    rfl
  | cons i is ih =>
    obtain ⟨middle, first, rest⟩ := Option.bind_eq_some_iff.mp done
    dsimp only at first
    unfold roundCalls
    rw [first, run_append, ← looks.fat _ _ _ _ first]
    exact ih rest

theorem round_missing (looks : LooksUp round name length) {s : System} {n : Nat}
    (plain : Fat.Plain c n s.fat) {i : Fin maxDevices} (missing : Fat.lookup c n (name i) = some 0)
    (buffer : Nat → Byte) :
    fileCalls s.fat buffer (name i) length = [.find (name i)] ∧
      ∃ r, round s buffer i = some r ∧ Fat.Plain c (n + 1) r.2.fat ∧ (Absent s → Absent r.2) := by
  have looked := Fat.getcluster_lookup plain (name i)
  have calls : fileCalls s.fat buffer (name i) length = [.find (name i)] := by
    unfold fileCalls
    rw [looked, missing]
    rfl
  obtain ⟨r, done⟩ : ∃ r, round s buffer i = some r := by
    rw [← Option.isSome_iff_exists, looks.ends, looked, missing]
    rfl
  refine ⟨calls, r, done, ?_, ?_⟩
  · rw [looks.fat _ _ _ _ done, calls]
    change Fat.Plain c (n + 1) (Fat.fatGetcluster s.fat (name i)).2
    rw [looked]
    exact Fat.plain_loaded plain
  · apply looks.absent _ _ _ _ _ done
    rw [looked]
    exact missing

theorem rounds_find (looks : LooksUp round name length) (is : List (Fin maxDevices)) {n : Nat}
    {r : (Nat → Byte) × System} (plain : Fat.Plain c n r.2.fat) :
    (∃ call ∈ roundCalls round name length is r, call.Transfers) ↔ Fat.Finds c n (is.map name) := by
  induction is generalizing n r with
  | nil => simp [roundCalls, Fat.Finds]
  | cons i is ih =>
    have looked := Fat.getcluster_lookup plain (name i)
    rcases found : Fat.lookup c n (name i) with _ | _ | cluster
    · have ended : round r.2 r.1 i = none := by
        rw [← Option.not_isSome_iff_eq_none, looks.ends, looked, found]
        simp
      have calls : fileCalls r.2.fat r.1 (name i) length = [.find (name i)] := by
        unfold fileCalls
        rw [looked, found]
      simp [roundCalls, Fat.Finds, found, ended, calls, Fat.Call.Transfers]
    · obtain ⟨calls, r', done, plain', -⟩ := round_missing looks plain found r.1
      have none : ¬ (Fat.Call.find (name i)).Transfers := id
      simp [roundCalls, Fat.Finds, found, done, calls, none, ih plain']
    · have calls : fileCalls r.2.fat r.1 (name i) length =
          [.find (name i), .read (cluster + 1) r.1 0 length] := by
        unfold fileCalls
        rw [looked, found]
        simp
      simp [roundCalls, Fat.Finds, found, calls, Fat.Call.Transfers]

theorem rounds_missing (looks : LooksUp round name length) (is : List (Fin maxDevices)) {n : Nat}
    {r r' : (Nat → Byte) × System} (plain : Fat.Plain c n r.2.fat)
    (done : is.foldlM (fun r i => round r.2 r.1 i) r = some r')
    (none : ¬ Fat.Finds c n (is.map name)) :
    Fat.Missing c n (is.map name) ∧ Fat.Plain c (n + is.length) r'.2.fat ∧
      (Absent r.2 → Absent r'.2) := by
  induction is generalizing n r with
  | nil =>
    cases done
    exact ⟨trivial, plain, id⟩
  | cons i is ih =>
    have looked := Fat.getcluster_lookup plain (name i)
    obtain ⟨middle, first, rest⟩ := Option.bind_eq_some_iff.mp done
    dsimp only at first
    rcases found : Fat.lookup c n (name i) with _ | _ | cluster
    · have ends := looks.ends r.2 r.1 i
      rw [first, looked, found] at ends
      cases ends
    · obtain ⟨calls, r'', done', plain', absent⟩ := round_missing looks plain found r.1
      cases first.symm.trans done'
      have none' : ¬ Fat.Finds c (n + 1) (is.map name) := by
        simpa [Fat.Finds, found] using none
      obtain ⟨missing, plain'', absent'⟩ := ih plain' rest none'
      refine ⟨⟨found, missing⟩, ?_, absent' ∘ absent⟩
      have later : n + (is.length + 1) = n + 1 + is.length := by omega
      rw [List.length_cons, later]
      exact plain''
    · exact absurd (by simp [Fat.Finds, found]) none

theorem missing_ends (looks : LooksUp round name length) (is : List (Fin maxDevices)) {n : Nat}
    {r : (Nat → Byte) × System} (plain : Fat.Plain c n r.2.fat)
    (missing : Fat.Missing c n (is.map name)) :
    ∃ r', is.foldlM (fun r i => round r.2 r.1 i) r = some r' := by
  induction is generalizing n r with
  | nil => exact ⟨r, rfl⟩
  | cons i is ih =>
    obtain ⟨-, r', done, plain', -⟩ := round_missing looks plain missing.1 r.1
    obtain ⟨r'', rest⟩ := ih plain' missing.2
    exact ⟨r'', Option.bind_eq_some_iff.mpr ⟨r', done, rest⟩⟩

end

def deviceFiles : List (List Byte) :=
  (List.finRange maxDevices).map tapeName ++ (List.finRange maxDevices).map diskName

theorem mount_calls {s s' : System} {stack : Nat → Byte}
    (done : (Fat.fatListdirectory s.fat).bind (fun fat =>
      (initEmulatedTapes { s with fat := fat } stack).bind fun s => initEmulatedDisks s stack) =
        some s') :
    s'.fat = run Fat.issue s.fat (mountCalls s stack) := by
  obtain ⟨fat, listed, rest⟩ := Option.bind_eq_some_iff.mp done
  obtain ⟨t, tapes, disks⟩ := Option.bind_eq_some_iff.mp rest
  obtain ⟨r, tapes', rfl⟩ := Option.map_eq_some_iff.mp tapes
  obtain ⟨r', disks', rfl⟩ := Option.map_eq_some_iff.mp disks
  have first : Fat.issue s.fat .list = fat := by
    unfold Fat.issue
    rw [listed]
    rfl
  unfold mountCalls
  rw [listed]
  dsimp only
  rw [tapes, run, first, run_append]
  unfold initTapesCalls
  rw [← round_calls tapes_look _ tapes']
  exact round_calls disks_look _ disks'

theorem tapes_missing {c : Sd.Card} {s : System} {stack : Nat → Byte} {n : Nat}
    (plain : Fat.Plain c n s.fat)
    (none : ¬ Fat.Finds c n ((List.finRange maxDevices).map tapeName)) {t : System}
    (done : initEmulatedTapes s stack = some t) :
    Fat.Missing c n ((List.finRange maxDevices).map tapeName) ∧
      Fat.Plain c (n + maxDevices) t.fat ∧ (Absent s → Absent t) := by
  obtain ⟨r, rounds, rfl⟩ := Option.map_eq_some_iff.mp done
  exact rounds_missing tapes_look _ plain rounds none

theorem mountCalls_reads {c : Sd.Card} {s : System} {n : Nat} (plain : Fat.Plain c n s.fat)
    (stack : Nat → Byte) :
    (∃ call ∈ mountCalls s stack, call.Transfers) ↔
      Fat.Listed c n ∧ Fat.Finds c (n + 1) deviceFiles := by
  have list : ¬ Fat.Call.list.Transfers := id
  obtain ⟨ends, after⟩ := Fat.listdirectory_listed plain
  rw [← ends]
  unfold mountCalls deviceFiles
  cases listed : Fat.fatListdirectory s.fat with
  | none => simp [list]
  | some fat =>
    have plain' : Fat.Plain c (n + 1) fat := after fat listed
    have tapes : (∃ call ∈ initTapesCalls { s with fat := fat } stack, call.Transfers) ↔
        Fat.Finds c (n + 1) ((List.finRange maxDevices).map tapeName) :=
      rounds_find tapes_look _ plain'
    rw [Fat.finds_append]
    by_cases found : Fat.Finds c (n + 1) ((List.finRange maxDevices).map tapeName)
    · obtain ⟨call, member, transfers⟩ := tapes.mpr found
      refine iff_of_true ⟨call, ?_, transfers⟩ ⟨rfl, Or.inl found⟩
      exact List.mem_cons_of_mem _ (List.mem_append_left _ member)
    · have unread : ∀ call ∈ initTapesCalls { s with fat := fat } stack, ¬ call.Transfers :=
        fun call member transfers => found (tapes.mp ⟨call, member, transfers⟩)
      have only : ∀ rest : List Fat.Call,
          (∃ call ∈ .list :: (initTapesCalls { s with fat := fat } stack ++ rest), call.Transfers) ↔
            ∃ call ∈ rest, call.Transfers := by
        intro rest
        simp only [List.mem_cons, List.mem_append]
        constructor
        · rintro ⟨call, rfl | member | member, transfers⟩
          · exact absurd transfers list
          · exact absurd transfers (unread call member)
          · exact ⟨call, member, transfers⟩
        · rintro ⟨call, member, transfers⟩
          exact ⟨call, Or.inr (Or.inr member), transfers⟩
      dsimp only
      rw [only]
      cases done : initEmulatedTapes { s with fat := fat } stack with
      | none =>
        refine iff_of_false (by simp) ?_
        rintro ⟨-, here | ⟨missing, -⟩⟩
        · exact found here
        · obtain ⟨r, ended⟩ := missing_ends tapes_look (List.finRange maxDevices) (r := (stack,
            { s with
              fat := fat
              installed := Function.update s.installed DeviceClass.tape.line 0 })) plain' missing
          rw [initEmulatedTapes, ended] at done
          cases done
      | some t =>
        obtain ⟨missing, plain'', -⟩ := tapes_missing plain' found done
        have disks : (∃ call ∈ initDisksCalls t stack, call.Transfers) ↔
            Fat.Finds c (n + 1 + maxDevices) ((List.finRange maxDevices).map diskName) :=
          rounds_find disks_look _ plain''
        rw [disks]
        simp [found, missing]

theorem mount_absent {c : Sd.Card} {s s' : System} {stack : Nat → Byte} {n : Nat}
    (plain : Fat.Plain c n s.fat) (absent : Absent s)
    (unread : ∀ call ∈ mountCalls s stack, ¬ call.Transfers)
    (done : (Fat.fatListdirectory s.fat).bind (fun fat =>
      (initEmulatedTapes { s with fat := fat } stack).bind fun s => initEmulatedDisks s stack) =
        some s') : Absent s' := by
  obtain ⟨fat, listed, rest⟩ := Option.bind_eq_some_iff.mp done
  obtain ⟨t, tapes, disks⟩ := Option.bind_eq_some_iff.mp rest
  obtain ⟨ends, after⟩ := Fat.listdirectory_listed plain
  have plain' : Fat.Plain c (n + 1) fat := after fat listed
  have none : ¬ Fat.Finds c (n + 1) deviceFiles := by
    intro finds
    obtain ⟨call, member, transfers⟩ := (mountCalls_reads plain stack).mpr
      ⟨ends.mp (by rw [listed]; rfl), finds⟩
    exact unread call member transfers
  unfold deviceFiles at none
  rw [Fat.finds_append, not_or] at none
  obtain ⟨missing, plain'', absent'⟩ :=
    tapes_missing (s := { s with fat := fat }) plain' none.1 tapes
  obtain ⟨r, rounds, rfl⟩ := Option.map_eq_some_iff.mp disks
  have none' : ¬ Fat.Finds c (n + 1 + maxDevices) ((List.finRange maxDevices).map diskName) := by
    intro finds
    exact none.2 ⟨missing, by simpa using finds⟩
  exact (rounds_missing disks_look _ (r := (stack,
    { t with installed := Function.update t.installed DeviceClass.disk.line 0 }))
      plain'' rounds none').2.2 (absent' absent)

/-! The whole run. -/

def mounted (b : Boot) : System := { b.start with fat := (Fat.fatGetpartition b.start.fat).2 }

/-- No file function divides by zero, neither at the start nor in any run after it. -/
structure NeverByZero (b : Boot) : Prop where
  partition : 0 ∉ Fat.mountDivisors b.start.fat
  mount : Fat.Divides (mounted b).fat (mountCalls (mounted b) b.stack)
  later : ∀ start, initSystem b true = some start → ∀ as,
    Along step (fun s a => Fat.Divides s.fat (stepCalls s a)) start as

/-- A tape or disk file is found on the card before a scan leaves the directory. -/
def FindsFile (c : Sd.Card) : Prop :=
  Fat.Listed c (Fat.mountIssued c) ∧ Fat.Finds c (Fat.mountIssued c + 1) deviceFiles

theorem start_absent (b : Boot) : Absent b.start := fun _ _ => rfl

theorem printers_absent {s : System} (absent : Absent s) :
    Absent (initTimers (initEmulatedPrinters s)) := by
  intro dev other
  obtain ⟨c, i⟩ := dev
  cases c with
  | printer => exact absurd rfl other
  | tape => exact absent (.tape, i) other
  | disk => exact absent (.disk, i) other

theorem absent_calls {s : System} (absent : Absent s) (a : Act) : stepCalls s a = [] := by
  cases a with
  | expire next =>
    unfold stepCalls
    dsimp only
    split_ifs
    · cases owner (s.queue.nextPending (getTOD s.clock) next).2.1 with
      | none => rfl
      | some dev =>
        obtain ⟨c, i⟩ := dev
        cases c with
        | printer => rfl
        | tape => exact if_pos (absent (.tape, i) (by simp))
        | disk => exact if_pos (absent (.disk, i) (by simp))
    · rfl
  | _ => rfl

theorem cluster_size {c : Sd.Card} (bootable : Fat.Bootable c) (some : Fat.bootSpc c ≠ 0) :
    u32 (Fat.bootSector c * Fat.bootSpc c) ≠ 0 := by
  have sector : Fat.bootSector c < 256 ^ 2 := Fat.word_lt 2 _ _
  have spc : Fat.bootSpc c < 256 ^ 1 := Fat.word_lt 1 _ _
  have bound : Fat.bootSector c * Fat.bootSpc c < 256 ^ 2 * 256 ^ 1 := Nat.mul_lt_mul'' sector spc
  rw [u32_of_lt (by omega)]
  exact Nat.mul_ne_zero bootable.sector some

theorem init_calls {b : Boot} {start : System} (init : initSystem b true = some start) :
    start.fat = run Fat.issue (mounted b).fat (mountCalls (mounted b) b.stack) := by
  obtain ⟨s, done, rfl⟩ := Option.map_eq_some_iff.mp init
  change s.fat = _
  exact mount_calls done

structure Sized (c : Sd.Card) (s : Fat.Volume) : Prop where
  sector : s.bytesPerSector = Fat.bootSector c
  spc : s.spc = Fat.bootSpc c

theorem sized_divides {c : Sd.Card} (bootable : Fat.Bootable c) (some : Fat.bootSpc c ≠ 0)
    {s : Fat.Volume} (sized : Sized c s) (calls : List Fat.Call) : Fat.Divides s calls := by
  rw [Fat.divides_run_iff]
  intro call _
  rw [sized.sector, sized.spc]
  exact ⟨bootable.sector, fun _ => cluster_size bootable some⟩

theorem sized_run {c : Sd.Card} {s : Fat.Volume} (sized : Sized c s) (calls : List Fat.Call) :
    Sized c (run Fat.issue s calls) :=
  ⟨(Fat.run_same calls s).1.trans sized.sector, (Fat.run_spc calls s).trans sized.spc⟩

theorem never_of_sized {b : Boot} (bootable : Fat.Bootable b.card) (some : Fat.bootSpc b.card ≠ 0) :
    NeverByZero b := by
  have plain := Fat.mounted_plain (Fat.mount_bootable b.stack bootable)
  have sized : Sized b.card (mounted b).fat := ⟨plain.sector, Fat.plain_spc plain⟩
  refine ⟨Fat.mount_divisors _, sized_divides bootable some sized _, ?_⟩
  intro start init as
  apply @along_always _ _ step fun s => Sized b.card s.fat
  · intro s a sized
    rw [step_calls]
    exact ⟨sized_divides bootable some sized _, sized_run sized _⟩
  · rw [init_calls init]
    exact sized_run sized _

theorem never_of_missing {b : Boot} (bootable : Fat.Bootable b.card) (none : ¬ FindsFile b.card) :
    NeverByZero b := by
  have plain := Fat.mounted_plain (Fat.mount_bootable b.stack bootable)
  have unread : ∀ call ∈ mountCalls (mounted b) b.stack, ¬ call.Transfers := by
    intro call member transfers
    exact none ((mountCalls_reads (s := mounted b) plain b.stack).mp ⟨call, member, transfers⟩)
  refine ⟨Fat.mount_divisors _, ?_, ?_⟩
  · rw [Fat.divides_run_iff]
    intro call member
    refine ⟨?_, fun transfers => absurd transfers (unread call member)⟩
    rw [show (mounted b).fat.bytesPerSector = Fat.bootSector b.card from plain.sector]
    exact bootable.sector
  · intro start init as
    obtain ⟨s, done, rfl⟩ := Option.map_eq_some_iff.mp init
    have absent : Absent s := mount_absent (s := mounted b) plain (start_absent b) unread done
    apply @along_always _ _ step Absent
    · intro s a absent
      rw [absent_calls absent]
      exact ⟨trivial, absent_step absent a⟩
    · exact printers_absent absent

/-- The start and all that follows are free of divisions by zero exactly if the card can be booted
    from and has a cluster size, which no one asks for on a card without tapes and disks. -/
theorem never_by_zero_iff (b : Boot) :
    NeverByZero b ↔ Fat.Bootable b.card ∧ (Fat.bootSpc b.card ≠ 0 ∨ ¬ FindsFile b.card) := by
  constructor
  · rintro ⟨-, mount, -⟩
    rw [Fat.divides_run_iff] at mount
    have bootable : Fat.Bootable b.card :=
      Fat.bootable_of_mount b.stack (mount .list (by simp [mountCalls])).1
    have plain := Fat.mounted_plain (Fat.mount_bootable b.stack bootable)
    refine ⟨bootable, ?_⟩
    by_contra both
    rw [not_or, not_not, not_not] at both
    obtain ⟨call, member, transfers⟩ :=
      (mountCalls_reads (s := mounted b) plain b.stack).mpr both.2
    have size := (mount call member).2 transfers
    rw [show (mounted b).fat.spc = Fat.bootSpc b.card from Fat.plain_spc plain, both.1] at size
    exact size rfl
  · rintro ⟨bootable, some | none⟩
    · exact never_of_sized bootable some
    · exact never_of_missing bootable none

/-- A blank card is not booted from, and the listing divides by zero. -/
theorem blank_card_by_zero :
    bareBoot.card.bytes = (fun _ => 0) ∧ (∀ n, bareBoot.card.fault n = none) ∧
      ¬ NeverByZero bareBoot := by
  refine ⟨rfl, fun _ => rfl, ?_⟩
  rintro ⟨-, mount, -⟩
  rw [Fat.divides_run_iff] at mount
  have bootable : Fat.Bootable bareBoot.card :=
    Fat.bootable_of_mount bareBoot.stack (mount .list (by simp [mountCalls])).1
  exact absurd bootable.magic.1 (by decide)

end Emulated
