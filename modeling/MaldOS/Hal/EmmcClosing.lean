import MaldOS.Hal.EmmcBlocks

/-!
Whether an open-ended transfer is closed with CMD_STOP_TRANS. That command stands
behind the loop over the blocks, and the loop returns from its middle.
-/
namespace Emmc
open Polling

def Multi (code : Word) : Prop := code = cmdReadMulti ∨ code = cmdWriteMulti

/-- The command before `l` was done: its response is read before the next command. -/
def started : List Event → Bool
  | [] => false
  | .read .resp0 _ :: _ => true
  | .write .cmdtm _ :: _ => false
  | _ :: rest => started rest

/-- Each multiple transfer that started, and without a number of blocks, is stopped. -/
def Closed (l : List Event) : Prop :=
  ∀ before code after, l = before ++ .write .cmdtm code :: after → Multi code →
    cmdSetBlockcnt ∉ commands before → started after → cmdStopTrans ∈ commands after

def OpenEnded (num : Word) (s : Host) : Prop :=
  blocks num > 1 ∧ s.ccs = true ∧ s.setBlkcnt = false

/-- The interrupt comes for each of the blocks, and then the command line is free. -/
def Accepts (rw : ReadWrite) : Nat → Nat → (Nat → Word) × Host → Prop
  | 0, _, p => (sdStatus srCmdInhibit (p.2.setErr sdOk)).1 = 0
  | left + 1, c, p =>
    (sdInt (ready rw) p.2).1 = 0 ∧
      Accepts rw left (c + 1) (exchangeBlock rw c (p.1, (sdInt (ready rw) p.2).2))

theorem started_idle {idle : List Event} (quiet : AllIdle idle) (l : List Event) :
    started (idle ++ l) = started l := by
  induction idle with
  | nil => rfl
  | cons e idle ih =>
    have head : Idle e := quiet e List.mem_cons_self
    have tail := ih fun f member => quiet f (List.mem_cons_of_mem _ member)
    cases e with
    | read r value => rcases head with rfl | rfl <;> exact tail
    | write r value =>
      have interrupt : r = .interrupt := head
      subst interrupt
      exact tail
    | exchange _ _ => exact absurd head id
    | wait _ => exact tail

theorem command_mem {l before after : List Event} {code : Word}
    (split : l = before ++ .write .cmdtm code :: after) : code ∈ commands l := by
  rw [split, commands_append]
  exact List.mem_append_right _ List.mem_cons_self

theorem closed_none {l : List Event} (none : ∀ code ∈ commands l, ¬ Multi code) : Closed l :=
  fun _ code _ split multi _ _ => absurd multi (none code (command_mem split))

theorem split_once {a b before after : List Event} {m code : Word}
    (noneBefore : ∀ code ∈ commands a, ¬ Multi code) (noneAfter : ∀ code ∈ commands b, ¬ Multi code)
    (split : a ++ .write .cmdtm m :: b = before ++ .write .cmdtm code :: after)
    (multi : Multi code) : before = a ∧ after = b := by
  rcases List.append_eq_append_iff.mp split with ⟨x, first, second⟩ | ⟨x, first, second⟩
  · cases x with
    | nil =>
      rw [List.append_nil] at first
      exact ⟨first, ((List.cons.inj second).2).symm⟩
    | cons e x => exact absurd multi (noneAfter code (command_mem (List.cons.inj second).2))
  · cases x with
    | nil =>
      rw [List.append_nil] at first
      exact ⟨first.symm, (List.cons.inj second).2⟩
    | cons e x =>
      rw [← (List.cons.inj second).1] at first
      exact absurd multi (noneBefore code (command_mem first))

theorem closed_once {a b : List Event} {m : Word} (multi : Multi m)
    (noneBefore : ∀ code ∈ commands a, ¬ Multi code)
    (noneAfter : ∀ code ∈ commands b, ¬ Multi code) :
    Closed (a ++ .write .cmdtm m :: b) ↔
      (cmdSetBlockcnt ∉ commands a → started b → cmdStopTrans ∈ commands b) := by
  constructor
  · exact fun closed => closed a m b rfl multi
  · intro stops before code after split multiCode
    obtain ⟨rfl, rfl⟩ := split_once noneBefore noneAfter split multiCode
    exact stops

theorem setBlockcnt_single : ¬ Multi cmdSetBlockcnt := by
  unfold Multi
  decide

theorem single_not_multi (rw : ReadWrite) : ¬ Multi (cmdSingle rw) := by
  unfold Multi
  cases rw <;> decide

theorem multi_multi (rw : ReadWrite) : Multi (cmdMulti rw) := by
  cases rw
  · exact .inl rfl
  · exact .inr rfl

theorem accepts_iff {rw : ReadWrite} {s : Host} (lba : Word) (left c : Nat) (buf : Nat → Word)
    (ccs : s.ccs = true) : Accepts rw left c (buf, s) ↔
      (blockLoop lba rw left c (buf, s)).1 = true ∧
        (sdStatus srCmdInhibit ((blockLoop lba rw left c (buf, s)).2.2.setErr sdOk)).1 = 0 := by
  induction left generalizing c buf s with
  | zero => exact (and_iff_right rfl).symm
  | succ left ih =>
    have same : askBlock lba rw c s = s := if_pos ccs
    rw [blockLoop]
    dsimp only
    rw [same, if_neg (by rw [ccs]; exact fun both => Bool.noConfusion both.1)]
    unfold Accepts
    dsimp only
    by_cases unready : (sdInt (ready rw) s).1 ≠ 0
    · rw [if_pos unready]
      exact ⟨fun both => absurd both.1 unready, fun both => Bool.noConfusion both.1⟩
    · have kept := (sdInt_quiet (ready rw) s).keeps.trans
        (exchangeBlock_spec rw c (buf, (sdInt (ready rw) s).2)).2.2
      rw [if_neg unready, and_iff_right (not_not.mp unready)]
      generalize exchangeBlock rw c (buf, (sdInt (ready rw) s).2) = q at kept ⊢
      exact ih (c + 1) q.1 (kept.ccs.trans ccs)

theorem head_not_multi {head : List Event} (codes : ∀ code ∈ commands head, code = cmdSetBlockcnt) :
    ∀ code ∈ commands head, ¬ Multi code := by
  intro code member
  rw [codes code member]
  exact setBlockcnt_single

theorem failed_closed {num lba : Word} {rw : ReadWrite} {head l : List Event}
    (codes : ∀ code ∈ commands head, code = cmdSetBlockcnt)
    (given : Given (cmdStart num rw) lba l) : Closed (head ++ l) := by
  obtain ⟨before, after, idle, idleAfter, rfl⟩ := given
  have none : ∀ code ∈ commands (head ++ (before ++ [.write .arg1 lba])), ¬ Multi code := by
    rw [commands_append, commands_append, commands_idle idle]
    simpa [commands, command] using head_not_multi codes
  have whole : head ++ (before ++ .write .arg1 lba :: .write .cmdtm (cmdStart num rw) :: after) =
      (head ++ (before ++ [.write .arg1 lba])) ++ .write .cmdtm (cmdStart num rw) :: after := by
    simp
  rw [whole]
  unfold cmdStart
  split_ifs
  · refine closed_none fun code member => ?_
    rw [commands_append] at member
    rcases List.mem_append.mp member with first | last
    · exact none code first
    · change code ∈ cmdSingle rw :: commands after at last
      rw [commands_idle idleAfter] at last
      rw [List.mem_singleton.mp last]
      exact single_not_multi rw
  · rw [closed_once (multi_multi rw) none (by rw [commands_idle idleAfter]; exact nofun)]
    intro _ runs
    rw [← List.append_nil after, started_idle idleAfter] at runs
    cases runs

/-- A transfer that started: it is closed if the card knows the number of blocks, or with
    the command in the log `tail` behind the loop. -/
theorem started_closed_iff {num lba : Word} {rw : ReadWrite} {s : Host}
    {head l loop tail : List Event} {size : Word} (several : num ≠ 1)
    (told : commands head = if counted num s then [cmdSetBlockcnt] else [])
    (done : Done (cmdStart num rw) lba l) (silent : commands loop = [])
    (codes : ∀ code ∈ commands tail, ¬ Multi code) :
    Closed (head ++ .write .blksizecnt size :: l ++ (loop ++ tail)) ↔
      (counted num s = false → cmdStopTrans ∈ commands tail) := by
  obtain ⟨_, value, ⟨before, after, idle, idleAfter, rfl⟩, rfl⟩ := done
  have whole : head ++ .write .blksizecnt size :: ((before ++ .write .arg1 lba ::
      .write .cmdtm (cmdStart num rw) :: after) ++ [.read .resp0 value]) ++ (loop ++ tail) =
      (head ++ .write .blksizecnt size :: (before ++ [.write .arg1 lba])) ++
        .write .cmdtm (cmdStart num rw) :: (after ++ .read .resp0 value :: (loop ++ tail)) := by
    simp
  have codesBefore : commands (head ++ .write .blksizecnt size :: (before ++ [.write .arg1 lba])) =
      commands head := by
    rw [commands_append]
    change commands head ++ commands (before ++ [.write .arg1 lba]) = _
    rw [commands_append, commands_idle idle]
    exact List.append_nil _
  have codesAfter : commands (after ++ .read .resp0 value :: (loop ++ tail)) = commands tail := by
    rw [commands_append, commands_idle idleAfter]
    change commands (loop ++ tail) = _
    rw [commands_append, silent]
    rfl
  have starts : started (after ++ .read .resp0 value :: (loop ++ tail)) = true :=
    started_idle idleAfter _
  have onlyCount := head_not_multi (told_codes told)
  rw [whole, show cmdStart num rw = cmdMulti rw from if_neg several,
    closed_once (multi_multi rw) (by rwa [codesBefore]) (by rwa [codesAfter]), codesBefore,
    codesAfter, told]
  cases counted num s with
  | false => simp [starts]
  | true => simp

theorem single_closed {num lba : Word} {rw : ReadWrite} {s : Host} {head l loop tail : List Event}
    {size : Word} (single : num = 1)
    (told : commands head = if counted num s then [cmdSetBlockcnt] else [])
    (done : Done (cmdStart num rw) lba l) (silent : commands loop = [])
    (codes : ∀ code ∈ commands tail, ¬ Multi code) :
    Closed (head ++ .write .blksizecnt size :: l ++ (loop ++ tail)) := by
  refine closed_none fun code member => ?_
  rw [commands_append, commands_append loop, silent, List.nil_append, commands_append] at member
  rcases List.mem_append.mp member with first | last
  · rcases List.mem_append.mp first with count | asked
    · exact head_not_multi (told_codes told) code count
    · change code ∈ commands l at asked
      rw [(done_log done).1, List.mem_singleton] at asked
      rw [asked, show cmdStart num rw = cmdSingle rw from if_pos single]
      exact single_not_multi rw
  · exact codes code last

theorem stop_not_multi : ¬ Multi cmdStopTrans := by
  unfold Multi
  decide

theorem blocks_several {num : Word} : blocks num ≠ 1 ↔ blocks num > 1 := by
  unfold blocks
  split_ifs <;> bv_omega

theorem transfer_tail {lba num : Word} {rw : ReadWrite} {s t : Host} (buf : Nat → Word)
    (start : startTransfer lba (blocks num) rw s = (true, t)) : ∃ loop tail,
    (sdTransferblock lba buf num rw s).2.2.log = t.log ++ (loop ++ tail) ∧
    (∀ code ∈ commands loop, t.ccs = false ∧ code = cmdSingle rw) ∧
    (∀ code ∈ commands tail, ¬ Multi code) ∧
    (blocks num > 1 → t.ccs = true → t.setBlkcnt = false →
      (cmdStopTrans ∈ commands tail ↔ Accepts rw (blocks num).toNat 0 (buf, t))) := by
  obtain ⟨count, m, rest, looped⟩ := blockLoop_traced lba rw (blocks num).toNat 0 buf t
  have accepts := @accepts_iff rw t lba (blocks num).toNat 0 buf
  have loggedLoop := looped.log
  have kept := looped.keeps
  rcases loop : blockLoop lba rw (blocks num).toNat 0 (buf, t) with ⟨ok, buf', u⟩
  rw [loop] at accepts loggedLoop kept
  cases ok with
  | false =>
    rw [transfer_broken start loop]
    refine ⟨m ++ rest, [], ?_, looped_commands looped, nofun, fun _ ccs _ => ?_⟩
    · rw [List.append_nil]
      exact loggedLoop
    · rw [accepts ccs]
      exact ⟨nofun, fun both => Bool.noConfusion both.1⟩
  | true =>
    obtain ⟨tail, logged, _, codes, stops⟩ := stopTransfer_traced (blocks num) u
    rw [transfer_complete start loop]
    refine ⟨m ++ rest, tail, ?_, looped_commands looped,
      fun code member => by rw [codes code member]; exact stop_not_multi,
      fun several ccs none => ?_⟩
    · dsimp only at loggedLoop ⊢
      rw [logged, loggedLoop, List.append_assoc]
    · rw [accepts ccs, and_iff_right rfl]
      exact stops several (kept.ccs.trans ccs) (kept.setBlkcnt.trans none)

/-- The transfer is closed just when its start leaves none open or all of it goes through. -/
theorem sdTransferblock_closes_iff (lba : Word) (buf : Nat → Word) (num : Word) (rw : ReadWrite)
    (s : Host) : Closed (callLog lba buf num rw s) ↔
      (OpenEnded num s → (startTransfer lba (blocks num) rw s).1 = true →
        Accepts rw (blocks num).toNat 0 (buf, (startTransfer lba (blocks num) rw s).2)) := by
  have begins := startTransfer_start lba (blocks num) rw s
  unfold callLog
  rcases start : startTransfer lba (blocks num) rw s with ⟨goesOn, t⟩
  rw [start] at begins
  cases begins with
  | @unasked _ l logged _ codes _ =>
    rw [transfer_unstarted buf start, logged, List.drop_left]
    exact iff_of_true (closed_none (head_not_multi codes)) nofun
  | @failed _ head l logged _ codes given _ =>
    rw [transfer_unstarted buf start, logged, List.drop_left]
    exact iff_of_true (failed_closed codes given) nofun
  | @started _ head l ccs logged _ told done keeps =>
    obtain ⟨loop, tail, loggedTail, single, codes, stops⟩ := transfer_tail buf start
    have silent : commands loop = [] := by
      refine List.eq_nil_iff_forall_not_mem.mpr fun code member => ?_
      have off := (single code member).1
      rw [keeps.ccs, ccs] at off
      cases off
    rw [loggedTail, logged, List.append_assoc, List.drop_left]
    by_cases several : blocks num = 1
    · refine iff_of_true (single_closed several told done silent codes) fun ends => ?_
      exact absurd several (blocks_several.mpr ends.1)
    · have many := blocks_several.mp several
      have counts : counted (blocks num) s = s.setBlkcnt := by
        unfold counted
        rw [decide_eq_true many, Bool.true_and]
      rw [started_closed_iff several told done silent codes, counts]
      constructor
      · intro stopped ends _
        exact (stops many (keeps.ccs.trans ccs) (keeps.setBlkcnt.trans ends.2.2)).mp
          (stopped ends.2.2)
      · intro accepts none
        exact (stops many (keeps.ccs.trans ccs) (keeps.setBlkcnt.trans none)).mpr
          (accepts ⟨many, ccs, none⟩ rfl)
  | @bytewise _ idle off quiet logged keeps =>
    obtain ⟨loop, tail, loggedTail, single, codes, _⟩ := transfer_tail buf start
    rw [loggedTail, logged, List.append_assoc, List.drop_left]
    refine iff_of_true (closed_none fun code member => ?_) fun ends => ?_
    · rw [commands_append, commands_append, commands_append, commands_idle quiet] at member
      rcases List.mem_append.mp member with size | later
      · cases size
      · rcases List.mem_append.mp later with asked | last
        · rw [(single code asked).2]
          exact single_not_multi rw
        · exact codes code last
    · rw [ends.2.1] at off
      cases off

/-- A card for block numbers that is not told their count; its first data word never comes. -/
def stuckTransfer : Host where
  answers := fun r n => match r with
    | .interrupt => if n < 5 then intCmdDone else 0x00200000
    | _ => 0
  reads := fun _ => 0
  log := []
  sdScr0 := scrSuppCcs
  sdScr1 := 0
  sdRca := 0
  sdErr := 0
  sdHv := 0

/-- The function returns on the error and the card is still sending. -/
theorem sdTransferblock_leaves_open :
    ¬ Closed (callLog 0 (fun _ => 0) 2 .sdReadblock stuckTransfer) := by
  intro closed
  let l := callLog 0 (fun _ => 0) 2 .sdReadblock stuckTransfer
  have split : l = l.take 8 ++ .write .cmdtm cmdReadMulti :: l.drop 9 := by decide +kernel
  have unstopped : cmdSetBlockcnt ∉ commands (l.take 8) ∧ started (l.drop 9) ∧
      cmdStopTrans ∉ commands (l.drop 9) := by decide +kernel
  exact unstopped.2.2 (closed _ _ _ split (.inl rfl) unstopped.1 unstopped.2.1)

end Emmc
