import MaldOS.Hal.EmmcCommands

/-!
Whether `sd_init` comes to an end. All its loops count down but one: that which
reads `sd_scr` tests its counter and leaves it as it is.
-/
namespace Emmc
open Polling

/-- How often the controller was accessed or waited for. -/
def cost (s : Host) : Nat := s.log.length

/-- The state in which a part of `sd_init` ends, by returning or not. -/
def ended {A : Type} (f : A → Host) : Except (Word × Host) A → Host
  | .error e => e.2
  | .ok a => f a

/-- A further STATUS read finds a word of the SCR. -/
def Available (s : Host) (i : Nat) : Prop :=
  s.answers .status (s.reads .status + i) &&& srReadAvailable ≠ 0

instance (s : Host) (i : Nat) : Decidable (Available s i) := inferInstanceAs (Decidable (¬ _))

/-- Two of the STATUS reads to come find one. -/
def ScrComes (s : Host) : Prop := ∃ m, 2 ≤ (List.range m).countP fun i => Available s i

/-! The loops that count down. -/

@[simp] theorem cost_read (s : Host) (r : Reg) : cost (s.read r).2 = cost s + 1 := by
  simp [cost, Host.read]

@[simp] theorem cost_write (s : Host) (r : Reg) (value : Word) :
    cost (s.write r value) = cost s + 1 := by
  simp [cost, Host.write]

@[simp] theorem cost_wait (s : Host) (msec : Nat) : cost (s.wait msec) = cost s + 1 := by
  simp [cost, Host.wait]

@[simp] theorem cost_modify (s : Host) (r : Reg) (f : Word → Word) :
    cost (s.modify r f) = cost s + 2 := by
  unfold Host.modify
  dsimp only
  rw [cost_write, cost_read]

@[simp] theorem cost_tests (r : Reg) (mask : Word) (s : Host) :
    cost (tests r mask s).2 = cost s + 1 := cost_read s r

@[simp] theorem cost_setErr (s : Host) (err : Word) : cost (s.setErr err) = cost s := rfl

theorem statusGoesOn_cost (mask : Word) (s : Host) : cost (statusGoesOn mask s).2 ≤ cost s + 2 := by
  unfold statusGoesOn
  dsimp only
  split_ifs <;> simp

theorem sdStatus_cost (mask : Word) (s : Host) : cost (sdStatus mask s).2 ≤ cost s + 1500004 := by
  have polled : cost (poll (statusGoesOn mask) (·.wait 1) 500000 s).2 ≤ cost s + 500001 * (2 + 1) :=
    poll_costs (statusGoesOn_cost mask) (fun s => Nat.le_of_eq (cost_wait s 1)) 500000 s
  unfold sdStatus
  dsimp only
  split_ifs <;> simp only [cost_tests] <;> omega

@[simp] theorem cost_intGoesOn (mask : Word) (s : Host) :
    cost (intGoesOn mask s).2 = cost s + 1 := cost_read s .interrupt

theorem sdInt_cost (mask : Word) (s : Host) : cost (sdInt mask s).2 ≤ cost s + 4004 := by
  have polled : cost (poll (intGoesOn mask) (·.wait 1) 2000 s).2 ≤ cost s + 2001 * (1 + 1) :=
    poll_costs (fun s => Nat.le_of_eq (cost_intGoesOn mask s))
      (fun s => Nat.le_of_eq (cost_wait s 1)) 2000 s
  unfold sdInt
  dsimp only
  split_ifs <;> simp only [cost_write, cost_read] <;> omega

theorem answer_cost (code arg : Word) (s : Host) : cost (answer code arg s).2 ≤ cost s + 4 := by
  have judged (t : Host) (err : BitVec 64) : cost { t with sdErr := err } = cost t := rfl
  unfold answer
  dsimp only
  split_ifs <;> simp [judged]

theorem sendCode_cost (code arg : Word) (s : Host) : cost (sendCode code arg s) ≤ cost s + 5 := by
  unfold sendCode
  dsimp only
  split_ifs <;> simp

theorem sdCmdPlain_cost (code arg : Word) (s : Host) :
    cost (sdCmdPlain code arg s).2 ≤ cost s + 1504017 := by
  have status := sdStatus_cost srCmdInhibit s
  have sent := sendCode_cost code arg (sdStatus srCmdInhibit s).2
  have waited := sdInt_cost intCmdDone (sendCode code arg (sdStatus srCmdInhibit s).2)
  have answered := answer_cost code arg
    (sdInt intCmdDone (sendCode code arg (sdStatus srCmdInhibit s).2)).2
  unfold sdCmdPlain
  dsimp only
  split_ifs
  · rw [cost_setErr]
    omega
  · rw [cost_setErr]
    omega
  · omega

theorem sdCmd_cost (code arg : Word) (s : Host) :
    cost (sdCmd code arg s).2 ≤ cost s + 3008034 := by
  have prefixed : cost (sdAppCmd (s.setErr sdOk)).2 ≤ cost s + 1504017 := sdCmdPlain_cost _ _ _
  have later := sdCmdPlain_cost (code &&& ~~~cmdNeedApp) arg (sdAppCmd (s.setErr sdOk)).2
  have plain := sdCmdPlain_cost code arg (s.setErr sdOk)
  rw [cost_setErr] at plain
  unfold sdCmd
  dsimp only
  split_ifs
  · rw [cost_setErr]
    omega
  · omega
  · omega

@[simp] theorem cost_clkUnstable (s : Host) : cost (clkUnstable s).2 = cost s + 1 :=
  cost_read s .control1

theorem sdClk_cost (f : Word) (s : Host) : cost (sdClk f s).2 ≤ cost s + 300000 := by
  have inhibited (t : Host) : cost (poll (tests .status (srCmdInhibit ||| srDatInhibit))
      (·.wait 1) 100000 t).2 ≤ cost t + 100001 * (1 + 1) :=
    poll_costs (fun s => Nat.le_of_eq (cost_tests .status (srCmdInhibit ||| srDatInhibit) s))
      (fun s => Nat.le_of_eq (cost_wait s 1)) 100000 t
  have unstable (t : Host) : cost (poll clkUnstable (·.wait 10) 10000 t).2 ≤
      cost t + 10001 * (1 + 1) :=
    poll_costs (fun s => Nat.le_of_eq (cost_clkUnstable s))
      (fun s => Nat.le_of_eq (cost_wait s 10)) 10000 t
  unfold sdClk
  dsimp only
  split_ifs
  · exact Nat.le_trans (inhibited s) (by omega)
  all_goals
    refine Nat.le_trans (unstable _) ?_
    simp only [cost_wait, cost_modify]
    have first := inhibited s
    omega

@[simp] theorem ended_unlessErr (s : Host) : ended id (unlessErr s) = s := by
  unfold unlessErr
  split_ifs <;> rfl

@[simp] theorem ended_unlessResult (p : Word × Host) : ended id (unlessResult p) = p.2 := by
  unfold unlessResult
  split_ifs <;> rfl

@[simp] theorem ended_unlessTimeout (p : Word × Host) : ended id (unlessTimeout p) = p.2 := by
  unfold unlessTimeout
  split_ifs <;> rfl

theorem bind_cost {A B : Type} {f : A → Host} {g : B → Host} {n k : Nat}
    {first : Except (Word × Host) A} {next : A → Except (Word × Host) B}
    (before : cost (ended f first) + k ≤ n)
    (later : ∀ a, cost (ended g (next a)) ≤ cost (f a) + k) :
    cost (ended g (first >>= next)) ≤ n := by
  cases first with
  | error e => exact Nat.le_trans (Nat.le_add_right _ _) before
  | ok a => exact Nat.le_trans (later a) before

theorem resetController_cost (s : Host) :
    cost (ended id (resetController s)) ≤ cost s + 400000 := by
  have polled (t : Host) : cost (poll (tests .control1 c1SrstHc) (·.wait 10) 10000 t).2 ≤
      cost t + 10001 * (1 + 1) :=
    poll_costs (fun s => Nat.le_of_eq (cost_tests .control1 c1SrstHc s))
      (fun s => Nat.le_of_eq (cost_wait s 10)) 10000 t
  have relative (t : Host) (hv : BitVec 64) : cost { t with sdHv := hv } = cost t := rfl
  unfold resetController
  dsimp only
  split_ifs
  · refine Nat.le_trans (polled _) ?_
    simp only [cost_wait, cost_modify, cost_write, relative, cost_read]
    omega
  · refine bind_cost (f := id) (k := 2) ?_ fun t => ?_
    · rw [ended_unlessResult]
      refine Nat.le_trans (Nat.add_le_add_right (sdClk_cost _ _) 2) ?_
      rw [cost_wait, cost_modify]
      refine Nat.le_trans (Nat.add_le_add_right (Nat.add_le_add_right
        (Nat.add_le_add_right (polled _) 3) 300000) 2) ?_
      simp only [cost_wait, cost_modify, cost_write, relative, cost_read]
      omega
    · change cost ((t.write .irptEn 0xffffffff).write .irptMask 0xffffffff) ≤ _
      rw [cost_write, cost_write]
      exact Nat.le_refl _

theorem wakeCard_cost (s : Host) : cost (ended id (wakeCard s)) ≤ cost s + 6016068 := by
  unfold wakeCard
  refine bind_cost (f := id) (k := 3008034) ?_ ?_
  · rw [ended_unlessErr]
    have sent := sdCmd_cost cmdGoIdle 0 s
    omega
  · intro s
    rw [ended_unlessErr]
    exact sdCmd_cost cmdSendIfCond 0x000001AA s

theorem opCondLoop_cost (left : Nat) (r : Word) (s : Host) :
    cost (ended (fun p => p.2.2) (opCondLoop left r s)) ≤ cost s + left * 3008034 := by
  induction left generalizing r s with
  | zero => exact Nat.le_add_right _ _
  | succ left ih =>
    have sent := sdCmd_cost cmdSendOpCond acmd41ArgHc s
    unfold opCondLoop
    dsimp only
    split_ifs
    · exact Nat.le_add_right _ _
    · simp only [ended]
      omega
    · have later := ih (sdCmd cmdSendOpCond acmd41ArgHc s).1 (sdCmd cmdSendOpCond acmd41ArgHc s).2
      omega

theorem opCond_cost (s : Host) :
    cost (ended Prod.snd (opCond s)) ≤ cost s + 18048204 := by
  unfold opCond
  have polled := opCondLoop_cost 6 0 s
  refine bind_cost (f := fun p => p.2.2) (k := 0) (by omega) fun p => ?_
  unfold judgeOpCond
  dsimp only
  split_ifs <;> exact Nat.le_refl _

theorem selectCard_cost (s : Host) : cost (ended id (selectCard s)) ≤ cost s + 15000000 := by
  have cid := sdCmd_cost cmdAllSendCid 0 s
  have address := sdCmd_cost cmdSendRelAddr 0 (sdCmd cmdAllSendCid 0 s).2
  have noted (t : Host) (rca : BitVec 64) : cost { t with sdRca := rca } = cost t := rfl
  unfold selectCard
  dsimp only
  generalize sdCmd cmdAllSendCid 0 s = first at cid address ⊢
  generalize sdCmd cmdSendRelAddr 0 first.2 = second at address ⊢
  refine bind_cost (f := id) (k := 8000000) ?_ fun s => ?_
  · rw [ended_unlessErr, noted]
    omega
  refine bind_cost (f := id) (k := 7700000) ?_ fun s => ?_
  · rw [ended_unlessResult]
    have clocked := sdClk_cost 25000000 s
    simp only [id]
    omega
  refine bind_cost (f := id) (k := 4600000) ?_ fun s => ?_
  · rw [ended_unlessErr]
    have selected := sdCmd_cost cmdCardSelect (s.sdRca.setWidth 32) s
    simp only [id]
    omega
  refine bind_cost (f := id) (k := 3050000) ?_ fun s => ?_
  · rw [ended_unlessTimeout]
    have status := sdStatus_cost srDatInhibit s
    simp only [id]
    omega
  refine bind_cost (f := id) (k := 4004) ?_ fun s => ?_
  · rw [ended_unlessErr]
    have asked := sdCmd_cost cmdSendScr 0 (s.write .blksizecnt (1 <<< 16 ||| 8))
    rw [cost_write] at asked
    simp only [id]
    omega
  · rw [ended_unlessTimeout]
    exact sdInt_cost intReadRdy s

/-- However the controller answers, the loop over the SCR is reached or left out. -/
theorem beforeScr_cost (s : Host) : cost (ended Prod.snd (beforeScr s)) ≤ cost s + 40000000 := by
  unfold beforeScr
  refine bind_cost (f := id) (k := 39600000) ?_ fun s => ?_
  · have reset := resetController_cost s
    omega
  refine bind_cost (f := id) (k := 33500000) ?_ fun s => ?_
  · have woken := wakeCard_cost s
    simp only [id]
    omega
  refine bind_cost (f := Prod.snd) (k := 15000000) ?_ fun p => ?_
  · have conditions := opCond_cost s
    simp only [id]
    omega
  refine bind_cost (f := id) (k := 0) ?_ fun s => ?_
  · exact selectCard_cost p.2
  · exact Nat.le_refl _

/-! What the registers answer stays what it is. -/

theorem poll_answers {goesOn : Host → Bool × Host} {msec : Nat}
    (test : ∀ s, (goesOn s).2.answers = s.answers) (left : Nat) (s : Host) :
    (poll goesOn (·.wait msec) left s).2.answers = s.answers :=
  poll_keeps (r := fun s t => t.answers = s.answers)
    (fun {s t u} (first : t.answers = s.answers) (next : u.answers = t.answers) => next.trans first)
    test (fun s => (rfl : (s.wait msec).answers = s.answers)) left s

theorem sdClk_answers (f : Word) (s : Host) : (sdClk f s).2.answers = s.answers := by
  have inhibited (t : Host) : (poll (tests .status (srCmdInhibit ||| srDatInhibit))
      (·.wait 1) 100000 t).2.answers = t.answers := poll_answers (fun _ => rfl) _ _
  have unstable (t : Host) : (poll clkUnstable (·.wait 10) 10000 t).2.answers = t.answers :=
    poll_answers (fun _ => rfl) _ _
  unfold sdClk
  dsimp only
  split_ifs
  · exact inhibited s
  · exact (unstable _).trans (inhibited s)
  · exact (unstable _).trans (inhibited s)

theorem bind_answers {A B : Type} {f : A → Host} {g : B → Host} {s : Host}
    {first : Except (Word × Host) A} {next : A → Except (Word × Host) B}
    (before : (ended f first).answers = s.answers)
    (later : ∀ a, (ended g (next a)).answers = (f a).answers) :
    (ended g (first >>= next)).answers = s.answers := by
  cases first with
  | error e => exact before
  | ok a => exact (later a).trans before

theorem resetController_answers (s : Host) :
    (ended id (resetController s)).answers = s.answers := by
  have polled (t : Host) : (poll (tests .control1 c1SrstHc) (·.wait 10) 10000 t).2.answers =
      t.answers := poll_answers (fun _ => rfl) _ _
  unfold resetController
  dsimp only
  split_ifs
  · exact polled _
  · refine bind_answers (f := id) ?_ fun t => rfl
    rw [ended_unlessResult]
    exact (sdClk_answers _ _).trans (polled _)

theorem wakeCard_answers (s : Host) : (ended id (wakeCard s)).answers = s.answers := by
  unfold wakeCard
  refine bind_answers (f := id) ?_ fun s => ?_
  · rw [ended_unlessErr]
    exact (sdCmd_keeps _ _ _).answers
  · rw [ended_unlessErr]
    exact (sdCmd_keeps _ _ _).answers

theorem opCondLoop_answers (left : Nat) (r : Word) (s : Host) :
    (ended (fun p => p.2.2) (opCondLoop left r s)).answers = s.answers := by
  induction left generalizing r s with
  | zero => rfl
  | succ left ih =>
    have sent := (sdCmd_keeps cmdSendOpCond acmd41ArgHc s).answers
    unfold opCondLoop
    dsimp only
    split_ifs
    · rfl
    · exact sent
    · exact (ih _ _).trans sent

theorem opCond_answers (s : Host) : (ended Prod.snd (opCond s)).answers = s.answers := by
  have polled := opCondLoop_answers 6 0 s
  unfold opCond
  refine bind_answers (f := fun p => p.2.2) ?_ fun p => ?_
  · exact polled
  · unfold judgeOpCond
    dsimp only
    split_ifs <;> rfl

theorem selectCard_answers (s : Host) : (ended id (selectCard s)).answers = s.answers := by
  have cid := (sdCmd_keeps cmdAllSendCid 0 s).answers
  have address := (sdCmd_keeps cmdSendRelAddr 0 (sdCmd cmdAllSendCid 0 s).2).answers
  unfold selectCard
  dsimp only
  generalize sdCmd cmdAllSendCid 0 s = first at cid address ⊢
  generalize sdCmd cmdSendRelAddr 0 first.2 = second at address ⊢
  refine bind_answers (f := id) ?_ fun s => ?_
  · rw [ended_unlessErr]
    exact address.trans cid
  refine bind_answers (f := id) ?_ fun s => ?_
  · rw [ended_unlessResult]
    exact sdClk_answers 25000000 s
  refine bind_answers (f := id) ?_ fun s => ?_
  · rw [ended_unlessErr]
    exact (sdCmd_keeps _ _ _).answers
  refine bind_answers (f := id) ?_ fun s => ?_
  · rw [ended_unlessTimeout]
    exact (sdStatus_quiet _ _).answers
  refine bind_answers (f := id) ?_ fun s => ?_
  · rw [ended_unlessErr]
    exact (sdCmd_keeps _ _ _).answers
  · rw [ended_unlessTimeout]
    exact (sdInt_quiet _ _).answers

theorem beforeScr_answers (s : Host) :
    (ended Prod.snd (beforeScr s)).answers = s.answers := by
  unfold beforeScr
  refine bind_answers (f := id) (resetController_answers s) fun s => ?_
  refine bind_answers (f := id) (wakeCard_answers s) fun s => ?_
  refine bind_answers (f := Prod.snd) (opCond_answers s) fun p => ?_
  exact bind_answers (f := id) (selectCard_answers p.2) fun _ => rfl

/-! The loop that reads `sd_scr`. -/

def found (s : Host) (m : Nat) : Nat := (List.range m).countP fun i => Available s i

theorem available_succ {s t : Host} (answers : t.answers = s.answers)
    (reads : t.reads .status = s.reads .status + 1) (i : Nat) :
    Available s (i + 1) ↔ Available t i := by
  unfold Available
  rw [answers, reads, Nat.add_right_comm, Nat.add_assoc]

theorem found_succ {s t : Host} (answers : t.answers = s.answers)
    (reads : t.reads .status = s.reads .status + 1) (m : Nat) :
    found s (m + 1) = (if Available s 0 then 1 else 0) + found t m := by
  unfold found
  rw [List.range_succ_eq_map, List.countP_cons, List.countP_map, Nat.add_comm]
  simp only [decide_eq_true_eq, Function.comp_def, Nat.succ_eq_add_one,
    available_succ answers reads]

def afterWord (r : Nat) (s : Host) : Host :=
  ((tests .status srReadAvailable s).2.read .data).2.setScr r
    ((tests .status srReadAvailable s).2.next .data)

theorem scrLoop_succ {r : Nat} (more : r < 2) (fuel : Nat) (s : Host) :
    scrLoop 100000 (fuel + 1) r s =
      if Available s 0 then scrLoop 100000 fuel (r + 1) (afterWord r s)
      else scrLoop 100000 fuel r ((tests .status srReadAvailable s).2.wait 1) := by
  have seen : (tests .status srReadAvailable s).1 = true ↔ Available s 0 := decide_eq_true_iff
  rw [scrLoop, if_pos ⟨more, by decide⟩]
  exact if_congr seen rfl rfl

theorem afterWord_status (r : Nat) (s : Host) :
    (afterWord r s).answers = s.answers ∧
      (afterWord r s).reads .status = s.reads .status + 1 := by
  unfold afterWord Host.setScr
  split_ifs <;> simp [tests, Host.read]

theorem comes_of_ends {fuel r : Nat} {s : Host} (ends : (scrLoop 100000 fuel r s).isSome) :
    ∃ m, 2 ≤ r + found s m := by
  induction fuel generalizing r s with
  | zero => exact absurd ends (by simp [scrLoop])
  | succ fuel ih =>
    by_cases more : r < 2
    · rw [scrLoop_succ more] at ends
      split_ifs at ends with available
      · obtain ⟨answers, reads⟩ := afterWord_status r s
        obtain ⟨m, enough⟩ := ih ends
        refine ⟨m + 1, ?_⟩
        rw [found_succ answers reads, if_pos available]
        omega
      · obtain ⟨m, enough⟩ := ih ends
        refine ⟨m + 1, ?_⟩
        rw [found_succ (s := s) (t := (tests .status srReadAvailable s).2.wait 1) rfl rfl]
        omega
    · exact ⟨0, by omega⟩

theorem ends_of_comes {m r : Nat} {s : Host} (enough : 2 ≤ r + found s m) :
    ∃ fuel, (scrLoop 100000 fuel r s).isSome := by
  induction m generalizing r s with
  | zero =>
    have none : found s 0 = 0 := rfl
    refine ⟨1, ?_⟩
    rw [scrLoop, if_neg (by omega)]
    rfl
  | succ m ih =>
    by_cases more : r < 2
    · by_cases available : Available s 0
      · obtain ⟨answers, reads⟩ := afterWord_status r s
        rw [found_succ answers reads, if_pos available] at enough
        obtain ⟨fuel, ends⟩ := ih (r := r + 1) (s := afterWord r s) (by omega)
        refine ⟨fuel + 1, ?_⟩
        rwa [scrLoop_succ more, if_pos available]
      · rw [found_succ (s := s) (t := (tests .status srReadAvailable s).2.wait 1) rfl rfl,
          if_neg available, Nat.zero_add] at enough
        obtain ⟨fuel, ends⟩ := ih enough
        refine ⟨fuel + 1, ?_⟩
        rwa [scrLoop_succ more, if_neg available]
    · refine ⟨1, ?_⟩
      rw [scrLoop, if_neg (by omega)]
      rfl

theorem afterScr_cost (ccs : BitVec 64) (r : Nat) (s : Host) :
    cost (afterScr ccs r s).2 ≤ cost s + 4000000 := by
  have relative (t : Host) (scr : BitVec 64) : cost { t with sdScr0 := scr } = cost t := rfl
  have sent := sdCmd_cost cmdSetBusWidth ((s.sdRca ||| 2).setWidth 32) s
  unfold afterScr
  dsimp only
  split_ifs
  · exact Nat.le_add_right _ _
  · exact Nat.le_trans sent (by omega)
  · rw [relative, cost_modify]
    omega
  · rw [relative]
    exact Nat.le_add_right _ _

/-- All loops of `sd_init` but one are bounded whatever the controller answers. It ends just
    when it returns before that loop or the controller has both words of the SCR for it. -/
theorem sdInit_ends_iff (s : Host) :
    cost (ended Prod.snd (beforeScr s)) ≤ cost s + 40000000 ∧
      (∀ ccs r t, cost (afterScr ccs r t).2 ≤ cost t + 4000000) ∧
      ((∃ fuel, (sdInit fuel s).isSome) ↔
        ∀ ccs t, beforeScr s = .ok (ccs, t) → ScrComes t) := by
  refine ⟨beforeScr_cost s, afterScr_cost, ?_⟩
  unfold sdInit
  rcases reached : beforeScr s with early | ⟨ccs, t⟩
  · exact ⟨nofun, fun _ => ⟨0, rfl⟩⟩
  · constructor
    · rintro ⟨fuel, ends⟩ ccs' t' same
      obtain ⟨rfl, rfl⟩ : ccs = ccs' ∧ t = t' := by simpa using same
      rw [Option.isSome_map] at ends
      obtain ⟨m, enough⟩ := comes_of_ends ends
      exact ⟨m, by rwa [Nat.zero_add] at enough⟩
    · intro comes
      obtain ⟨m, enough⟩ := comes ccs t rfl
      obtain ⟨fuel, ends⟩ := ends_of_comes (r := 0) (by rwa [Nat.zero_add])
      exact ⟨fuel, by rwa [Option.isSome_map]⟩

/-- A card that answers all the commands but never has the SCR to read. -/
def silentCard : Host where
  answers := fun r n => match r with
    | .control1 => c1ClkStable
    | .interrupt => intCmdDone ||| intReadRdy
    | .resp0 => if n = 1 then 0x1AA else if n = 3 then 0xC0FF8000
      else if n = 5 then 0x00010000 else srAppCmd
    | _ => 0
  reads := fun _ => 0
  log := []
  sdScr0 := 0
  sdScr1 := 0
  sdRca := 0
  sdErr := 0
  sdHv := 0

/-- With the silent card `sd_init` never returns. -/
theorem sdInit_hangs : ¬ ∃ fuel, (sdInit fuel silentCard).isSome := by
  rintro ⟨fuel, ends⟩
  have reached : (beforeScr silentCard).isOk := by decide +kernel
  have answers := beforeScr_answers silentCard
  unfold sdInit at ends
  rcases here : beforeScr silentCard with early | ⟨ccs, t⟩
  · rw [here] at reached
    exact Bool.noConfusion reached
  · rw [here] at ends answers
    rw [Option.isSome_map] at ends
    obtain ⟨m, enough⟩ := comes_of_ends ends
    have none : found t m = 0 := by
      refine List.countP_eq_zero.mpr fun i _ => ?_
      have silent : t.answers .status (t.reads .status + i) = 0 := by
        rw [show t.answers = silentCard.answers from answers]
        rfl
      simp [Available, silent]
    omega

end Emmc
