import MaldOS.Hal.EmmcCommands

/-!
What `sd_init` makes of the card's operating conditions. `sd_cmd` takes the flag
for an application command off the code and then compares the code with
CMD_SEND_OP_COND, which has it: the answer loses the bits of the error mask.
-/
namespace Emmc
open Polling

/-- Each round reads RESP0 twice, first for CMD_APP_CMD. -/
def cardAnswer (s : Host) (k : Nat) : Word := s.answers .resp0 (s.reads .resp0 + (2 * k + 1))

def Complete (s : Host) (k : Nat) : Prop := cardAnswer s k &&& acmd41CmdComplete ≠ 0

instance (s : Host) (k : Nat) : Decidable (Complete s k) := inferInstanceAs (Decidable (¬ _))

def Completes (s : Host) (k : Nat) : Prop := Complete s k ∧ ∀ j < k, ¬ Complete s j

def Transported : Nat → Host → Prop
  | 0, _ => True
  | left + 1, s =>
    (sdCmd cmdSendOpCond acmd41ArgHc s).2.sdErr = 0 ∧
      (¬ Complete s 0 → Transported left (sdCmd cmdSendOpCond acmd41ArgHc s).2)

def returned {A : Type} : Except (Word × Host) A → Option Word
  | .error e => some e.1
  | .ok _ => none

/-- The answer that completes is used, and its voltage window. -/
def JudgedRight (s : Host) : Prop :=
  ((∃ k < 6, Complete s k) → returned (opCond s) ≠ some sdTimeout) ∧
    ∀ k < 6, Completes s k → cardAnswer s k &&& acmd41Voltage ≠ 0 →
      returned (opCond s) ≠ some sdError

abbrev voltageKept : Word := acmd41Voltage &&& cmdErrorsMask

/-- The answer that completes is not the sixth and not one with the bits 17 and 18 alone. -/
def Judgeable (s : Host) : Prop :=
  ∀ k < 6, Completes s k → k < 5 ∧
    (cardAnswer s k &&& acmd41Voltage ≠ 0 → cardAnswer s k &&& voltageKept ≠ 0)

theorem sdCmdPlain_done {code arg : Word} {s : Host} (other : code ≠ cmdSendRelAddr)
    (ok : (sdCmdPlain code arg s).2.sdErr = 0) :
    s.sdErr = 0 ∧ ∃ t, sdCmdPlain code arg s = answer code arg t ∧
      t.answers = s.answers ∧ t.reads .resp0 = s.reads .resp0 := by
  have ends := sdCmdPlain_sent code arg s
  generalize sdCmdPlain code arg s = p at ends ok ⊢
  cases ends with
  | refused _ _ => exact absurd ok (setErr_ne (by decide) _)
  | failed _ _ _ fails => exact absurd ok (setErr_ne fails _)
  | @done t u _ waited last =>
    have kept : (answer code arg u).2.sdErr = u.sdErr := by
      unfold answer
      dsimp only
      split_ifs <;> rfl
    refine ⟨?_, u, rfl, last.answers.trans waited.answers, ?_⟩
    · rw [← waited.sdErr, ← ok, kept]
      exact last.sdErr.symm
    · exact (last.reads .resp0 (by decide) (by decide)).trans
        (waited.reads .resp0 (by decide) (by decide))

theorem answer_appCmd (arg : Word) (s : Host) :
    answer cmdAppCmd arg s = (0, (s.read .resp0).2) := by
  unfold answer
  dsimp only
  rw [if_pos (by decide)]

theorem answer_opCond (arg : Word) (s : Host) :
    answer (cmdSendOpCond &&& ~~~cmdNeedApp) arg s =
      (s.next .resp0 &&& cmdErrorsMask, (s.read .resp0).2) := by
  unfold answer
  dsimp only
  rw [if_neg (by decide), if_neg (by decide), if_neg (by decide), if_neg (by decide),
    if_neg (by decide), if_neg (by decide)]
  rfl

theorem round_answer {s : Host} (rca : s.sdRca = 0)
    (ok : (sdCmd cmdSendOpCond acmd41ArgHc s).2.sdErr = 0) :
    (sdCmd cmdSendOpCond acmd41ArgHc s).1 = cardAnswer s 0 &&& cmdErrorsMask ∧
      (sdCmd cmdSendOpCond acmd41ArgHc s).2.answers = s.answers ∧
      (sdCmd cmdSendOpCond acmd41ArgHc s).2.reads .resp0 = s.reads .resp0 + 2 := by
  have address : (sdAppCmd (s.setErr sdOk)).2.sdRca = 0 := (sdAppCmd_keeps _).sdRca.trans rca
  have second : sdCmd cmdSendOpCond acmd41ArgHc s =
      sdCmdPlain (cmdSendOpCond &&& ~~~cmdNeedApp) acmd41ArgHc (sdAppCmd (s.setErr sdOk)).2 := by
    unfold sdCmd
    dsimp only
    rw [if_pos (by decide), if_neg (fun both => both.1 address)]
  have first : sdAppCmd (s.setErr sdOk) =
      sdCmdPlain cmdAppCmd (s.sdRca.setWidth 32) (s.setErr sdOk) := by
    unfold sdAppCmd
    dsimp only
    rw [if_neg (show ¬ (s.setErr sdOk).sdRca ≠ 0 from not_not.mpr rca),
      show cmdAppCmd ||| 0 = cmdAppCmd by decide]
    rfl
  rw [second] at ok ⊢
  obtain ⟨clear, t, done, answers, reads⟩ := sdCmdPlain_done (by decide) ok
  rw [first] at clear answers reads
  obtain ⟨_, u, doneApp, answersApp, readsApp⟩ := sdCmdPlain_done (by decide) clear
  rw [doneApp, answer_appCmd] at answers reads
  have before : t.reads .resp0 = s.reads .resp0 + 1 := by
    rw [reads]
    simp only [Host.read, Function.update_self]
    rw [readsApp]
    rfl
  have same : t.answers = s.answers := answers.trans answersApp
  rw [done, answer_opCond]
  refine ⟨?_, same, ?_⟩
  · unfold cardAnswer Host.next
    rw [same, before]
  · simp only [Host.read, Function.update_self]
    rw [before]

theorem cardAnswer_succ {s t : Host} (answers : t.answers = s.answers)
    (reads : t.reads .resp0 = s.reads .resp0 + 2) (k : Nat) :
    cardAnswer t k = cardAnswer s (k + 1) := by
  unfold cardAnswer
  rw [answers, reads]
  congr 1
  omega

theorem opCondLoop_stops {r : Word} (complete : r &&& acmd41CmdComplete ≠ 0) (left : Nat)
    (s : Host) : opCondLoop left r s = .ok ((left : Int), r, s) := by
  cases left with
  | zero =>
    rw [opCondLoop, if_pos complete]
    rfl
  | succ left =>
    rw [opCondLoop, if_pos complete]
    rfl

theorem complete_succ {s t : Host} (shifted : ∀ k, cardAnswer t k = cardAnswer s (k + 1))
    (k : Nat) : Complete t k ↔ Complete s (k + 1) := by
  unfold Complete
  rw [shifted]

theorem completes_succ {s t : Host} (shifted : ∀ k, cardAnswer t k = cardAnswer s (k + 1))
    (first : ¬ Complete s 0) {k : Nat} (completes : Completes t k) : Completes s (k + 1) := by
  refine ⟨(complete_succ shifted k).mp completes.1, ?_⟩
  intro j before
  cases j with
  | zero => exact first
  | succ j =>
    rw [← complete_succ shifted]
    exact completes.2 j (Nat.lt_of_succ_lt_succ before)

/-- The loop ends on the answer that completes, with the rounds that were left, or it has
    seen none. -/
theorem opCondLoop_result {left : Nat} {r : Word} {s : Host} (rca : s.sdRca = 0)
    (ok : Transported left s) (waiting : r &&& acmd41CmdComplete = 0) :
    (∃ k < left, Completes s k ∧ ∃ t, opCondLoop left r s =
      .ok (((left - (k + 1) : Nat) : Int), cardAnswer s k &&& cmdErrorsMask, t)) ∨
    ((∀ k < left, ¬ Complete s k) ∧ ∃ r' t, opCondLoop left r s = .ok (-1, r', t) ∧
      r' &&& acmd41CmdComplete = 0) := by
  induction left generalizing r s with
  | zero =>
    refine .inr ⟨fun k below => absurd below (Nat.not_lt_zero k), r, s, ?_, waiting⟩
    unfold opCondLoop
    rw [if_neg (not_not.mpr waiting)]
  | succ left ih =>
    obtain ⟨clear, later⟩ := ok
    obtain ⟨result, answers, reads⟩ := round_answer rca clear
    have address := (sdCmd_keeps cmdSendOpCond acmd41ArgHc s).sdRca.trans rca
    have shifted := cardAnswer_succ answers reads
    have goesOn : opCondLoop (left + 1) r s = opCondLoop left
        (sdCmd cmdSendOpCond acmd41ArgHc s).1 (sdCmd cmdSendOpCond acmd41ArgHc s).2 := by
      rw [opCondLoop, if_neg (not_not.mpr waiting)]
      dsimp only
      rw [if_neg (fun both => both.2 clear)]
    have masked : (cardAnswer s 0 &&& cmdErrorsMask) &&& acmd41CmdComplete =
        cardAnswer s 0 &&& acmd41CmdComplete := by
      rw [BitVec.and_assoc]
      rfl
    rw [goesOn]
    by_cases complete : Complete s 0
    · have stops : (sdCmd cmdSendOpCond acmd41ArgHc s).1 &&& acmd41CmdComplete ≠ 0 := by
        rw [result, masked]
        exact complete
      refine .inl ⟨0, Nat.succ_pos left, ⟨complete, fun j below => absurd below (Nat.not_lt_zero j)⟩,
        (sdCmd cmdSendOpCond acmd41ArgHc s).2, ?_⟩
      rw [opCondLoop_stops stops, result]
      rfl
    · have on : (sdCmd cmdSendOpCond acmd41ArgHc s).1 &&& acmd41CmdComplete = 0 := by
        rw [result, masked]
        exact not_not.mp complete
      rcases ih address (later complete) on with ⟨k, below, completes, t, ends⟩ | ⟨never, rest⟩
      · refine .inl ⟨k + 1, Nat.succ_lt_succ below, completes_succ shifted complete completes, t, ?_⟩
        rw [ends, shifted, Nat.succ_sub_succ]
      · refine .inr ⟨fun k below => ?_, rest⟩
        cases k with
        | zero => exact complete
        | succ k =>
          rw [← complete_succ shifted]
          exact never k (Nat.lt_of_succ_lt_succ below)

theorem completes_unique {s : Host} {j k : Nat} (one : Completes s j) (other : Completes s k) :
    j = k := by
  rcases Nat.lt_trichotomy j k with before | same | after
  · exact absurd one.1 (other.2 j before)
  · exact same
  · exact absurd other.1 (one.2 k after)

theorem completes_of_complete {s : Host} {n k : Nat} (below : k < n) (complete : Complete s k) :
    ∃ j < n, Completes s j := by
  induction k using Nat.strongRecOn with
  | ind k ih =>
    by_cases earlier : ∃ j < k, Complete s j
    · obtain ⟨j, before, completeJ⟩ := earlier
      exact ih j before (Nat.lt_trans before below) completeJ
    · exact ⟨k, below, complete, fun j before completeJ => earlier ⟨j, before, completeJ⟩⟩

theorem judgeOpCond_returned {cnt : Nat} {answer : Word} (t : Host)
    (complete : answer &&& acmd41CmdComplete ≠ 0) :
    returned (judgeOpCond ((cnt : Int), answer &&& cmdErrorsMask, t)) =
      if cnt = 0 then some sdTimeout
      else if answer &&& voltageKept = 0 then some sdError else none := by
  have stays : (answer &&& cmdErrorsMask) &&& acmd41CmdComplete = answer &&& acmd41CmdComplete := by
    rw [BitVec.and_assoc]
    rfl
  have window : (answer &&& cmdErrorsMask) &&& acmd41Voltage = answer &&& voltageKept := by
    rw [BitVec.and_assoc]
    rfl
  unfold judgeOpCond
  dsimp only
  rw [stays, window]
  by_cases out : cnt = 0
  · rw [if_pos (.inr (by rw [out]; rfl)), if_pos out]
    rfl
  · rw [if_neg (fun either => either.elim complete (fun none => out (by omega))), if_neg out]
    split_ifs <;> rfl

theorem opCond_returned {s : Host} {k : Nat} (rca : s.sdRca = 0) (ok : Transported 6 s)
    (below : k < 6) (completes : Completes s k) :
    returned (opCond s) = if 6 - (k + 1) = 0 then some sdTimeout
      else if cardAnswer s k &&& voltageKept = 0 then some sdError else none := by
  unfold opCond
  rcases opCondLoop_result rca ok (r := 0) (by decide) with
    ⟨j, _, completesJ, t, ends⟩ | ⟨never, _, _, _, _⟩
  · rw [completes_unique completes completesJ, ends]
    exact judgeOpCond_returned t completesJ.1
  · exact absurd completes.1 (never k below)

theorem of_bind {A B : Type} {first : Except (Word × Host) A}
    {next : A → Except (Word × Host) B} {b : B} (goesOn : (first >>= next) = .ok b) :
    ∃ a, first = .ok a ∧ next a = .ok b := by
  cases first with
  | error e => exact nomatch (goesOn : Except.error e = .ok b)
  | ok a => exact ⟨a, rfl, goesOn⟩

theorem of_unlessErr {s t : Host} (goesOn : unlessErr s = .ok t) : t = s := by
  unfold unlessErr at goesOn
  split_ifs at goesOn
  exact (Except.ok.inj goesOn).symm

theorem wakeCard_rca {s t : Host} (woken : wakeCard s = .ok t) : t.sdRca = s.sdRca := by
  obtain ⟨idle, first, second⟩ := of_bind woken
  rw [of_unlessErr second, (sdCmd_keeps cmdSendIfCond 0x000001AA idle).sdRca, of_unlessErr first]
  exact (sdCmd_keeps cmdGoIdle 0 s).sdRca

theorem conditions_rca {s₀ s : Host} (reached : (resetController s₀ >>= wakeCard) = .ok s) :
    s.sdRca = 0 := by
  obtain ⟨t, reset, woken⟩ := of_bind reached
  rw [wakeCard_rca woken]
  unfold resetController at reset
  dsimp only at reset
  split_ifs at reset
  obtain ⟨u, _, cleared⟩ := of_bind reset
  exact (congrArg Host.sdRca (Except.ok.inj cleared)).symm

/-- Where the commands go through the card is judged by the answer that completes just when
    that is not the sixth, nor one whose voltage window has no other bits than 17 and 18. -/
theorem opCond_judges_iff {s₀ s : Host} (reached : (resetController s₀ >>= wakeCard) = .ok s)
    (ok : Transported 6 s) : JudgedRight s ↔ Judgeable s := by
  have rca := conditions_rca reached
  constructor
  · intro right k below completes
    have result := opCond_returned rca ok below completes
    have inTime := right.1 ⟨k, below, completes.1⟩
    have judged := right.2 k below completes
    rw [result] at inTime judged
    have early : k < 5 := by
      by_contra late
      exact inTime (if_pos (by omega))
    rw [if_neg (by omega)] at judged
    exact ⟨early, fun window none => judged window (if_pos none)⟩
  · intro judgeable
    constructor
    · rintro ⟨k, below, complete⟩
      obtain ⟨j, belowJ, completes⟩ := completes_of_complete below complete
      have early := (judgeable j belowJ completes).1
      rw [opCond_returned rca ok belowJ completes, if_neg (by omega)]
      split_ifs <;> decide
    · intro k below completes window
      obtain ⟨early, kept⟩ := judgeable k below completes
      rw [opCond_returned rca ok below completes, if_neg (by omega), if_neg (kept window)]
      exact nofun

instance : (left : Nat) → (s : Host) → Decidable (Transported left s)
  | 0, _ => isTrue trivial
  | left + 1, s =>
    have := instDecidableTransported left (sdCmd cmdSendOpCond acmd41ArgHc s).2
    inferInstanceAs (Decidable (_ ∧ (_ → _)))

instance (s : Host) (k : Nat) : Decidable (Completes s k) :=
  inferInstanceAs (Decidable (_ ∧ ∀ j, j < k → ¬ Complete s j))

instance (s : Host) : Decidable (Judgeable s) :=
  inferInstanceAs (Decidable (∀ k, k < 6 → Completes s k → _))

def cardWith (answer : Nat → Word) : Host where
  answers := fun r n => match r with
    | .control1 => c1ClkStable
    | .interrupt => intCmdDone
    | .resp0 => if n = 1 then 0x1AA else answer ((n - 2) / 2)
    | _ => 0
  reads := fun _ => 0
  log := []
  sdScr0 := 0
  sdScr1 := 0
  sdRca := 0
  sdErr := 0
  sdHv := 0

def AtConditions (answer : Nat → Word) (holds : Host → Prop) : Prop :=
  ∃ s, (resetController (cardWith answer) >>= wakeCard) = .ok s ∧ Transported 6 s ∧ holds s

theorem atConditions_of {answer : Nat → Word} {holds : Host → Prop} [DecidablePred holds]
    (good : (match resetController (cardWith answer) >>= wakeCard with
      | .ok s => decide (Transported 6 s ∧ holds s)
      | .error _ => false) = true) : AtConditions answer holds := by
  rcases here : resetController (cardWith answer) >>= wakeCard with e | s
  · rw [here] at good
    cases good
  · rw [here] at good
    exact ⟨s, here, of_decide_eq_true good⟩

/-- The third answer completes, for all voltages of the window. -/
theorem opCond_judges_third :
    AtConditions (fun k => if k < 2 then 0x00FF8000 else 0x80FF8000) JudgedRight := by
  obtain ⟨s, reached, ok, judgeable⟩ := @atConditions_of
    (fun k => if k < 2 then 0x00FF8000 else 0x80FF8000) Judgeable _ (by decide +kernel)
  exact ⟨s, reached, ok, (opCond_judges_iff reached ok).mpr judgeable⟩

/-- An answer that completes in the last round is a timeout, and one for 2.9 to 3.0 volts
    alone is an error. -/
theorem opCond_misjudges :
    AtConditions (fun k => if k = 5 then 0x80FF8000 else 0x00FF8000)
        (fun s => Complete s 5 ∧ returned (opCond s) = some sdTimeout) ∧
      AtConditions (fun _ => 0x80020000)
        (fun s => Completes s 0 ∧ cardAnswer s 0 &&& acmd41Voltage ≠ 0 ∧
          returned (opCond s) = some sdError) :=
  ⟨atConditions_of (by decide +kernel), atConditions_of (by decide +kernel)⟩

end Emmc
