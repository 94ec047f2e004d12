import MaldOS.Hal.Emmc

/-!
What a command leaves behind. Around the two writes that give it out the driver
looks at STATUS and INTERRUPT and waits.
-/
namespace Emmc
open Polling

def Idle : Event → Prop
  | .read r _ => r = .status ∨ r = .interrupt
  | .write r _ => r = .interrupt
  | .exchange _ _ => False
  | .wait _ => True

structure Quiet (s t : Host) : Prop where
  answers : t.answers = s.answers
  reads : ∀ r, r ≠ .status → r ≠ .interrupt → t.reads r = s.reads r
  sdScr0 : t.sdScr0 = s.sdScr0
  sdRca : t.sdRca = s.sdRca
  sdErr : t.sdErr = s.sdErr
  log : ∃ idle : List Event, t.log = s.log ++ idle ∧ ∀ e ∈ idle, Idle e

theorem Quiet.refl (s : Host) : Quiet s s :=
  ⟨rfl, fun _ _ _ => rfl, rfl, rfl, rfl, [], (List.append_nil _).symm, by simp⟩

theorem Quiet.trans {s t u : Host} (first : Quiet s t) (next : Quiet t u) : Quiet s u := by
  obtain ⟨before, logged, idle⟩ := first.log
  obtain ⟨after, loggedAfter, idleAfter⟩ := next.log
  refine ⟨next.answers.trans first.answers, fun r status interrupt => ?_,
    next.sdScr0.trans first.sdScr0, next.sdRca.trans first.sdRca, next.sdErr.trans first.sdErr,
    before ++ after, ?_, ?_⟩
  · rw [next.reads r status interrupt, first.reads r status interrupt]
  · rw [loggedAfter, logged, List.append_assoc]
  · intro e member
    rcases List.mem_append.mp member with earlier | later
    · exact idle e earlier
    · exact idleAfter e later

theorem read_quiet {r : Reg} (waits : r = .status ∨ r = .interrupt) (s : Host) :
    Quiet s (s.read r).2 := by
  refine ⟨rfl, fun other status interrupt => ?_, rfl, rfl, rfl, [_], rfl, ?_⟩
  · rcases waits with rfl | rfl
    · exact Function.update_of_ne status _ _
    · exact Function.update_of_ne interrupt _ _
  · simpa [Idle] using waits

theorem write_quiet (s : Host) (value : Word) : Quiet s (s.write .interrupt value) :=
  ⟨rfl, fun _ _ _ => rfl, rfl, rfl, rfl, [_], rfl, by simp [Idle]⟩

theorem wait_quiet (s : Host) (msec : Nat) : Quiet s (s.wait msec) :=
  ⟨rfl, fun _ _ _ => rfl, rfl, rfl, rfl, [_], rfl, by simp [Idle]⟩

theorem statusGoesOn_quiet (mask : Word) (s : Host) : Quiet s (statusGoesOn mask s).2 := by
  have status : Quiet s (tests .status mask s).2 := read_quiet (.inl rfl) s
  unfold statusGoesOn
  dsimp only
  split_ifs
  · exact status.trans (read_quiet (.inr rfl) _)
  · exact status

theorem sdStatus_quiet (mask : Word) (s : Host) : Quiet s (sdStatus mask s).2 := by
  have polled : Quiet s (poll (statusGoesOn mask) (·.wait 1) 500000 s).2 :=
    poll_keeps (r := Quiet) Quiet.trans (statusGoesOn_quiet mask) (fun s => wait_quiet s 1) 500000 s
  unfold sdStatus
  dsimp only
  split_ifs
  · exact polled
  · exact polled.trans (read_quiet (.inr rfl) _)
  · exact polled.trans (read_quiet (.inr rfl) _)

theorem intGoesOn_quiet (mask : Word) (s : Host) : Quiet s (intGoesOn mask s).2 :=
  read_quiet (.inr rfl) s

theorem sdInt_quiet (mask : Word) (s : Host) : Quiet s (sdInt mask s).2 := by
  have polled : Quiet s (poll (intGoesOn mask) (·.wait 1) 2000 s).2 :=
    poll_keeps (r := Quiet) Quiet.trans (intGoesOn_quiet mask) (fun s => wait_quiet s 1) 2000 s
  have looked := polled.trans (read_quiet (.inr rfl) _)
  unfold sdInt
  dsimp only
  split_ifs <;> exact looked.trans (write_quiet _ _)

theorem setErr_ne {err : Word} (fails : err ≠ 0) (s : Host) : (s.setErr err).sdErr ≠ 0 := by
  intro none
  have read : (err.signExtend 64).toInt = err.toInt := BitVec.toInt_signExtend_of_le (by omega)
  have zero : err.signExtend 64 = 0 := none
  rw [zero] at read
  exact fails (BitVec.eq_of_toInt_eq (by simpa using read.symm))

def Host.put (s : Host) (code arg : Word) : Host := (s.write .arg1 arg).write .cmdtm code

inductive Sent (code arg : Word) (s : Host) : Word × Host → Prop
  | refused {t : Host} : Quiet s t → (sdStatus srCmdInhibit s).1 ≠ 0 →
      Sent code arg s (0, t.setErr sdTimeout)
  | failed {t u : Host} {r : Word} : (sdStatus srCmdInhibit s).1 = 0 → Quiet s t →
      Quiet (t.put code arg) u → r ≠ 0 → Sent code arg s (0, u.setErr r)
  | done {t u : Host} : (sdStatus srCmdInhibit s).1 = 0 → Quiet s t →
      Quiet (t.put code arg) u → Sent code arg s (answer code arg u)

theorem sendCode_quiet (code arg : Word) (s : Host) :
    Quiet ((s.modify .interrupt id).put code arg) (sendCode code arg s) := by
  unfold sendCode
  dsimp only
  split_ifs
  · exact wait_quiet _ 1000
  · exact wait_quiet _ 100
  · exact Quiet.refl _

theorem sdCmdPlain_sent (code arg : Word) (s : Host) : Sent code arg s (sdCmdPlain code arg s) := by
  have status := sdStatus_quiet srCmdInhibit s
  have cleared : Quiet s ((sdStatus srCmdInhibit s).2.modify .interrupt id) :=
    status.trans ((read_quiet (.inr rfl) _).trans (write_quiet _ _))
  have waited := (sendCode_quiet code arg (sdStatus srCmdInhibit s).2).trans
    (sdInt_quiet intCmdDone _)
  unfold sdCmdPlain
  dsimp only
  split_ifs with busy fails
  · exact .refused status busy
  · exact .failed (not_not.mp busy) cleared waited fails
  · exact .done (not_not.mp busy) cleared waited

structure Keeps (s t : Host) : Prop where
  answers : t.answers = s.answers
  sdScr0 : t.sdScr0 = s.sdScr0
  sdRca : t.sdRca = s.sdRca

theorem Keeps.trans {s t u : Host} (first : Keeps s t) (next : Keeps t u) : Keeps s u :=
  ⟨next.answers.trans first.answers, next.sdScr0.trans first.sdScr0, next.sdRca.trans first.sdRca⟩

theorem Quiet.keeps {s t : Host} (quiet : Quiet s t) : Keeps s t :=
  ⟨quiet.answers, quiet.sdScr0, quiet.sdRca⟩

theorem setErr_keeps (s : Host) (err : Word) : Keeps s (s.setErr err) := ⟨rfl, rfl, rfl⟩

theorem write_keeps (s : Host) (r : Reg) (value : Word) : Keeps s (s.write r value) :=
  ⟨rfl, rfl, rfl⟩

theorem put_keeps (s : Host) (code arg : Word) : Keeps s (s.put code arg) := ⟨rfl, rfl, rfl⟩

theorem answer_keeps (code arg : Word) (s : Host) : Keeps s (answer code arg s).2 := by
  unfold answer
  dsimp only
  split_ifs <;> exact ⟨rfl, rfl, rfl⟩

theorem sdCmdPlain_keeps (code arg : Word) (s : Host) : Keeps s (sdCmdPlain code arg s).2 := by
  have ends := sdCmdPlain_sent code arg s
  generalize sdCmdPlain code arg s = p at ends ⊢
  cases ends with
  | refused waited => exact waited.keeps.trans (setErr_keeps _ _)
  | failed _ waited last =>
    exact waited.keeps.trans ((put_keeps _ _ _).trans (last.keeps.trans (setErr_keeps _ _)))
  | done _ waited last =>
    exact waited.keeps.trans ((put_keeps _ _ _).trans (last.keeps.trans (answer_keeps _ _ _)))

theorem sdAppCmd_keeps (s : Host) : Keeps s (sdAppCmd s).2 :=
  (setErr_keeps s sdOk).trans (sdCmdPlain_keeps _ _ _)

theorem sdCmd_keeps (code arg : Word) (s : Host) : Keeps s (sdCmd code arg s).2 := by
  have cleared := setErr_keeps s sdOk
  have prefixed := cleared.trans (sdAppCmd_keeps (s.setErr sdOk))
  unfold sdCmd
  dsimp only
  split_ifs
  · exact prefixed.trans (setErr_keeps _ sdError)
  · exact prefixed.trans (sdCmdPlain_keeps _ _ _)
  · exact cleared.trans (sdCmdPlain_keeps code arg _)

/-! The log of a command. -/

def AllIdle (l : List Event) : Prop := ∀ e ∈ l, Idle e

/-- A code that `sd_cmd` has no treatment of its own for, and without the flag. -/
def Ordinary (code : Word) : Prop :=
  code &&& cmdNeedApp = 0 ∧ code ≠ cmdAllSendCid ∧ code ≠ cmdSendRelAddr

instance (code : Word) : Decidable (Ordinary code) := inferInstanceAs (Decidable (_ ∧ _ ∧ _))

/-- The log of a command that was given out, and of one that was done. -/
def Given (code arg : Word) (l : List Event) : Prop :=
  ∃ before after, AllIdle before ∧ AllIdle after ∧
    l = before ++ .write .arg1 arg :: .write .cmdtm code :: after

def Done (code arg : Word) (l : List Event) : Prop :=
  ∃ begun value, Given code arg begun ∧ l = begun ++ [.read .resp0 value]

/-- What an ordinary command adds to the log, with `sd_err` behind it. -/
inductive Traced (code arg : Word) (s t : Host) : Prop
  | refused {l : List Event} : (sdStatus srCmdInhibit (s.setErr sdOk)).1 ≠ 0 → AllIdle l →
      t.log = s.log ++ l → t.sdErr ≠ 0 → Traced code arg s t
  | failed {l : List Event} : (sdStatus srCmdInhibit (s.setErr sdOk)).1 = 0 → Given code arg l →
      t.log = s.log ++ l → t.sdErr ≠ 0 → Traced code arg s t
  | done {l : List Event} : (sdStatus srCmdInhibit (s.setErr sdOk)).1 = 0 → Done code arg l →
      t.log = s.log ++ l → t.sdErr = 0 → Traced code arg s t

theorem answer_ordinary {code : Word} (ordinary : Ordinary code) (arg : Word) (s : Host) :
    (answer code arg s).2 = (s.read .resp0).2 := by
  unfold answer
  dsimp only
  rw [if_neg ordinary.2.1, if_neg ordinary.2.2]
  split_ifs <;> rfl

theorem given_of_quiet {code arg : Word} {s t u : Host} (waited : Quiet s t)
    (last : Quiet (t.put code arg) u) : ∃ l, Given code arg l ∧ u.log = s.log ++ l := by
  obtain ⟨before, logged, idle⟩ := waited.log
  obtain ⟨after, loggedAfter, idleAfter⟩ := last.log
  refine ⟨_, ⟨before, after, idle, idleAfter, rfl⟩, ?_⟩
  rw [loggedAfter]
  simp [Host.put, Host.write, logged]

theorem sdCmd_traced {code : Word} (ordinary : Ordinary code) (arg : Word) (s : Host) :
    Traced code arg s (sdCmd code arg s).2 := by
  have plain : sdCmd code arg s = sdCmdPlain code arg (s.setErr sdOk) := by
    unfold sdCmd
    dsimp only
    rw [if_neg (not_not.mpr ordinary.1)]
  have ends := sdCmdPlain_sent code arg (s.setErr sdOk)
  rw [plain]
  generalize sdCmdPlain code arg (s.setErr sdOk) = p at ends ⊢
  cases ends with
  | refused waited busy =>
    obtain ⟨l, logged, idle⟩ := waited.log
    exact .refused busy idle logged (setErr_ne (by decide) _)
  | failed free waited last fails =>
    obtain ⟨l, given, logged⟩ := given_of_quiet waited last
    exact .failed free given logged (setErr_ne fails _)
  | @done t u free waited last =>
    obtain ⟨l, given, logged⟩ := given_of_quiet waited last
    rw [answer_ordinary ordinary]
    refine .done free ⟨l, u.next .resp0, given, rfl⟩ ?_ ?_
    · change u.log ++ _ = _
      rw [logged, List.append_assoc]
      rfl
    · exact last.sdErr.trans waited.sdErr

/-- The last two looks of `sd_int` at INTERRUPT where it gives 0. The first ends the loop, the
    second is for errors alone. -/
def Signalled (mask first second : Word) : Prop :=
  (first &&& mask ≠ 0 ∨ first &&& intErrorMask ≠ 0) ∧ second &&& intErrorMask = 0

def Signal (mask : Word) (l : List Event) : Prop :=
  ∃ idle first second, AllIdle idle ∧ Signalled mask first second ∧ l = idle ++
    [.read .interrupt first, .read .interrupt second, .write .interrupt mask]

theorem sdInt_signal {mask : Word} {s : Host} (found : (sdInt mask s).1 = 0) :
    ∃ l, Signal mask l ∧ (sdInt mask s).2.log = s.log ++ l := by
  have ends := poll_ends (r := Quiet) Quiet.refl Quiet.trans (intGoesOn_quiet mask)
    (fun s => wait_quiet s 1) 2000 s
  unfold sdInt at found ⊢
  dsimp only at found ⊢
  split_ifs at found ⊢ with out fails
  · exact absurd found (show sdTimeout ≠ 0 by decide)
  · exact absurd found (show sdError ≠ 0 by decide)
  · rcases ends with expired | ⟨t, waited, off, last⟩
    · exact absurd (.inl (by rw [expired]; decide)) out
    · obtain ⟨idle, logged, quiet⟩ := waited.log
      have seen : t.next .interrupt &&& (mask ||| intErrorMask) ≠ 0 := by
        have on : (!decide (t.next .interrupt &&& (mask ||| intErrorMask) ≠ 0)) = false := off
        rw [Bool.not_eq_false'] at on
        exact of_decide_eq_true on
      refine ⟨_, ⟨idle, t.next .interrupt, _, quiet, ⟨?_, not_not.mp fails⟩, rfl⟩, ?_⟩
      · by_contra neither
        obtain ⟨unready, right⟩ := not_or.mp neither
        rw [BitVec.and_or_distrib_left, not_not.mp unready, not_not.mp right] at seen
        exact seen rfl
      · rw [last]
        simp [intGoesOn, tests, Host.read, Host.write, logged]

end Emmc
