import MaldOS.Hal.MailboxReplies

/-!
The calls of `mailbox.c` come back. With no other mail, six rounds in which core 0
and the GPU each have a turn, in any order, see a call through.
-/
namespace Mailbox
open Runs Rounds

inductive Party where
  | core
  | gpu

/-- What the GPU replies, and what an empty mailbox reads as. -/
structure Habits where
  reply : State → List Value
  stale : State → Value

def Habits.act (h : Habits) (s : State) : Party → Act
  | .core => .access (h.stale s)
  | .gpu => if s.outbox = [] then .answer 0 (h.reply s) else .fetch

def turn (depth : Nat) (h : Habits) (p : State × Log) (who : Party) : State × Log :=
  logged depth p (h.act p.1 who)

def progress (p : State × Log) : Nat :=
  match p.1.phase with
  | .idle => 0
  | .waitWrite _ => 0
  | .write _ => 1
  | .waitRead _ => if p.1.outbox ≠ [] then 2 else if p.1.held ≠ [] then 3 else 4
  | .read _ => 5
  | .returned _ _ => 6

structure Under (c : Call) (p : State × Log) : Prop where
  inv : Inv p.1 p.2
  only : OnlyProp p.1
  call : p.1.phase.call = some c

def Over (p : State × Log) : Prop := ∃ c ok, p.1.phase = .returned c ok

theorem act_kind (h : Habits) (s : State) (who : Party) : ∀ mail, h.act s who ≠ .notify mail := by
  intro mail wrong
  cases who with
  | core => cases wrong
  | gpu =>
    unfold Habits.act at wrong
    dsimp only at wrong
    split_ifs at wrong

theorem turn_call (depth : Nat) (h : Habits) (p : State × Log) (who : Party) :
    (turn depth h p who).1.phase.call = p.1.phase.call := by
  cases who with
  | core => exact accessAt_call depth p.1 _
  | gpu =>
    unfold turn logged Habits.act
    dsimp only
    split_ifs
    · unfold step
      dsimp only
      split <;> rfl
    · unfold step
      dsimp only
      split <;> rfl

theorem under_turn (depth : Nat) (h : Habits) {c : Call} {p : State × Log} (under : Under c p)
    (who : Party) : Under c (turn depth h p who) where
  inv := inv_step depth under.inv (heeds_of_onlyProp under.only) _
  only := onlyProp_step depth under.only (act_kind h p.1 who)
  call := (turn_call depth h p who).trans under.call

theorem back_of_inbox {c : Call} {s : State} {log : Log} (only : OnlyProp s)
    (underway : Sent c s log ∨ Back c s log) (some : s.inbox ≠ []) :
    s.inbox = [c.value] ∧ Back c s log := by
  obtain ⟨v, rest, mail⟩ := List.exists_cons_of_ne_nil some
  have prop : ∀ u ∈ s.inbox, OnProp u := fun u member => only u (List.mem_append_right _ member)
  obtain ⟨own, others, back⟩ := back_of_mail underway mail (prop v (by simp [mail]))
  refine ⟨?_, back⟩
  have all : s.inbox.filter OnProp = s.inbox := by
    rw [List.filter_eq_self]
    simpa using prop
  exact all.symm.trans back.incoming

theorem core_turn {depth : Nat} (room : 0 < depth) (h : Habits) {c : Call} {p : State × Log}
    (under : Under c p) :
    (turn depth h p .core = p ∧ (Over p ∨ ∃ d, p.1.phase = .waitRead d ∧ p.1.inbox = [])) ∨
      progress p < progress (turn depth h p .core) := by
  obtain ⟨s, log⟩ := p
  have inv := under.inv
  unfold Inv at inv
  dsimp only at inv
  cases phase : s.phase with
  | idle =>
    have wrong := under.call
    dsimp only at wrong
    rw [phase] at wrong
    cases wrong
  | waitWrite d =>
    rw [phase] at inv
    have prop : ∀ v ∈ s.inbox, OnProp v := fun v member =>
      under.only v (List.mem_append_right _ member)
    have empty : s.inbox = [] := by
      rw [← inv.1.incoming, eq_comm, List.filter_eq_self]
      simpa using prop
    have free : ¬ depth ≤ s.inbox.length := by
      rw [empty]
      exact Nat.not_le.mpr room
    right
    simp only [turn, logged, Habits.act, step, phase, accessAt, if_neg free, progress]
    omega
  | write d =>
    right
    simp [turn, logged, Habits.act, step, phase, accessAt, progress]
  | waitRead d =>
    by_cases empty : s.inbox = []
    · left
      refine ⟨?_, Or.inr ⟨d, rfl, empty⟩⟩
      simp [turn, logged, Habits.act, step, logAct, phase, accessAt, empty]
    · right
      simp only [turn, logged, Habits.act, step, phase, accessAt, progress, empty, if_false]
      split_ifs <;> omega
  | read d =>
    rw [phase] at inv
    obtain ⟨mail, -⟩ := back_of_inbox under.only inv.1 inv.2
    have prop : d.value &&& 0xF = mboxChProp := value_onProp d
    right
    simp only [turn, logged, Habits.act, step, phase, accessAt, progress, load_mail mail]
    cases waiter : d.waiter with
    | mboxCall => simp
    | readMailbox0 =>
      simp only [prop, ne_eq, not_true, if_false]
      omega
  | returned d ok =>
    left
    refine ⟨?_, Or.inl ⟨d, ok, phase⟩⟩
    simp [turn, logged, Habits.act, step, logAct, phase, accessAt]

theorem gpu_turn (depth : Nat) (h : Habits) {c : Call} {p : State × Log} (under : Under c p) :
    (turn depth h p .gpu = p ∧ p.1.outbox ++ p.1.held = []) ∨
      progress p < progress (turn depth h p .gpu) := by
  obtain ⟨s, log⟩ := p
  rcases outgoing_of_inv under.inv with none | ⟨d, phase, sent⟩
  · left
    obtain ⟨outbox, held⟩ := List.append_eq_nil_iff.mp none
    dsimp only at outbox held
    refine ⟨?_, none⟩
    simp [turn, logged, Habits.act, step, logAct, outbox, held]
  · right
    rcases phase with waits | reads
    · dsimp only at waits
      by_cases fetched : s.outbox = []
      · have held : s.held = [d.value] := by
          have outgoing := sent.outgoing
          dsimp only at outgoing
          rwa [fetched, List.nil_append] at outgoing
        simp [turn, logged, Habits.act, step, progress, waits, fetched, held]
      · obtain ⟨v, rest, outbox⟩ := List.exists_cons_of_ne_nil fetched
        have last : rest = [] := by
          have outgoing := sent.outgoing
          dsimp only at outgoing
          rw [outbox] at outgoing
          exact (List.append_eq_nil_iff.mp (List.cons.inj outgoing).2).1
        simp [turn, logged, Habits.act, step, progress, waits, outbox, last]
    · -- a load waits for mail, and that is the reply
      exfalso
      have inv := under.inv
      unfold Inv at inv
      rw [reads] at inv
      have back := back_of_inbox under.only inv.1 inv.2
      have none := sent.incoming
      rw [back.1] at none
      simp [value_onProp] at none

theorem turn_grows {depth : Nat} (room : 0 < depth) (h : Habits) {c : Call} {p : State × Log}
    (under : Under c p) (who : Party) :
    turn depth h p who = p ∨ progress p < progress (turn depth h p who) := by
  cases who with
  | core => exact (core_turn room h under).imp_left fun still => still.1
  | gpu => exact (gpu_turn depth h under).imp_left fun still => still.1

theorem turn_moves {depth : Nat} (room : 0 < depth) (h : Habits) {c : Call} {p : State × Log}
    (under : Under c p) (going : ¬ Over p) : ∃ who, turn depth h p who ≠ p := by
  have moved : ∀ who, progress p < progress (turn depth h p who) → turn depth h p who ≠ p := by
    intro who more same
    rw [same] at more
    omega
  rcases core_turn room h under with ⟨-, over_ | ⟨d, waits, empty⟩⟩ | more
  · exact absurd over_ going
  · refine ⟨.gpu, moved .gpu ((gpu_turn depth h under).resolve_left ?_)⟩
    rintro ⟨-, none⟩
    have inv := under.inv
    unfold Inv at inv
    rw [waits] at inv
    rcases inv with sent | back
    · have outgoing := sent.outgoing
      rw [none] at outgoing
      cases outgoing
    · have incoming := back.incoming
      rw [empty] at incoming
      cases incoming
  · exact ⟨.core, moved .core more⟩

theorem over_turn (depth : Nat) (h : Habits) {c : Call} {p : State × Log} (under : Under c p)
    (ended : Over p) (who : Party) : turn depth h p who = p := by
  obtain ⟨s, log⟩ := p
  obtain ⟨d, ok, phase⟩ := ended
  dsimp only at phase
  cases who with
  | core => simp [turn, logged, Habits.act, step, logAct, phase, accessAt]
  | gpu =>
    have inv := under.inv
    unfold Inv at inv
    rw [phase] at inv
    obtain ⟨outbox, held⟩ := List.append_eq_nil_iff.mp inv.1.outgoing
    dsimp only at outbox held
    simp [turn, logged, Habits.act, step, logAct, outbox, held]

theorem progress_bound {p : State × Log} (going : ¬ Over p) : progress p < 6 := by
  unfold progress
  split
  · omega
  · omega
  · omega
  · split_ifs <;> omega
  · omega
  · next c ok phase => exact absurd ⟨c, ok, phase⟩ going

theorem under_call (depth : Nat) (as : List Act) (only : ∀ mail, Act.notify mail ∉ as) {s : State}
    (quiet : Quiet s) (log : Log) (c : Call)
    (free : (run (logged depth) (s, log) as).1.phase.Free) :
    Under c (run (logged depth) (s, log) (as ++ [.call c])) := by
  have called : ∀ mail, Act.notify mail ∉ as ++ [.call c] := by simp [only]
  obtain ⟨inv, onProp⟩ := run_only depth (as ++ [.call c]) called quiet log
  refine ⟨inv, onProp, ?_⟩
  rw [run_append]
  simp only [run, logged, step, if_pos free, Phase.call]

/-- After any calls without other mail, six rounds bring the next call back with the GPU's reply
    to it. -/
theorem call_returns {depth : Nat} (room : 0 < depth) (h : Habits) (as : List Act)
    (only : ∀ mail, Act.notify mail ∉ as) {s : State} (quiet : Quiet s) (log : Log) (c : Call)
    (free : (run (logged depth) (s, log) as).1.phase.Free) (rounds : List (List Party))
    (fair : ∀ r ∈ rounds, ∀ who, who ∈ r) (enough : 6 ≤ rounds.length) :
    ∃ ok reply, Returned c ok (run (turn depth h)
      (run (logged depth) (s, log) (as ++ [.call c])) rounds.flatten) reply := by
  have start := under_call depth as only quiet log c free
  have under := @run_invariant _ _ (turn depth h) (Under c)
    (fun p who here => under_turn depth h here who) rounds.flatten _ start
  obtain ⟨d, ok, phase⟩ := @rounds_done _ _ (turn depth h) (Under c) Over progress
    (fun p who here => turn_grows room h here who) (fun p who here => under_turn depth h here who)
    (fun p who here ended => (over_turn depth h here ended who).symm ▸ ended)
    (fun p here going => turn_moves room h here going) 6 (fun p _ going => progress_bound going)
    rounds fair enough _ start
  have own : d = c := by
    have call := under.call
    rw [phase] at call
    exact Option.some.inj call
  subst own
  obtain ⟨reply, returned⟩ := returned_of_inv under.inv phase
  exact ⟨ok, reply, returned⟩

def sampleHabits : Habits := ⟨fun _ => [32, mboxResponse, 0x10005, 8, 8, 0, 0x3C000000, 0], fun _ => 0⟩

theorem call_returns_sample :
    ∃ ok reply, Returned (getMemorySplit 0x1000 (by decide)) ok
      (run (turn 8 sampleHabits) (run (logged 8) (atRest, ⟨atRest.memory, []⟩)
        ([] ++ [.call (getMemorySplit 0x1000 (by decide))]))
        (List.replicate 6 [.core, .gpu]).flatten) reply := by
  apply call_returns (by decide) sampleHabits [] (by simp) atRest_quiet _ _ rfl
  · intro r member who
    rw [List.eq_of_mem_replicate member]
    cases who <;> simp
  · simp

end Mailbox
