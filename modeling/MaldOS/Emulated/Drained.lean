import MaldOS.Emulated.Answers
import MaldOS.Emulated.Deadlines

/-!
The loop of the timer branch of `c_fiq_handler` as a whole: which timers it
takes, in which order, and what it leaves to the virtual timer.
-/
namespace Emulated
open Arch ByteMemory Registers ArmTimers EmulatedTimers DeadlineMap Runs

def expired (s : System) (now : Nat) : List Timer :=
  s.queue.entries.filter fun r => decide (r.time < now)

def pending (s : System) (now : Nat) : List Timer :=
  s.queue.entries.filter fun r => decide (now ≤ r.time)

def serve (now : Nat) (s : System) (r : Timer) : System :=
  manageTimer { s with queue := (s.queue.nextPending now r).2.2 } r

theorem entries_sorted (q : TimerQueue) : q.entries.Pairwise fun a b => a.time ≤ b.time := by
  obtain ⟨d, xs, rep, lists, view⟩ := queue_view q
  rw [view, List.pairwise_map]
  exact lists.ordered.imp fun {a b} before => @before_deadline_le _ _ _ a b before

theorem nextPending_buffer (q : TimerQueue) (now : Nat) (a b : Timer) :
    (q.nextPending now a).2.2 = (q.nextPending now b).2.2 := by
  have same : (nextPendingTimer q.timers now a).map (fun r => r.2.2) =
      (nextPendingTimer q.timers now b).map (fun r => r.2.2) := by
    unfold nextPendingTimer
    cases headTimer q.timers .pendingTimers with
    | none => rfl
    | some head =>
      cases head with
      | none => rfl
      | some timer =>
        by_cases past : (q.timers.timer timer).time < now
        · simp only [Option.bind_some, if_pos past, Option.map_map, Function.comp_def]
        · simp only [Option.bind_some, if_neg past, Option.map_some]
  obtain ⟨x, first⟩ := Option.isSome_iff_exists.mp (q.nextPendingTimer_some now a)
  obtain ⟨y, second⟩ := Option.isSome_iff_exists.mp (q.nextPendingTimer_some now b)
  rw [first, second] at same
  unfold TimerQueue.nextPending
  simp only [first, second, Option.get_some, TimerQueue.mk.injEq]
  exact Option.some.inj same

theorem expired_cons {s t : System} {r : Timer} {now : Nat}
    (head : s.queue.entries = r :: t.queue.entries) (past : r.time < now) :
    expired s now = r :: expired t now ∧ pending s now = pending t now := by
  unfold expired pending
  rw [head, List.filter_cons_of_pos (by simpa using past), List.filter_cons_of_neg (by simpa using past)]
  exact ⟨rfl, rfl⟩

theorem expired_none {s : System} {r : Timer} {rest : List Timer} {now : Nat}
    (head : s.queue.entries = r :: rest) (due : now ≤ r.time) :
    expired s now = [] ∧ pending s now = s.queue.entries := by
  have sorted := entries_sorted s.queue
  rw [head, List.pairwise_cons] at sorted
  have later : ∀ x ∈ s.queue.entries, now ≤ x.time := by
    intro x member
    rw [head] at member
    rcases List.mem_cons.mp member with rfl | behind
    · exact due
    · exact due.trans (sorted.1 x behind)
  unfold expired pending
  constructor
  · rw [List.filter_eq_nil_iff]
    intro x member
    simpa using later x member
  · rw [List.filter_eq_self]
    intro x member
    simpa using later x member

/-- How the loop ends: with the first timer that is left, or with none. -/
def EndsWith (rest : List Timer) (res : Int) (next : Timer) : Prop :=
  res = 0 ∧ rest.head? = some next ∨ res < 0 ∧ rest = []

/-- As many rounds as timers are past, one for each of them, and then the test that fails. -/
theorem drainLoop_serves (now : Nat) (l : List Timer) (s : System) (next : Timer)
    (past : expired s now = l) :
    drainLoop now l.length s next = none ∧
      ∃ res next', drainLoop now (l.length + 1) s next = some (res, next', l.foldl (serve now) s) ∧
        (l.foldl (serve now) s).queue.entries = pending s now ∧ EndsWith (pending s now) res next' := by
  induction l generalizing s next with
  | nil =>
    refine ⟨rfl, ?_⟩
    obtain ⟨res, r, q, given, cases⟩ := nextPending_cases s.queue now next
    rcases cases with ⟨sign, none, same⟩ | ⟨sign, head, before⟩ | ⟨sign, same, due, rest, head⟩
    · refine ⟨res, r, ?_, ?_, ?_⟩
      · simp only [List.length_nil, drainLoop, given, if_neg (show ¬ res > 0 by omega), same,
          List.foldl_nil]
      · simp [pending, none]
      · exact Or.inr ⟨sign, by simp [pending, none]⟩
    · have taken := (@expired_cons s { s with queue := q } r now head before).1
      rw [past] at taken
      cases taken
    · have all := (expired_none head due).2
      refine ⟨res, r, ?_, all.symm, ?_⟩
      · simp only [List.length_nil, drainLoop, given, if_neg (show ¬ res > 0 by omega), same,
          List.foldl_nil]
      · exact Or.inl ⟨sign, by rw [all, head]; rfl⟩
  | cons first l ih =>
    obtain ⟨res, r, q, given, cases⟩ := nextPending_cases s.queue now next
    rcases cases with ⟨_, none, _⟩ | ⟨sign, head, before⟩ | ⟨_, _, due, rest, head⟩
    · have nothing : expired s now = [] := by simp [expired, none]
      rw [past] at nothing
      cases nothing
    · have queue := manageTimer_queue { s with queue := q } r
      obtain ⟨taken, left⟩ := @expired_cons s (manageTimer { s with queue := q } r) r now
        (by rw [queue]; exact head) before
      rw [past] at taken
      obtain ⟨rfl, tail⟩ := List.cons.inj taken
      have served : serve now s first = manageTimer { s with queue := q } first := by
        have given' := nextPending_buffer s.queue now first next
        rw [given] at given'
        rw [serve, given']
      obtain ⟨short, res', next', ends, entries, leaves⟩ :=
        ih (manageTimer { s with queue := q } first) first tail.symm
      rw [← served] at short ends entries leaves left
      refine ⟨?_, res', next', ?_, ?_, ?_⟩
      · simp only [List.length_cons, drainLoop, given, if_pos sign, ← served, short]
      · rw [List.length_cons, List.foldl_cons, ← ends, drainLoop]
        simp only [given, if_pos sign, ← served]
      · rw [List.foldl_cons, entries, left]
      · rw [left]
        exact leaves
    · have nothing := (expired_none head due).1
      rw [past] at nothing
      cases nothing

theorem drainLoop_more (now extra fuel : Nat) {s : System} {next : Timer}
    {r : Int × Timer × System} (ends : drainLoop now fuel s next = some r) :
    drainLoop now (fuel + extra) s next = some r := by
  induction fuel generalizing s next with
  | zero => cases ends
  | succ fuel ih =>
    rw [Nat.add_right_comm]
    simp only [drainLoop] at ends ⊢
    split_ifs at ends ⊢ with more
    · exact ih ends
    · exact ends

theorem manageTimer_timers (s : System) (r : Timer) :
    (manageTimer s r).clock = s.clock ∧ (manageTimer s r).virtualTimer = s.virtualTimer := by
  unfold manageTimer
  cases owner r with
  | none => exact ⟨rfl, rfl⟩
  | some dev => exact ⟨(manage_quiet s dev).clock, (manage_quiet s dev).virtualTimer⟩

theorem serve_timers (now : Nat) (l : List Timer) (s : System) :
    (l.foldl (serve now) s).clock = s.clock ∧ (l.foldl (serve now) s).virtualTimer = s.virtualTimer := by
  induction l generalizing s with
  | nil => exact ⟨rfl, rfl⟩
  | cons r l ih =>
    obtain ⟨clock, virtualTimer⟩ := ih (serve now s r)
    obtain ⟨clock', virtualTimer'⟩ := manageTimer_timers
      { s with queue := (s.queue.nextPending now r).2.2 } r
    exact ⟨clock.trans clock', virtualTimer.trans virtualTimer'⟩

/-- The register that fires with the first of the timers that are left. -/
def armed (s : System) (now : Nat) : List Timer → ArmTimer
  | [] => disableVirtualCounter s.virtualTimer
  | next :: _ => wholeInterval s.clock (next.time - now)

/-- One call of the branch, with the time that it read: the rounds of its loop and what they leave
    in the queue. -/
structure Drains (s : System) (now : Nat) (s' : System) : Prop where
  rounds : (expired s now).length ≤ s.queue.entries.length
  short : drainLoop now (expired s now).length s noTimer = none
  served : ∃ res next, drainLoop now ((expired s now).length + 1) s noTimer =
    some (res, next, (expired s now).foldl (serve now) s) ∧
      s' = rearm ((expired s now).foldl (serve now) s) now res next
  once : ((expired s now).map Timer.key).Nodup
  ordered : (expired s now).Pairwise fun a b => a.time ≤ b.time
  left : s'.queue.entries = pending s now
  noUnderflow : ∀ next ∈ (pending s now).head?, now ≤ next.time

/-- The virtual timer fires for what is left, or is off. -/
structure Drained (s : System) (now : Nat) (s' : System) : Prop extends Drains s now s' where
  timer : s'.virtualTimer = armed s now (pending s now)

def FirstFits (s : System) (now : Nat) : Prop :=
  ∀ next ∈ (pending s now).head?, FitsRegister s.clock s.virtualTimer (next.time - now)

theorem fiqTimer_rearms (s : System) : ∃ res next,
    drainLoop (getTOD s.clock) ((expired s (getTOD s.clock)).length + 1) s noTimer =
      some (res, next, (expired s (getTOD s.clock)).foldl (serve (getTOD s.clock)) s) ∧
    fiqTimer s = rearm ((expired s (getTOD s.clock)).foldl (serve (getTOD s.clock)) s)
      (getTOD s.clock) res next ∧
    EndsWith (pending s (getTOD s.clock)) res next := by
  obtain ⟨-, res, next, ends, -, leaves⟩ :=
    drainLoop_serves (getTOD s.clock) (expired s (getTOD s.clock)) s noTimer rfl
  refine ⟨res, next, ends, ?_, leaves⟩
  obtain ⟨res', next', t, drained, run⟩ := fiqTimer_drains s
  have enough := drainLoop_more (getTOD s.clock)
    (s.queue.entries.length - (expired s (getTOD s.clock)).length) _ ends
  have rounds : (expired s (getTOD s.clock)).length ≤ s.queue.entries.length :=
    List.length_filter_le _ _
  rw [show (expired s (getTOD s.clock)).length + 1 + (s.queue.entries.length -
    (expired s (getTOD s.clock)).length) = s.queue.entries.length + 1 by omega, drained] at enough
  cases enough
  exact run

theorem pending_due {s : System} {now : Nat} {next : Timer}
    (first : next ∈ (pending s now).head?) : now ≤ next.time := by
  simpa using (List.mem_filter.mp (List.mem_of_mem_head? first)).2

/-- Whatever the queue and the devices hold, the timer branch manages the device of every timer
    that is past, once and in the order of the times. -/
theorem fiqTimer_drains_expired (s : System) : Drains s (getTOD s.clock) (fiqTimer s) := by
  obtain ⟨short, -, -, -, entries, -⟩ :=
    drainLoop_serves (getTOD s.clock) (expired s (getTOD s.clock)) s noTimer rfl
  obtain ⟨res, next, ends, rearmed, -⟩ := fiqTimer_rearms s
  obtain ⟨queue, -, -⟩ := rearm_fields
    ((expired s (getTOD s.clock)).foldl (serve (getTOD s.clock)) s) (getTOD s.clock) res next
  constructor
  · exact List.length_filter_le _ _
  · exact short
  · exact ⟨res, next, ends, rearmed⟩
  · exact (entries_distinct s.queue).sublist (List.filter_sublist.map _)
  · exact (entries_sorted s.queue).sublist List.filter_sublist
  · rw [rearmed, queue, entries]
  · exact fun next first => pending_due first

/-- The 64-bit difference does not underflow, and only its low half is passed on. -/
theorem fiqTimer_programs (s : System) : (fiqTimer s).virtualTimer =
    (pending s (getTOD s.clock)).head?.elim (disableVirtualCounter s.virtualTimer) fun next =>
      (setTimer s.clock s.virtualTimer (next.time - getTOD s.clock)).2 := by
  obtain ⟨res, next, -, rearmed, leaves⟩ := fiqTimer_rearms s
  obtain ⟨clock, virtualTimer⟩ := serve_timers (getTOD s.clock) (expired s (getTOD s.clock)) s
  obtain ⟨-, -, programmed⟩ := rearm_fields
    ((expired s (getTOD s.clock)).foldl (serve (getTOD s.clock)) s) (getTOD s.clock) res next
  rw [rearmed, programmed, clock, virtualTimer]
  rcases leaves with ⟨zero, first⟩ | ⟨sign, none⟩
  · have cut : u32 (u64 (next.time + 2 ^ 64 - getTOD s.clock)) =
        u32 (next.time - getTOD s.clock) := by
      have later := pending_due first
      unfold u32 u64
      omega
    rw [if_pos zero, first, setVirtualTimer, setTimer_congr _ _ cut]
    rfl
  · rw [if_neg (by omega), none]
    rfl

theorem drained_iff (s : System) :
    Drained s (getTOD s.clock) (fiqTimer s) ↔ FirstFits s (getTOD s.clock) := by
  have programs := fiqTimer_programs s
  have timer : (fiqTimer s).virtualTimer =
      armed s (getTOD s.clock) (pending s (getTOD s.clock)) ↔ FirstFits s (getTOD s.clock) := by
    rw [programs]
    unfold FirstFits
    cases pending s (getTOD s.clock) with
    | nil => simp [armed]
    | cons next rest => simp [armed, setTimer_whole_iff]
  constructor
  · exact fun drained => timer.mp drained.timer
  · exact fun fits => ⟨fiqTimer_drains_expired s, timer.mpr fits⟩

/-- In every run, from whatever state, each call of the branch serves the timers that are past and
    leaves the virtual timer to the rest exactly if the interval to the first of these fits. -/
theorem fiqTimer_drains_iff (s : System) (es : List Event) :
    Along happen (fun s e => e = .call .fiq → Drained s (getTOD s.clock) (happen s e)) s es ↔
      Along happen (fun s e => e = .call .fiq → FirstFits s (getTOD s.clock)) s es := by
  refine along_congr (fun s e => imp_congr_right fun called => ?_) es s
  rw [called]
  exact drained_iff s

/-- The header of `DISK0` with a seek time of five minutes for each cylinder. -/
def slowHeader : List (Nat × Byte) := [(5648, 0x3C), (5653, 0xA3), (5654, 0xE1), (5655, 0x11)]

def slowBoot : Boot :=
  { bareBoot with card := ⟨fun a => ((diskBytes ++ slowHeader).lookup a).getD 0, fun _ => none, 0⟩ }

theorem slowBoot_starts : (initSystem slowBoot true).isSome = true := by decide +kernel

def slowSystem : System := (initSystem slowBoot true).get slowBoot_starts

/-- While printer 0 is at work, disk 0 is sent to cylinder 1; then the timer of the printer is
    past. -/
def seekWhilePrinting : List Act :=
  [printA, .request (.disk, 0) 0x10100 ⟨0, 0x10000 ||| seekcyl, 0, 0, 0⟩, .tick 400]

def seeking : System := run step slowSystem seekWhilePrinting

/-- The printer is served, and the virtual timer stays at the time of the printer. -/
theorem long_seek_unarmed :
    Reachable seeking ∧ getTOD seeking.clock = 20 ∧
      (pending seeking 20).map Timer.time = [300000000] ∧
      (fiqTimer seeking).virtualTimer = ⟨true, 153⟩ ∧
      ¬ Along happen (fun s e => e = .call .fiq → Drained s (getTOD s.clock) (happen s e)) seeking
        [.call .fiq] := by
  have now : getTOD seeking.clock = 20 := by decide +kernel
  have kept : (fiqTimer seeking).virtualTimer = ⟨true, 153⟩ := by decide +kernel
  have other : armed seeking 20 (pending seeking 20) ≠ ⟨true, 153⟩ := by decide +kernel
  refine ⟨⟨slowBoot, true, slowSystem, seekWhilePrinting, (Option.some_get _).symm, rfl⟩, now,
    by decide +kernel, kept, ?_⟩
  rintro ⟨drained, -⟩
  have timer := (drained rfl).timer
  rw [now] at timer
  exact other (timer.symm.trans kept)

end Emulated
