import MaldOS.Timers.QueueRefinement

/-!
The pool as its callers see it: whole runs of the two calls they make, and the
type of the pools that hold a map, on which both calls are total.
-/
namespace EmulatedTimers
open LinkedRing Arch DeadlineMap

/-- One call; the copied timer stays in the caller's `next`. The result is `none`
    where a request is dropped too. -/
def call (s : Timers × Timer) : Op Key Nat → Option (Answer Key Nat × Timers × Timer)
  | .set k time =>
    (addTimer s.1 time k.1 k.2).bind fun
      | (true, t) => some (.stored, t, s.2)
      | (false, _) => none
  | .next now => (nextPendingTimer s.1 now s.2).map fun (res, r, t) => (answer (res, r), t, r)

def calls (s : Timers × Timer) :
    List (Op Key Nat) → Option (List (Answer Key Nat) × Timers × Timer)
  | [] => some ([], s)
  | op :: ops =>
    (call s op).bind fun (given, s) =>
      (calls s ops).map fun (answers, s) => (given :: answers, s)

theorem call_refines {t : Timers} {d : Deadlines Key Nat} (rep : Represents t d)
    (next : Timer) (op : Op Key Nat) :
    ∃ given t' next' d', call (t, next) op = some (given, t', next') ∧ Step d op given d' ∧
      Represents t' d' := by
  cases op with
  | set k time =>
    obtain ⟨t', added, rep'⟩ := addTimer_refines rep time k.1 k.2
    exact ⟨.stored, t', next, d.set k time, by simp [call, added], .set d k time, rep'⟩
  | next now =>
    obtain ⟨res, r, t', d', found, step, rep'⟩ := nextPendingTimer_refines rep now next
    exact ⟨answer (res, r), t', r, d', by simp [call, found], step, rep'⟩

theorem calls_refine (ops : List (Op Key Nat)) {t : Timers} {d : Deadlines Key Nat}
    (rep : Represents t d) (next : Timer) :
    ∃ answers t' next' d', calls (t, next) ops = some (answers, t', next') ∧
      Steps d ops answers d' ∧ Represents t' d' := by
  induction ops generalizing t d next with
  | nil => exact ⟨[], t, next, d, rfl, .nil d, rep⟩
  | cons op ops ih =>
    obtain ⟨given, t₁, next₁, d₁, first, step, rep₁⟩ := call_refines rep next op
    obtain ⟨answers, t₂, next₂, d₂, rest, steps, rep₂⟩ := ih rep₁ next₁
    exact ⟨given :: answers, t₂, next₂, d₂, by simp [calls, first, rest], .cons step steps, rep₂⟩

theorem nextPendingTimer_keeps {t t' : Timers} {now : Nat} {next r : Timer} {res : Int}
    (found : nextPendingTimer t now next = some (res, r, t')) (kept : res ≠ 1) : t' = t := by
  unfold nextPendingTimer at found
  cases head : headTimer t .pendingTimers with
  | none => simp [head] at found
  | some top =>
    cases top with
    | none => simp [head] at found; exact found.2.2.symm
    | some i =>
      by_cases past : (t.timer i).time < now
      · simp [head, past] at found
        obtain ⟨a, b, _, one, _⟩ := found
        omega
      · simp [head, past] at found
        exact found.2.2.symm

/-- No sequence of calls fails; the answers are those of the map, and the two rings
    share out the nodes with the pending one in the order of the queue. -/
theorem timer_queue_refines_map (ops : List (Op Key Nat)) (next : Timer) :
    ∃ answers t next' d p f xs,
      calls (initEmulatedTimers, next) ops = some (answers, t, next') ∧
        Steps (Deadlines.none Key Nat) ops answers d ∧
        Shares t p f [] ∧ p.map t.timer = xs.map queued ∧ Lists d xs ∧
        (p.map fun i => (t.timer i).key).Nodup ∧
        ∀ now buffer res r t', nextPendingTimer t now buffer = some (res, r, t') → res ≠ 1 →
          t' = t := by
  obtain ⟨answers, t, next', d, run, steps, p, f, xs, shares, same, lists⟩ :=
    calls_refine ops init_represents next
  have keys : (p.map fun i => (t.timer i).key) = xs.map Entry.key := by
    have mapped := congrArg (List.map Timer.key) same
    simp only [List.map_map] at mapped
    exact mapped
  have distinct : (p.map fun i => (t.timer i).key).Nodup := by
    rw [keys]
    exact lists_keys_nodup lists
  exact ⟨answers, t, next', d, p, f, xs, run, steps, shares, same, lists, distinct,
    fun now buffer res r t' found kept => nextPendingTimer_keeps found kept⟩

/-- The pools that hold a map; every pool the program has after `initEmulatedTimers` is one. -/
structure TimerQueue where
  timers : Timers
  held : ∃ d, Represents timers d

namespace TimerQueue

def empty : TimerQueue := ⟨initEmulatedTimers, _, init_represents⟩

theorem addTimer_some (q : TimerQueue) (time : Nat) (type : TimerType) (code : Fin maxDevices) :
    (addTimer q.timers time type code).isSome := by
  obtain ⟨d, rep⟩ := q.held
  obtain ⟨t, added, _⟩ := addTimer_refines rep time type code
  simp [added]

def add (q : TimerQueue) (time : Nat) (type : TimerType) (code : Fin maxDevices) : TimerQueue where
  timers := ((addTimer q.timers time type code).get (addTimer_some q time type code)).2
  held := by
    obtain ⟨d, rep⟩ := q.held
    obtain ⟨t, added, rep'⟩ := addTimer_refines rep time type code
    simp only [added, Option.get_some]
    exact ⟨_, rep'⟩

theorem nextPendingTimer_some (q : TimerQueue) (now : Nat) (next : Timer) :
    (nextPendingTimer q.timers now next).isSome := by
  obtain ⟨d, rep⟩ := q.held
  obtain ⟨res, r, t, d', found, _⟩ := nextPendingTimer_refines rep now next
  simp [found]

def nextPending (q : TimerQueue) (now : Nat) (next : Timer) : Int × Timer × TimerQueue :=
  let found := (nextPendingTimer q.timers now next).get (nextPendingTimer_some q now next)
  (found.1, found.2.1, {
    timers := found.2.2
    held := by
      obtain ⟨d, rep⟩ := q.held
      obtain ⟨res, r, t, d', same, _, rep'⟩ := nextPendingTimer_refines rep now next
      simp only [found, same, Option.get_some]
      exact ⟨d', rep'⟩ })

theorem nextTimer_some (q : TimerQueue) (next : Timer) : (nextTimer q.timers next).isSome := by
  obtain ⟨d, p, f, xs, shares, _⟩ := q.held
  cases p with
  | nil => simp [nextTimer, headTimer_empty shares]
  | cons i p => simp [nextTimer, headTimer_spec shares]

def next (q : TimerQueue) (next : Timer) : Int × Timer :=
  (nextTimer q.timers next).get (nextTimer_some q next)

def entries (q : TimerQueue) : List Timer :=
  ((walk q.timers.links .pendingTimers maxTimers (q.timers.links.next .pendingTimers)).filterMap
    containerOf).map q.timers.timer

def due (q : TimerQueue) (type : TimerType) (code : Fin maxDevices) : List Timer :=
  q.entries.filter fun r => decide (r.type = type ∧ r.code = code)

def others (q : TimerQueue) (type : TimerType) (code : Fin maxDevices) : List Timer :=
  q.entries.filter fun r => decide ((r.type, r.code) ≠ (type, code))

end TimerQueue

theorem entries_shares {q : TimerQueue} {p f : List (Fin maxTimers)}
    {xs : List (Entry Key Nat)} (shares : Shares q.timers p f [])
    (same : p.map q.timers.timer = xs.map queued) : q.entries = xs.map queued := by
  have short : (nodes p).length ≤ maxTimers := by
    have total := shares.whole.length_eq
    simp only [List.nil_append, List.length_append, List.length_finRange] at total
    simp only [nodes, List.length_map]
    omega
  have back : (nodes p).filterMap containerOf = p := by
    rw [nodes, List.filterMap_map]
    exact List.filterMap_some
  rw [TimerQueue.entries, walk_ring shares.pending _ short, back, same]

theorem entries_lists {q : TimerQueue} {d : Deadlines Key Nat} {xs : List (Entry Key Nat)}
    (rep : Represents q.timers d) (lists : Lists d xs) : q.entries = xs.map queued := by
  obtain ⟨p, f, ys, shares, same, listsy⟩ := rep
  rw [lists_unique lists listsy]
  exact entries_shares shares same

theorem queue_view (q : TimerQueue) :
    ∃ d xs, Represents q.timers d ∧ Lists d xs ∧ q.entries = xs.map queued := by
  obtain ⟨d, p, f, xs, shares, same, lists⟩ := q.held
  exact ⟨d, xs, ⟨p, f, xs, shares, same, lists⟩, lists, entries_shares shares same⟩

theorem entries_distinct (q : TimerQueue) : (q.entries.map Timer.key).Nodup := by
  obtain ⟨d, xs, rep, lists, view⟩ := queue_view q
  rw [view, List.map_map]
  exact lists_keys_nodup lists

theorem due_queued (xs : List (Entry Key Nat)) (type : TimerType) (code : Fin maxDevices) :
    (xs.map queued).filter (fun r => decide (r.type = type ∧ r.code = code)) =
      (xs.filter fun x => decide (x.key = (type, code))).map queued := by
  rw [List.filter_map]
  apply congrArg
  apply List.filter_congr
  intro x _
  exact decide_eq_decide.mpr (by simp [queued, Prod.ext_iff])

theorem entries_add (q : TimerQueue) (time : Nat) (type : TimerType) (code : Fin maxDevices) :
    ∃ (n : Nat) (xs : List (Entry Key Nat)), q.entries = xs.map queued ∧ (q.add time type code).entries =
      (place ⟨(type, code), time, n⟩ (xs.filter fun x => decide (x.key ≠ (type, code)))).map
        queued := by
  obtain ⟨d, xs, rep, lists, view⟩ := queue_view q
  obtain ⟨t', added, rep'⟩ := addTimer_refines rep time type code
  have timers : (q.add time type code).timers = t' := by simp [TimerQueue.add, added]
  refine ⟨d.arrivals, xs, view, ?_⟩
  exact entries_lists (q := q.add time type code) (by rw [timers]; exact rep')
    (lists_set lists (type, code) time)

theorem due_add (q : TimerQueue) (time : Nat) (type type' : TimerType)
    (code code' : Fin maxDevices) :
    (q.add time type code).due type' code' =
      if type' = type ∧ code' = code then [⟨time, type, code⟩] else q.due type' code' := by
  obtain ⟨n, xs, view, placed⟩ := entries_add q time type code
  rw [TimerQueue.due, placed, TimerQueue.due, view, due_queued, due_queued]
  by_cases same : type' = type ∧ code' = code
  · obtain ⟨rfl, rfl⟩ := same
    have alone : ∀ x ∈ xs.filter (fun x => decide (x.key ≠ (type', code'))),
        decide (x.key = (type', code')) = false := by
      intro x member
      simpa using (List.mem_filter.mp member).2
    have one := place_filter_alone (e := ⟨(type', code'), time, n⟩)
      (fun x => decide (x.key = (type', code'))) (by simp) alone
    rw [one]
    simp [queued]
  · have dropped : decide ((type, code) = (type', code')) = false := by
      apply decide_eq_false
      intro eq
      exact same ⟨(Prod.mk.inj eq).1.symm, (Prod.mk.inj eq).2.symm⟩
    have others := place_filter_other (e := (⟨(type, code), time, n⟩ : Entry Key Nat))
      (fun x => decide (x.key = (type', code'))) dropped
      (xs.filter fun x => decide (x.key ≠ (type, code)))
    rw [others, List.filter_filter, if_neg same]
    apply congrArg
    apply List.filter_congr
    intro x _
    by_cases hit : x.key = (type', code')
    · simpa [hit] using not_and_or.mp same
    · simp [hit]

theorem others_add (q : TimerQueue) (time : Nat) (type : TimerType) (code : Fin maxDevices) :
    (q.add time type code).others type code = q.others type code := by
  obtain ⟨n, xs, view, placed⟩ := entries_add q time type code
  have kept := place_filter_other (e := (⟨(type, code), time, n⟩ : Entry Key Nat))
    (fun x => decide (x.key ≠ (type, code))) (by simp)
    (xs.filter fun x => decide (x.key ≠ (type, code)))
  rw [List.filter_filter] at kept
  unfold TimerQueue.others
  rw [placed, view, List.filter_map, List.filter_map]
  apply congrArg
  refine Eq.trans kept ?_
  apply List.filter_congr
  intro x _
  exact Bool.and_self _

theorem first_add (q : TimerQueue) (time : Nat) (type : TimerType) (code : Fin maxDevices) :
    (q.add time type code).entries.head?.map Timer.time =
      some (((q.entries.filter fun r => decide ((r.type, r.code) ≠ (type, code))).head?.map
        Timer.time).elim time (min time)) := by
  obtain ⟨n, xs, view, placed⟩ := entries_add q time type code
  have first := place_first ⟨(type, code), time, n⟩
    (xs.filter fun x => decide (x.key ≠ (type, code)))
  rw [placed, view, List.filter_map, List.head?_map, List.head?_map, Option.map_map,
    Option.map_map]
  exact first

theorem answer_empty {res : Int} {r : Timer} (h : answer (res, r) = .empty) : res < 0 := by
  simp only [answer] at h
  by_cases low : res < 0
  · exact low
  · by_cases zero : res = 0 <;> simp [low, zero] at h

theorem answer_expired {res : Int} {r : Timer} {k : Key} {time : Nat}
    (h : answer (res, r) = .expired k time) : 0 < res ∧ r = ⟨time, k.1, k.2⟩ := by
  simp only [answer] at h
  by_cases low : res < 0
  · simp [low] at h
  · by_cases zero : res = 0
    · simp [zero] at h
    · rw [if_neg low, if_neg zero] at h
      obtain ⟨rfl, rfl⟩ := Answer.expired.inj h
      exact ⟨by omega, rfl⟩

theorem answer_waiting {res : Int} {r : Timer} {k : Key} {time : Nat}
    (h : answer (res, r) = .waiting k time) : res = 0 ∧ r = ⟨time, k.1, k.2⟩ := by
  simp only [answer] at h
  by_cases low : res < 0
  · simp [low] at h
  · by_cases zero : res = 0
    · rw [if_neg low, if_pos zero] at h
      obtain ⟨rfl, rfl⟩ := Answer.waiting.inj h
      exact ⟨zero, rfl⟩
    · simp [low, zero] at h

/-- What `next_pending_timer` takes: the first timer when it lies in the past. -/
theorem nextPending_cases (q : TimerQueue) (now : Nat) (buffer : Timer) :
    ∃ res r q', q.nextPending now buffer = (res, r, q') ∧
      ((res < 0 ∧ q.entries = [] ∧ q' = q) ∨
        (0 < res ∧ q.entries = r :: q'.entries ∧ r.time < now) ∨
        (res = 0 ∧ q' = q ∧ now ≤ r.time ∧ ∃ rest, q.entries = r :: rest)) := by
  obtain ⟨d, xs, rep, lists, view⟩ := queue_view q
  obtain ⟨res, r, t', d', found, step, rep'⟩ := nextPendingTimer_refines rep now buffer
  have timers : (q.nextPending now buffer).2.2.timers = t' := by
    simp [TimerQueue.nextPending, found]
  have given : q.nextPending now buffer = (res, r, (q.nextPending now buffer).2.2) := by
    simp [TimerQueue.nextPending, found]
  have after : ∀ ys, Lists d' ys → (q.nextPending now buffer).2.2.entries = ys.map queued := by
    intro ys listed
    exact entries_lists (by rw [timers]; exact rep') listed
  refine ⟨res, r, (q.nextPending now buffer).2.2, given, ?_⟩
  have stays : res ≠ 1 → (q.nextPending now buffer).2.2 = q := by
    intro kept
    have same := nextPendingTimer_keeps found kept
    cases q
    simp only [TimerQueue.nextPending] at timers ⊢
    simp only [timers, same]
  generalize reply : answer (res, r) = reply at step
  cases step with
  | empty _ none =>
    have sign := answer_empty reply
    have nothing : xs = [] := by
      cases xs with
      | nil => rfl
      | cons x xs =>
        have held := (lists.exact x).mp (by simp)
        simp [none x.key] at held
    exact Or.inl ⟨sign, by rw [view, nothing]; rfl, stays (by omega)⟩
  | expired _ k t first past =>
    obtain ⟨sign, rfl⟩ := answer_expired reply
    obtain ⟨n, rest, rfl⟩ := lists_first lists first
    refine Or.inr (Or.inl ⟨sign, ?_, past⟩)
    rw [view, after rest (lists_erase_head lists)]
    rfl
  | waiting _ k t first due =>
    obtain ⟨sign, rfl⟩ := answer_waiting reply
    obtain ⟨n, rest, rfl⟩ := lists_first lists first
    exact Or.inr (Or.inr ⟨sign, stays (by omega), due, rest.map queued, by rw [view]; rfl⟩)

theorem next_cases (q : TimerQueue) (buffer : Timer) :
    (q.entries = [] ∧ q.next buffer = (-1, buffer)) ∨
      ∃ r rest, q.entries = r :: rest ∧ q.next buffer = (0, r) := by
  obtain ⟨d, p, f, xs, shares, same, lists⟩ := q.held
  have view := entries_shares shares same
  rw [← same] at view
  cases p with
  | nil => exact Or.inl ⟨view, by simp [TimerQueue.next, nextTimer, headTimer_empty shares]⟩
  | cons i p =>
    refine Or.inr ⟨q.timers.timer i, p.map q.timers.timer, view, ?_⟩
    simp [TimerQueue.next, nextTimer, headTimer_spec shares]

theorem due_tail {q q' : TimerQueue} {r : Timer} (head : q.entries = r :: q'.entries)
    (type : TimerType) (code : Fin maxDevices) :
    q'.due type code = if type = r.type ∧ code = r.code then [] else q.due type code := by
  have distinct := entries_distinct q
  rw [head, List.map_cons, List.nodup_cons] at distinct
  by_cases same : type = r.type ∧ code = r.code
  · rw [if_pos same, TimerQueue.due, List.filter_eq_nil_iff]
    obtain ⟨rfl, rfl⟩ := same
    intro x member hit
    obtain ⟨rt, rc⟩ := of_decide_eq_true hit
    exact distinct.1 (List.mem_map.mpr ⟨x, member, by simp [Timer.key, rt, rc]⟩)
  · have miss : ¬ (r.type = type ∧ r.code = code) := fun hit => same ⟨hit.1.symm, hit.2.symm⟩
    rw [if_neg same, TimerQueue.due, TimerQueue.due, head, List.filter_cons]
    simp [miss]

end EmulatedTimers
