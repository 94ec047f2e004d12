import MaldOS.Timers.EmulatedTimers
import MaldOS.Library.DeadlineMap
import Mathlib.Data.List.FinRange
import Mathlib.Data.Fintype.Prod

/-!
The two lists of the pool stay rings that share out its nodes, and the pending
one, read in order, is the queue of a map from (type, code) to deadline.
-/
namespace EmulatedTimers
open LinkedRing Arch

abbrev Key := TimerType × Fin maxDevices

def Timer.key (r : Timer) : Key := (r.type, r.code)

def hits (timer : Fin maxTimers → Timer) (k : Key) (i : Fin maxTimers) : Bool :=
  decide ((timer i).key = k)

@[simp] theorem freeTimer_timer (t : Timers) (i : Fin maxTimers) :
    (freeTimer t i).timer = t.timer := rfl

def nodes (p : List (Fin maxTimers)) : List ListHead := p.map .timerarray

@[simp] theorem nodes_nil : nodes [] = [] := rfl

@[simp] theorem nodes_cons (i : Fin maxTimers) (p : List (Fin maxTimers)) :
    nodes (i :: p) = .timerarray i :: nodes p := rfl

@[simp] theorem nodes_append (p q : List (Fin maxTimers)) : nodes (p ++ q) = nodes p ++ nodes q :=
  List.map_append

@[simp] theorem nodes_mem (i : Fin maxTimers) (p : List (Fin maxTimers)) :
    ListHead.timerarray i ∈ nodes p ↔ i ∈ p := by simp [nodes]

@[simp] theorem nodes_pending (p : List (Fin maxTimers)) : ListHead.pendingTimers ∉ nodes p := by
  simp [nodes]

@[simp] theorem nodes_free (p : List (Fin maxTimers)) : ListHead.freeTimers ∉ nodes p := by
  simp [nodes]

/-- `p` is the pending list, `f` the free list and `loose` what is in neither; no
    node is in two of them. -/
structure Shares (t : Timers) (p f loose : List (Fin maxTimers)) : Prop where
  pending : Ring t.links .pendingTimers (nodes p)
  free : Ring t.links .freeTimers (nodes f)
  whole : (loose ++ (p ++ f)).Perm (List.finRange maxTimers)

theorem whole_nodup {p : List (Fin maxTimers)} (whole : p.Perm (List.finRange maxTimers)) :
    p.Nodup := whole.nodup_iff.mpr (List.nodup_finRange _)

theorem Shares.fresh {t : Timers} {p f loose : List (Fin maxTimers)} {i : Fin maxTimers}
    (shares : Shares t p f (i :: loose)) : i ∉ p ∧ i ∉ f := by
  have nodup := whole_nodup shares.whole
  have out : i ∉ loose ++ (p ++ f) := (List.nodup_cons.mp nodup).1
  simp only [List.mem_append, not_or] at out
  exact out.2

theorem Shares.nodup {t : Timers} {p f loose : List (Fin maxTimers)}
    (shares : Shares t p f loose) : (p ++ f).Nodup :=
  (List.nodup_append.mp (whole_nodup shares.whole)).2.1

theorem lists_apart {p f : List (Fin maxTimers)} (nodup : (p ++ f).Nodup) (x : ListHead)
    (inside : x ∈ ListHead.freeTimers :: nodes f) : x ∉ ListHead.pendingTimers :: nodes p := by
  intro other
  cases x with
  | null => simp [nodes] at inside
  | pendingTimers => simp at inside
  | freeTimers => simp at other
  | timerarray i =>
    have mf : i ∈ f := by simpa using inside
    have mp : i ∈ p := by simpa using other
    exact (List.nodup_append.mp nodup).2.2 i mp i mf rfl

theorem freeTimer_shares {t : Timers} {p f loose : List (Fin maxTimers)} {i : Fin maxTimers}
    (shares : Shares t p f (i :: loose)) : Shares (freeTimer t i) p (f ++ [i]) loose := by
  have nodup := shares.nodup
  obtain ⟨ip, jf⟩ := shares.fresh
  have tail : t.links.prev .freeTimers = last .freeTimers (nodes f) := (ring_ends shares.free).2
  constructor
  · apply ring_splice_other shares.pending
    · simpa using ip
    · rw [tail]
      exact lists_apart nodup _ (last_mem _ _)
    · simp
  · have ring : Ring t.links .freeTimers (nodes f ++ []) := by simpa using shares.free
    have placed := ring_splice ring (n := .timerarray i) (by simpa using jf)
    rw [nodes_append]
    change Ring (splice t.links (.timerarray i) (t.links.prev .freeTimers) .freeTimers) _ _
    rw [tail]
    exact placed
  · have shift : (loose ++ (p ++ (f ++ [i]))).Perm (i :: (loose ++ (p ++ f))) := by
      rw [← List.append_assoc p, ← List.append_assoc loose]
      exact List.perm_append_singleton i (loose ++ (p ++ f))
    exact shift.trans shares.whole

theorem listDel_pending {t : Timers} {xs ys f : List (Fin maxTimers)} {i : Fin maxTimers}
    (shares : Shares t (xs ++ i :: ys) f []) :
    Shares { t with links := listDel t.links (.timerarray i) } (xs ++ ys) f [i] := by
  have nodup := shares.nodup
  have ring := shares.pending
  rw [nodes_append, nodes_cons] at ring
  have sides := ring_neighbours ring
  have away : ∀ x ∈ ListHead.pendingTimers :: nodes (xs ++ i :: ys),
      x ∉ ListHead.freeTimers :: nodes f := by
    intro x member other
    exact lists_apart nodup x other member
  constructor
  · rw [nodes_append]
    exact ring_bypass ring
  · apply ring_bypass_other shares.free
    · rw [sides.1]
      apply away
      have member := last_mem ListHead.pendingTimers (nodes xs)
      simp only [nodes_append, List.mem_cons, List.mem_append] at member ⊢
      exact member.imp_right Or.inl
    · rw [sides.2]
      apply away
      have member := first_mem (nodes ys) ListHead.pendingTimers
      simp only [nodes_append, nodes_cons, List.mem_cons, List.mem_append, List.not_mem_nil,
        or_false] at member ⊢
      exact member.elim (fun inner => Or.inr (Or.inr (Or.inr inner))) Or.inl
  · have shift : (i :: (xs ++ ys ++ f)).Perm (xs ++ i :: ys ++ f) := by
      rw [List.append_assoc, List.append_assoc]
      exact List.perm_middle.symm
    exact shift.trans shares.whole

theorem listDel_free {t : Timers} {p f : List (Fin maxTimers)} {i : Fin maxTimers}
    (shares : Shares t p (i :: f) []) :
    Shares { t with links := listDel t.links (.timerarray i) } p f [i] := by
  have nodup := shares.nodup
  have ring : Ring t.links .freeTimers (nodes [] ++ .timerarray i :: nodes f) := shares.free
  have sides := ring_neighbours ring
  constructor
  · apply ring_bypass_other shares.pending
    · rw [sides.1]
      exact lists_apart nodup _ (by simp)
    · rw [sides.2]
      apply lists_apart nodup
      have member := first_mem (nodes f) ListHead.freeTimers
      simp only [nodes_cons, List.mem_cons, List.mem_append, List.not_mem_nil, or_false]
        at member ⊢
      exact member.elim (fun inner => Or.inr (Or.inr inner)) Or.inl
  · exact ring_bypass ring
  · have shift : (i :: (p ++ f)).Perm (p ++ i :: f) := List.perm_middle.symm
    exact shift.trans shares.whole

theorem splice_pending {t : Timers} {xs ys f : List (Fin maxTimers)} {i : Fin maxTimers}
    (shares : Shares t (xs ++ ys) f [i]) :
    Shares { t with links := splice t.links (.timerarray i) (last .pendingTimers (nodes xs))
                               (first (nodes ys) .pendingTimers) } (xs ++ i :: ys) f [] := by
  have nodup := shares.nodup
  obtain ⟨ip, jf⟩ := shares.fresh
  have ring := shares.pending
  rw [nodes_append] at ring
  have away : ∀ x ∈ ListHead.pendingTimers :: nodes (xs ++ ys),
      x ∉ ListHead.freeTimers :: nodes f := by
    intro x member other
    exact lists_apart nodup x other member
  constructor
  · rw [nodes_append, nodes_cons]
    apply ring_splice ring
    simpa [← nodes_append] using ip
  · apply ring_splice_other shares.free
    · simpa using jf
    · apply away
      have member := last_mem ListHead.pendingTimers (nodes xs)
      simp only [nodes_append, List.mem_cons, List.mem_append] at member ⊢
      exact member.imp_right Or.inl
    · apply away
      have member := first_mem (nodes ys) ListHead.pendingTimers
      simp only [nodes_append, List.mem_cons, List.mem_append, List.not_mem_nil, or_false]
        at member ⊢
      exact member.elim (fun inner => Or.inr (Or.inr inner)) Or.inl
  · have shift : (xs ++ i :: ys ++ f).Perm (i :: (xs ++ ys ++ f)) := by
      rw [List.append_assoc, List.append_assoc]
      exact List.perm_middle
    exact shift.trans shares.whole

theorem pool_shares (is f : List (Fin maxTimers)) (t : Timers) (shares : Shares t [] f is) :
    Shares (is.foldl freeTimer t) [] (f ++ is) [] := by
  induction is generalizing t f with
  | nil => simpa using shares
  | cons i is ih =>
    have step := ih (f ++ [i]) (freeTimer t i) (freeTimer_shares shares)
    simpa using step

theorem init_shares : Shares initEmulatedTimers [] (List.finRange maxTimers) [] := by
  apply pool_shares _ []
  constructor
  · simp [LinkedRing.Ring, Segment, staticTimers]
  · simp [LinkedRing.Ring, Segment, staticTimers]
  · simp

/-! The traversals. -/

/-- What `removeTimerType` does to the pending list `kept ++ rest`, standing at `rest`. -/
theorem removeLoop_spec (type : TimerType) (code : Fin maxDevices) (rest : List (Fin maxTimers))
    (kept f : List (Fin maxTimers)) (t : Timers) (shares : Shares t (kept ++ rest) f [])
    (fuel : Nat) (bound : rest.length < fuel) :
    ∃ t', removeLoop .pendingTimers type code fuel t (first (nodes rest) .pendingTimers) = some t' ∧
      Shares t' (kept ++ rest.filter fun i => !hits t.timer (type, code) i)
        (f ++ rest.filter fun i => hits t.timer (type, code) i) [] ∧ t'.timer = t.timer := by
  induction rest generalizing kept f t fuel with
  | nil =>
    cases fuel with
    | zero => simp at bound
    | succ fuel => exact ⟨t, by simp [removeLoop, first], by simpa using shares, rfl⟩
  | cons i rest ih =>
    cases fuel with
    | zero => simp at bound
    | succ fuel =>
      have room : rest.length < fuel := by simpa using bound
      have ring := shares.pending
      rw [nodes_append, nodes_cons] at ring
      have follow := (ring_neighbours ring).2
      by_cases hit : (t.timer i).key = (type, code)
      · have freed := freeTimer_shares (listDel_pending shares)
        obtain ⟨t', run, after, same⟩ := ih kept (f ++ [i]) _ freed fuel room
        have fields : (t.timer i).type = type ∧ (t.timer i).code = code := by
          simpa [Timer.key] using hit
        have found : hits t.timer (type, code) i = true := decide_eq_true hit
        refine ⟨t', ?_, ?_, same⟩
        · rw [← run]
          simp [removeLoop, first, containerOf, fields, follow]
        · simpa [found] using after
      · have again : Shares t ((kept ++ [i]) ++ rest) f [] := by simpa using shares
        obtain ⟨t', run, after, same⟩ := ih (kept ++ [i]) f t again fuel room
        have fields : ¬ ((t.timer i).type = type ∧ (t.timer i).code = code) := by
          simpa [Timer.key] using hit
        have other : hits t.timer (type, code) i = false := decide_eq_false hit
        refine ⟨t', ?_, ?_, same⟩
        · rw [← run]
          simp [removeLoop, first, containerOf, fields, follow]
        · simpa [other] using after

def early (timer : Fin maxTimers → Timer) (time : Nat) (i : Fin maxTimers) : Bool :=
  decide ((timer i).time ≤ time)

theorem insertPlace_spec (t : Timers) (time : Nat) (rest kept : List (Fin maxTimers))
    (ring : Ring t.links .pendingTimers (nodes (kept ++ rest)))
    (fuel : Nat) (bound : rest.length < fuel) :
    insertPlace t .pendingTimers time fuel (last .pendingTimers (nodes kept))
        (first (nodes rest) .pendingTimers) =
      some (last .pendingTimers (nodes (kept ++ rest.takeWhile (early t.timer time))),
        first (nodes (rest.dropWhile (early t.timer time))) .pendingTimers) := by
  induction rest generalizing kept fuel with
  | nil =>
    cases fuel with
    | zero => simp at bound
    | succ fuel => simp [insertPlace, first]
  | cons i rest ih =>
    cases fuel with
    | zero => simp at bound
    | succ fuel =>
      have room : rest.length < fuel := by simpa using bound
      have split := ring
      rw [nodes_append, nodes_cons] at split
      have follow := (ring_neighbours split).2
      by_cases stay : (t.timer i).time ≤ time
      · have found : early t.timer time i = true := decide_eq_true stay
        have step := ih (kept ++ [i]) (by simpa using ring) fuel room
        rw [nodes_append, nodes_cons, nodes_nil, last_concat] at step
        have passed : ¬ (t.timer i).time > time := by omega
        simp only [nodes_cons, first_cons, insertPlace, containerOf, Option.bind_some, passed,
          follow, ↓reduceIte, reduceCtorEq, or_self, step, found, List.takeWhile_cons,
          List.dropWhile_cons, List.append_assoc, List.singleton_append]
      · have found : early t.timer time i = false := decide_eq_false stay
        have later : (t.timer i).time > time := by omega
        simp [insertPlace, first, containerOf, later, found]

theorem insertTimer_spec {t : Timers} {p f : List (Fin maxTimers)} {i : Fin maxTimers}
    (shares : Shares t p f [i]) (bound : p.length < maxTimers + 1) :
    ∃ t', insertTimer t .pendingTimers i = some t' ∧ t'.timer = t.timer ∧
      Shares t' (p.takeWhile (early t.timer (t.timer i).time) ++
        i :: p.dropWhile (early t.timer (t.timer i).time)) f [] := by
  have found := insertPlace_spec t (t.timer i).time p [] shares.pending _ bound
  have whole := List.takeWhile_append_dropWhile (l := p)
    (p := early t.timer (t.timer i).time)
  have start := (ring_ends shares.pending).1
  rw [List.nil_append, nodes_nil, last, ← start] at found
  rw [← whole] at shares
  have run : insertTimer t .pendingTimers i = some { t with
      links :=
        if first (nodes (p.dropWhile (early t.timer (t.timer i).time))) .pendingTimers =
            .pendingTimers then listAddTail t.links (.timerarray i) .pendingTimers
        else listAdd t.links (.timerarray i) (last .pendingTimers
          (nodes (p.takeWhile (early t.timer (t.timer i).time)))) } := by
    simp only [insertTimer, found, reduceCtorEq, ↓reduceIte, Option.map_some]
  refine ⟨_, run, rfl, ?_⟩
  have placed := splice_pending shares
  have ring := shares.pending
  rw [nodes_append] at ring
  have cut := ring_cut ring
  cases tail : p.dropWhile (early t.timer (t.timer i).time) with
  | nil =>
    rw [tail] at placed cut
    have ends : t.links.prev .pendingTimers = _ := cut.2
    simpa [first, listAddTail, listAddBetween, splice, ends] using placed
  | cons j rest =>
    rw [tail] at placed cut
    simpa [first, listAdd, listAddBetween, splice, cut.1] using placed

theorem allocTimer_spec {t : Timers} {p f : List (Fin maxTimers)} {i : Fin maxTimers}
    (shares : Shares t p (i :: f) []) :
    ∃ t', allocTimer t = some (some i, t') ∧ Shares t' p f [i] ∧
      ∀ j ≠ i, t'.timer j = t.timer j := by
  have head : t.links.next .freeTimers = .timerarray i := (ring_ends shares.free).1
  have run : allocTimer t = some (some i,
      { links := listDel t.links (.timerarray i)
        timer := Function.update t.timer i { t.timer i with time := 0 } }) := by
    simp [allocTimer, listEmpty, head, containerOf]
  refine ⟨_, run, ?_, ?_⟩
  · have loose := listDel_free shares
    exact ⟨loose.pending, loose.free, loose.whole⟩
  · intro j other
    simp [Function.update_of_ne other]

/-! The refinement. -/

open DeadlineMap

def queued (e : Entry Key Nat) : Timer := ⟨e.deadline, e.key.1, e.key.2⟩

@[simp] theorem queued_key (e : Entry Key Nat) : (queued e).key = e.key := rfl

/-- The pool holds the map `d`: its pending list is the queue of `d`. -/
def Represents (t : Timers) (d : Deadlines Key Nat) : Prop :=
  ∃ p f xs, Shares t p f [] ∧ p.map t.timer = xs.map queued ∧ Lists d xs

theorem init_represents : Represents initEmulatedTimers (Deadlines.none Key Nat) :=
  ⟨[], _, [], init_shares, rfl, lists_none⟩

/-- Sixteen keys at most are pending, so four of the twenty nodes stay free. -/
theorem pending_bound {d : Deadlines Key Nat} {xs : List (Entry Key Nat)} (lists : Lists d xs) :
    xs.length ≤ 16 := by
  have bound := (lists_keys_nodup lists).length_le_card
  have card : Fintype.card Key = 16 := by decide
  simpa [card] using bound

theorem filter_queued {timer : Fin maxTimers → Timer} {p : List (Fin maxTimers)}
    {xs : List (Entry Key Nat)} (same : p.map timer = xs.map queued) (keep : Timer → Bool) :
    (p.filter (keep ∘ timer)).map timer = (xs.filter (keep ∘ queued)).map queued := by
  rw [← List.filter_map, same, List.filter_map]

theorem place_queued {timer : Fin maxTimers → Timer} {p : List (Fin maxTimers)}
    {xs : List (Entry Key Nat)} (same : p.map timer = xs.map queued) (i : Fin maxTimers)
    (e : Entry Key Nat) (new : timer i = queued e) :
    (p.takeWhile (early timer e.deadline) ++ i :: p.dropWhile (early timer e.deadline)).map timer =
      (place e xs).map queued := by
  have before := congrArg (List.takeWhile fun r : Timer => decide (r.time ≤ e.deadline)) same
  have after := congrArg (List.dropWhile fun r : Timer => decide (r.time ≤ e.deadline)) same
  rw [List.takeWhile_map, List.takeWhile_map] at before
  rw [List.dropWhile_map, List.dropWhile_map] at after
  simp only [place, List.map_append, List.map_cons, new]
  exact congrArg₂ (fun a b => a ++ queued e :: b) before after

theorem addTimer_refines {t : Timers} {d : Deadlines Key Nat} (rep : Represents t d)
    (time : Nat) (type : TimerType) (code : Fin maxDevices) :
    ∃ t', addTimer t time type code = some (true, t') ∧
      Represents t' (d.set (type, code) time) := by
  obtain ⟨p, f, xs, shares, same, lists⟩ := rep
  have size : maxTimers = 20 := rfl
  have short : p.length ≤ 16 := by
    have lengths := congrArg List.length same
    have bound := pending_bound lists
    simp only [List.length_map] at lengths
    omega
  have start : t.links.next .pendingTimers = first (nodes p) .pendingTimers :=
    (ring_ends shares.pending).1
  obtain ⟨t₁, removed, shares₁, timer₁⟩ := removeLoop_spec type code p [] f t shares
    (maxTimers + 1) (by omega)
  rw [← start] at removed
  obtain ⟨i, f₁, free₁⟩ : ∃ i f₁, f ++ p.filter (fun i => hits t.timer (type, code) i) = i :: f₁ := by
    have total := shares.whole.length_eq
    rw [List.length_finRange] at total
    cases f with
    | nil => simp at total; omega
    | cons i f => exact ⟨i, _, rfl⟩
  rw [free₁, List.nil_append] at shares₁
  obtain ⟨t₂, allocated, shares₂, timer₂⟩ := allocTimer_spec shares₁
  -- the node taken from the free list is filled in, and its old contents are not looked at
  let t₃ : Timers := { t₂ with timer := Function.update t₂.timer i ⟨time, type, code⟩ }
  have shares₃ : Shares t₃ (p.filter fun i => !hits t.timer (type, code) i) f₁ [i] :=
    ⟨shares₂.pending, shares₂.free, shares₂.whole⟩
  have fewer := List.length_filter_le (fun i => !hits t.timer (type, code) i) p
  obtain ⟨t₄, inserted, timer₄, shares₄⟩ := insertTimer_spec shares₃ (by omega)
  have kept := filter_queued same (fun r => !decide (r.key = (type, code)))
  have filled : t₃.timer i = queued ⟨(type, code), time, d.arrivals⟩ := by simp [t₃, queued]
  have stable : (p.filter fun i => !hits t.timer (type, code) i).map t₃.timer =
      (p.filter fun i => !hits t.timer (type, code) i).map t.timer := by
    apply List.map_congr_left
    intro j member
    have other : j ≠ i := by rintro rfl; exact shares₃.fresh.1 member
    simp only [t₃, Function.update_of_ne other]
    rw [timer₂ j other, timer₁]
  refine ⟨t₄, ?_, ?_⟩
  · simp only [addTimer, removeTimerType, reduceCtorEq, ↓reduceIte, removed, allocated,
      Option.bind_some]
    exact congrArg (Option.map fun t => (true, t)) inserted
  · refine ⟨_, f₁, _, shares₄, ?_, lists_set lists (type, code) time⟩
    rw [timer₄]
    have deadline : (t₃.timer i).time = time := by rw [filled]; rfl
    rw [deadline]
    refine place_queued ?_ i _ filled
    have left : p.filter (fun i => !hits t.timer (type, code) i) =
        p.filter ((fun r : Timer => !decide (r.key = (type, code))) ∘ t.timer) :=
      List.filter_congr (fun j _ => rfl)
    have right : xs.filter (fun x => decide (x.key ≠ (type, code))) =
        xs.filter ((fun r : Timer => !decide (r.key = (type, code))) ∘ queued) :=
      List.filter_congr (fun e _ => by by_cases hit : e.key = (type, code) <;> simp [hit])
    rw [stable, left, kept, right]

theorem headTimer_spec {t : Timers} {p f : List (Fin maxTimers)} {i : Fin maxTimers}
    (shares : Shares t (i :: p) f []) : headTimer t .pendingTimers = some (some i) := by
  have head : t.links.next .pendingTimers = .timerarray i := (ring_ends shares.pending).1
  simp [headTimer, listEmpty, head, containerOf]

theorem headTimer_empty {t : Timers} {f : List (Fin maxTimers)} (shares : Shares t [] f []) :
    headTimer t .pendingTimers = some none := by
  have head : t.links.next .pendingTimers = .pendingTimers := (ring_ends shares.pending).1
  simp [headTimer, listEmpty, head]

theorem removeTimer_spec {t : Timers} {p f : List (Fin maxTimers)} {i : Fin maxTimers}
    (shares : Shares t (i :: p) f []) :
    ∃ t', removeTimer t .pendingTimers = some (some i, t') ∧ Shares t' p f [i] ∧
      t'.timer = t.timer := by
  have head : t.links.next .pendingTimers = .timerarray i := (ring_ends shares.pending).1
  have run : removeTimer t .pendingTimers =
      some (some i, { t with links := listDel t.links (.timerarray i) }) := by
    simp [removeTimer, listEmpty, head, containerOf]
  exact ⟨_, run, @listDel_pending t [] p f i shares, rfl⟩

def answer : Int × Timer → Answer Key Nat
  | (res, r) => if res < 0 then .empty else if res = 0 then .waiting r.key r.time
    else .expired r.key r.time

theorem nextPendingTimer_refines {t : Timers} {d : Deadlines Key Nat} (rep : Represents t d)
    (currentTime : Nat) (next : Timer) :
    ∃ res r t' d', nextPendingTimer t currentTime next = some (res, r, t') ∧
      Step d (.next currentTime) (answer (res, r)) d' ∧ Represents t' d' := by
  obtain ⟨p, f, xs, shares, same, lists⟩ := rep
  cases xs with
  | nil =>
    have none : p = [] := by simpa using same
    subst none
    refine ⟨-1, next, t, d, ?_, .empty d _ (lists_nil_none lists), [], f, [], shares, rfl, lists⟩
    simp [nextPendingTimer, headTimer_empty shares]
  | cons x xs =>
    cases p with
    | nil => simp at same
    | cons i p =>
      obtain ⟨head, rest⟩ := List.cons.inj same
      have time : (t.timer i).time = x.deadline := by rw [head]; rfl
      have key : (t.timer i).key = x.key := by rw [head]; rfl
      by_cases past : x.deadline < currentTime
      · obtain ⟨t₁, removed, shares₁, timer₁⟩ := removeTimer_spec shares
        refine ⟨1, t.timer i, freeTimer t₁ i, d.erase x.key, ?_, ?_, p, _, xs,
          freeTimer_shares shares₁, ?_, lists_erase_head lists⟩
        · simp [nextPendingTimer, headTimer_spec shares, time, past, removed]
        · simpa [answer, time, key] using
            Step.expired d currentTime x.key x.deadline (lists_head_first lists) past
        · rw [freeTimer_timer, timer₁]
          exact rest
      · refine ⟨0, t.timer i, t, d, ?_, ?_, i :: p, f, x :: xs, shares, same, lists⟩
        · simp [nextPendingTimer, headTimer_spec shares, time, past]
        · simpa [answer, time, key] using
            Step.waiting d currentTime x.key x.deadline (lists_head_first lists) (by omega)

end EmulatedTimers
