import Mathlib.Data.List.TakeWhile
import Mathlib.Data.List.Pairwise
import Mathlib.Logic.Function.Basic
import Mathlib.Order.Lattice
import Mathlib.Algebra.Group.Nat.Defs

/-!
A finite map from keys to deadlines, and its reading as a queue: the entries in
the order of their deadlines, equal deadlines in the order of their arrival.
-/
namespace DeadlineMap

structure Entry (K T : Type) where
  key : K
  deadline : T
  arrival : Nat
  deriving DecidableEq

/-- Each key has at most one deadline; `arrivals` counts the `set`s so far. -/
structure Deadlines (K T : Type) where
  entry : K → Option (T × Nat)
  arrivals : Nat

def Deadlines.none (K T : Type) : Deadlines K T := ⟨fun _ => Option.none, 0⟩

variable {K T : Type} [LinearOrder T]

def Before (a b : Entry K T) : Prop :=
  a.deadline < b.deadline ∨ (a.deadline = b.deadline ∧ a.arrival < b.arrival)

structure Lists (d : Deadlines K T) (xs : List (Entry K T)) : Prop where
  exact : ∀ e, e ∈ xs ↔ d.entry e.key = some (e.deadline, e.arrival)
  ordered : xs.Pairwise Before
  arrived : ∀ e ∈ xs, e.arrival < d.arrivals

/-- Puts `e` after every entry whose deadline is not later. -/
def place (e : Entry K T) (xs : List (Entry K T)) : List (Entry K T) :=
  xs.takeWhile (fun x => decide (x.deadline ≤ e.deadline)) ++
    e :: xs.dropWhile (fun x => decide (x.deadline ≤ e.deadline))

theorem before_irrefl (a : Entry K T) : ¬ Before a a := by
  rintro (less | ⟨_, less⟩)
  · exact lt_irrefl _ less
  · exact Nat.lt_irrefl _ less

theorem before_deadline_le {a b : Entry K T} (h : Before a b) : a.deadline ≤ b.deadline := by
  rcases h with less | ⟨same, _⟩
  · exact le_of_lt less
  · exact le_of_eq same

theorem before_asymm {a b : Entry K T} (h : Before a b) : ¬ Before b a := by
  rintro back
  have same := le_antisymm (before_deadline_le h) (before_deadline_le back)
  rcases h with less | ⟨_, earlier⟩
  · exact absurd less (by rw [same]; exact lt_irrefl _)
  · rcases back with less | ⟨_, later⟩
    · exact absurd less (by rw [same]; exact lt_irrefl _)
    · omega

theorem lists_none : Lists (Deadlines.none K T) [] :=
  ⟨by simp [Deadlines.none], List.Pairwise.nil, by simp⟩

theorem lists_same_key {d : Deadlines K T} {xs : List (Entry K T)} (lists : Lists d xs)
    {a b : Entry K T} (ma : a ∈ xs) (mb : b ∈ xs) (same : a.key = b.key) : a = b := by
  have ha := (lists.exact a).mp ma
  have hb := (lists.exact b).mp mb
  rw [same, hb] at ha
  cases a; cases b
  simp_all

theorem lists_keys_nodup {d : Deadlines K T} {xs : List (Entry K T)} (lists : Lists d xs) :
    (xs.map Entry.key).Nodup := by
  refine List.pairwise_map.mpr (List.Pairwise.imp_of_mem ?_ lists.ordered)
  intro a b ma mb before same
  have eq := lists_same_key lists ma mb same
  subst eq
  exact before_irrefl a before

theorem lists_head_least {d : Deadlines K T} {x : Entry K T} {xs : List (Entry K T)}
    (lists : Lists d (x :: xs)) (e : Entry K T) (member : e ∈ xs) : Before x e :=
  (List.pairwise_cons.mp lists.ordered).1 e member

/-- The order leaves no choice: a map has one queue. -/
theorem lists_unique {d : Deadlines K T} {xs ys : List (Entry K T)} (lx : Lists d xs)
    (ly : Lists d ys) : xs = ys := by
  have nodup : ∀ {zs : List (Entry K T)}, zs.Pairwise Before → zs.Nodup := by
    intro zs ordered
    exact ordered.imp (fun before => by rintro rfl; exact before_irrefl _ before)
  have perm : xs.Perm ys := by
    rw [List.perm_ext_iff_of_nodup (nodup lx.ordered) (nodup ly.ordered)]
    intro e
    rw [lx.exact, ly.exact]
  exact List.Perm.eq_of_pairwise (fun a b _ _ hab hba => absurd hba (before_asymm hab))
    lx.ordered ly.ordered perm

theorem lists_nil_none {d : Deadlines K T} (lists : Lists d []) (k : K) :
    d.entry k = Option.none := by
  cases found : d.entry k with
  | none => rfl
  | some p =>
    have member := (lists.exact ⟨k, p.1, p.2⟩).mpr found
    simp at member

theorem place_mem (e x : Entry K T) (xs : List (Entry K T)) :
    x ∈ place e xs ↔ x = e ∨ x ∈ xs := by
  conv => rhs; rw [← List.takeWhile_append_dropWhile
    (l := xs) (p := fun x => decide (x.deadline ≤ e.deadline))]
  simp only [place, List.mem_append, List.mem_cons]
  exact or_left_comm

theorem place_ordered {xs : List (Entry K T)} (e : Entry K T) (ordered : xs.Pairwise Before)
    (newest : ∀ x ∈ xs, x.arrival < e.arrival) : (place e xs).Pairwise Before := by
  induction xs with
  | nil => simp [place]
  | cons x xs ih =>
    obtain ⟨first, rest⟩ := List.pairwise_cons.mp ordered
    by_cases early : x.deadline ≤ e.deadline
    · have tail := ih rest (fun y member => newest y (List.mem_cons_of_mem x member))
      have step : place e (x :: xs) = x :: place e xs := by simp [place, early]
      rw [step, List.pairwise_cons]
      refine ⟨?_, tail⟩
      intro y member
      rcases (place_mem e y xs).mp member with same | old
      · subst same
        have arrived := newest x (by simp)
        rcases lt_or_eq_of_le early with less | eq
        · exact Or.inl less
        · exact Or.inr ⟨eq, arrived⟩
      · exact first y old
    · have step : place e (x :: xs) = e :: x :: xs := by simp [place, early]
      rw [step, List.pairwise_cons]
      refine ⟨?_, ordered⟩
      intro y member
      have later : e.deadline < x.deadline := lt_of_not_ge early
      rcases List.mem_cons.mp member with same | old
      · subst same; exact Or.inl later
      · exact Or.inl (lt_of_lt_of_le later (before_deadline_le (first y old)))

theorem place_filter_other {e : Entry K T} (keep : Entry K T → Bool) (dropped : keep e = false)
    (xs : List (Entry K T)) : (place e xs).filter keep = xs.filter keep := by
  conv => rhs; rw [← List.takeWhile_append_dropWhile
    (l := xs) (p := fun x => decide (x.deadline ≤ e.deadline))]
  simp only [place, List.filter_append, List.filter_cons, dropped, Bool.false_eq_true, ↓reduceIte]

theorem place_filter_alone {e : Entry K T} (keep : Entry K T → Bool) (kept : keep e = true)
    {xs : List (Entry K T)} (alone : ∀ x ∈ xs, keep x = false) : (place e xs).filter keep = [e] := by
  have before : (xs.takeWhile fun x => decide (x.deadline ≤ e.deadline)).filter keep = [] := by
    rw [List.filter_eq_nil_iff]
    intro x member
    simp [alone x ((List.takeWhile_prefix _).subset member)]
  have after : (xs.dropWhile fun x => decide (x.deadline ≤ e.deadline)).filter keep = [] := by
    rw [List.filter_eq_nil_iff]
    intro x member
    simp [alone x ((List.dropWhile_suffix _).subset member)]
  simp only [place, List.filter_append, List.filter_cons, kept, before, after, ↓reduceIte,
    List.nil_append]

theorem place_first (e : Entry K T) (xs : List (Entry K T)) :
    (place e xs).head?.map Entry.deadline =
      some ((xs.head?.map Entry.deadline).elim e.deadline (min e.deadline)) := by
  cases xs with
  | nil => rfl
  | cons x xs =>
    by_cases early : x.deadline ≤ e.deadline
    · simp [place, early]
    · have least : min e.deadline x.deadline = e.deadline := min_eq_left (le_of_not_ge early)
      simp [place, early, least]

/-- The earliest entry, the oldest of those that share its deadline. -/
def Deadlines.First (d : Deadlines K T) (k : K) (t : T) : Prop :=
  ∃ n, d.entry k = some (t, n) ∧
    ∀ k' t' n', d.entry k' = some (t', n') → k' ≠ k → t < t' ∨ (t = t' ∧ n < n')

theorem lists_head_first {d : Deadlines K T} {x : Entry K T} {xs : List (Entry K T)}
    (lists : Lists d (x :: xs)) : d.First x.key x.deadline := by
  refine ⟨x.arrival, (lists.exact x).mp (by simp), ?_⟩
  intro k t n found other
  have member := (lists.exact ⟨k, t, n⟩).mpr found
  rcases List.mem_cons.mp member with same | rest
  · subst same; exact absurd rfl other
  · exact lists_head_least lists _ rest

theorem lists_first {d : Deadlines K T} {xs : List (Entry K T)} (lists : Lists d xs) {k : K} {t : T}
    (first : d.First k t) : ∃ n rest, xs = ⟨k, t, n⟩ :: rest := by
  obtain ⟨n, found, least⟩ := first
  have member : (⟨k, t, n⟩ : Entry K T) ∈ xs := (lists.exact _).mpr found
  cases xs with
  | nil => simp at member
  | cons x xs =>
    have head := (lists.exact x).mp (by simp)
    by_cases same : x.key = k
    · refine ⟨n, xs, ?_⟩
      rw [same, found] at head
      cases x
      simp_all
    · have later := least x.key x.deadline x.arrival head same
      rcases List.mem_cons.mp member with eq | inner
      · exact absurd (by rw [← eq]) same
      · exact absurd later (before_asymm (lists_head_least lists _ inner))

variable [DecidableEq K]

def Deadlines.set (d : Deadlines K T) (k : K) (t : T) : Deadlines K T :=
  ⟨Function.update d.entry k (some (t, d.arrivals)), d.arrivals + 1⟩

def Deadlines.erase (d : Deadlines K T) (k : K) : Deadlines K T :=
  { d with entry := Function.update d.entry k Option.none }

/-- Setting a key drops its old entry and queues the new one. -/
theorem lists_set {d : Deadlines K T} {xs : List (Entry K T)} (lists : Lists d xs) (k : K) (t : T) :
    Lists (d.set k t)
      (place ⟨k, t, d.arrivals⟩ (xs.filter fun x => decide (x.key ≠ k))) := by
  refine ⟨?_, ?_, ?_⟩
  · intro e
    rw [place_mem, List.mem_filter, lists.exact]
    by_cases same : e.key = k
    · cases e
      simp only at same
      subst same
      simp [Deadlines.set, eq_comm]
    · have ne : e ≠ ⟨k, t, d.arrivals⟩ := by rintro rfl; exact same rfl
      simp [Deadlines.set, same, ne]
  · apply place_ordered _ (lists.ordered.filter _)
    intro x member
    exact lists.arrived x (List.mem_filter.mp member).1
  · intro e member
    simp only [Deadlines.set]
    rcases (place_mem _ e _).mp member with same | old
    · subst same; exact Nat.lt_succ_self _
    · exact Nat.lt_succ_of_lt (lists.arrived e (List.mem_filter.mp old).1)

theorem lists_erase_head {d : Deadlines K T} {x : Entry K T} {xs : List (Entry K T)}
    (lists : Lists d (x :: xs)) : Lists (d.erase x.key) xs := by
  obtain ⟨first, rest⟩ := List.pairwise_cons.mp lists.ordered
  refine ⟨?_, rest, fun e member => lists.arrived e (List.mem_cons_of_mem x member)⟩
  intro e
  have whole := lists.exact e
  by_cases same : e.key = x.key
  · have gone : e ∉ xs := by
      intro member
      have eq := lists_same_key lists (List.mem_cons_of_mem x member) (by simp) same
      subst eq
      exact before_irrefl e (first e member)
    simp [Deadlines.erase, same, gone]
  · have ne : e ≠ x := by rintro rfl; exact same rfl
    simpa [Deadlines.erase, Function.update_of_ne same, ne] using whole

inductive Op (K T : Type) where
  | set (k : K) (t : T)
  | next (now : T)

inductive Answer (K T : Type) where
  | stored
  | empty
  | expired (k : K) (t : T)
  | waiting (k : K) (t : T)
  deriving DecidableEq

inductive Step : Deadlines K T → Op K T → Answer K T → Deadlines K T → Prop where
  | set (d : Deadlines K T) (k : K) (t : T) : Step d (.set k t) .stored (d.set k t)
  | empty (d : Deadlines K T) (now : T) (none : ∀ k, d.entry k = Option.none) :
      Step d (.next now) .empty d
  | expired (d : Deadlines K T) (now : T) (k : K) (t : T) (first : d.First k t) (past : t < now) :
      Step d (.next now) (.expired k t) (d.erase k)
  | waiting (d : Deadlines K T) (now : T) (k : K) (t : T) (first : d.First k t) (due : now ≤ t) :
      Step d (.next now) (.waiting k t) d

inductive Steps : Deadlines K T → List (Op K T) → List (Answer K T) → Deadlines K T → Prop where
  | nil (d : Deadlines K T) : Steps d [] [] d
  | cons {d e f : Deadlines K T} {op : Op K T} {answer : Answer K T} {ops : List (Op K T)}
      {answers : List (Answer K T)} (step : Step d op answer e) (rest : Steps e ops answers f) :
      Steps d (op :: ops) (answer :: answers) f

end DeadlineMap
