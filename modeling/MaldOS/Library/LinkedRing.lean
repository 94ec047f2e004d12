import Mathlib.Data.List.Nodup
import Mathlib.Logic.Function.Basic
import Mathlib.Algebra.Group.Nat.Defs

/-!
Circular doubly-linked lists threaded through a heap of link pairs. A ring is a
head and the nodes reached from it in order; every field of every node that is
not touched by a splice keeps its value, so rings in one heap do not disturb
each other.
-/
namespace LinkedRing

structure Links (P : Type) where
  next : P → P
  prev : P → P

variable {P : Type}

/-- The nodes between two end points, in both directions. -/
def Segment (l : Links P) : P → List P → P → Prop
  | a, [], b => l.next a = b ∧ l.prev b = a
  | a, x :: xs, b => l.next a = x ∧ l.prev x = a ∧ Segment l x xs b

def Ring (l : Links P) (h : P) (xs : List P) : Prop :=
  Segment l h xs h ∧ (h :: xs).Nodup

def first : List P → P → P
  | [], b => b
  | x :: _, _ => x

def last : P → List P → P
  | a, [] => a
  | _, x :: xs => last x xs

@[simp] theorem first_cons (x b : P) (xs : List P) : first (x :: xs) b = x := rfl

@[simp] theorem last_nil (a : P) : last a [] = a := rfl

theorem segment_append (l : Links P) (a b x : P) (xs ys : List P) :
    Segment l a (xs ++ x :: ys) b ↔ Segment l a xs x ∧ Segment l x ys b := by
  induction xs generalizing a with
  | nil => simp [Segment, and_assoc]
  | cons y xs ih => simp [Segment, ih, and_assoc]

theorem segment_first {l : Links P} {a b : P} {xs : List P} (seg : Segment l a xs b) :
    l.next a = first xs b ∧ l.prev (first xs b) = a := by
  cases xs with
  | nil => exact seg
  | cons x xs => exact ⟨seg.1, seg.2.1⟩

theorem segment_last {l : Links P} {a b : P} {xs : List P} (seg : Segment l a xs b) :
    l.prev b = last a xs ∧ l.next (last a xs) = b := by
  induction xs generalizing a with
  | nil => exact ⟨seg.2, seg.1⟩
  | cons x xs ih => exact ih seg.2.2

/-- A segment reads `next` at its start and its nodes, `prev` at its nodes and
    its end, and nothing else. -/
theorem segment_frame {l k : Links P} {a b : P} {xs : List P} (seg : Segment l a xs b)
    (nexts : ∀ p ∈ a :: xs, k.next p = l.next p)
    (prevs : ∀ p ∈ xs ++ [b], k.prev p = l.prev p) : Segment k a xs b := by
  induction xs generalizing a with
  | nil => exact ⟨(nexts a (by simp)).trans seg.1, (prevs b (by simp)).trans seg.2⟩
  | cons x xs ih =>
    refine ⟨(nexts a (by simp)).trans seg.1, (prevs x (by simp)).trans seg.2.1, ?_⟩
    exact ih seg.2.2 (fun p member => nexts p (List.mem_cons_of_mem a member))
      (fun p member => prevs p (List.mem_cons_of_mem x member))

theorem first_mem (xs : List P) (b : P) : first xs b ∈ xs ++ [b] := by
  cases xs <;> simp [first]

theorem last_mem (a : P) (xs : List P) : last a xs ∈ a :: xs := by
  induction xs generalizing a with
  | nil => simp [last]
  | cons x xs ih => exact List.mem_cons_of_mem a (ih x)

theorem ring_neighbours {l : Links P} {h n : P} {xs ys : List P} (ring : Ring l h (xs ++ n :: ys)) :
    l.prev n = last h xs ∧ l.next n = first ys h := by
  obtain ⟨front, tail⟩ := (segment_append l h h n xs ys).mp ring.1
  exact ⟨(segment_last front).1, (segment_first tail).1⟩

theorem ring_ends {l : Links P} {h : P} {xs : List P} (ring : Ring l h xs) :
    l.next h = first xs h ∧ l.prev h = last h xs :=
  ⟨(segment_first ring.1).1, (segment_last ring.1).1⟩

theorem ring_cut {l : Links P} {h : P} {xs ys : List P} (ring : Ring l h (xs ++ ys)) :
    l.next (last h xs) = first ys h ∧ l.prev (first ys h) = last h xs := by
  cases ys with
  | nil =>
    have seg := ring.1
    rw [List.append_nil] at seg
    exact ⟨(segment_last seg).2, (segment_last seg).1⟩
  | cons y ys =>
    have front := ((segment_append l h h y xs ys).mp ring.1).1
    exact ⟨(segment_last front).2, (segment_last front).1⟩

theorem last_concat (a x : P) (xs : List P) : last a (xs ++ [x]) = x := by
  induction xs generalizing a with
  | nil => rfl
  | cons y xs ih => exact ih y

variable [DecidableEq P]

def Links.setNext (l : Links P) (p q : P) : Links P :=
  { l with next := Function.update l.next p q }

def Links.setPrev (l : Links P) (p q : P) : Links P :=
  { l with prev := Function.update l.prev p q }

@[simp] theorem setNext_next (l : Links P) (p q x : P) :
    (l.setNext p q).next x = if x = p then q else l.next x := by
  simp [Links.setNext, Function.update_apply]

@[simp] theorem setNext_prev (l : Links P) (p q : P) : (l.setNext p q).prev = l.prev := rfl

@[simp] theorem setPrev_next (l : Links P) (p q : P) : (l.setPrev p q).next = l.next := rfl

@[simp] theorem setPrev_prev (l : Links P) (p q x : P) :
    (l.setPrev p q).prev x = if x = p then q else l.prev x := by
  simp [Links.setPrev, Function.update_apply]

/-- Writes `n` between `p` and `q`, in the order of the four stores. -/
def splice (l : Links P) (n p q : P) : Links P :=
  (((l.setPrev q n).setNext n q).setPrev n p).setNext p n

def bypass (l : Links P) (p q : P) : Links P := (l.setPrev q p).setNext p q

theorem segment_splice {l : Links P} {a b n : P} {xs ys : List P}
    (seg : Segment l a (xs ++ ys) b) (nodup : (a :: (xs ++ ys)).Nodup)
    (apart : b ∉ xs ++ ys) (fresh : n ∉ a :: (xs ++ ys)) (ends : n ≠ b) :
    Segment (splice l n (last a xs) (first ys b)) a (xs ++ n :: ys) b := by
  induction xs generalizing a with
  | nil =>
    have na : n ≠ a := by intro e; exact fresh (by simp [e])
    cases ys with
    | nil => simp [Segment, splice, first, last, na, ends.symm]
    | cons y ys =>
      have ny : n ≠ y := by intro e; exact fresh (by simp [e])
      refine ⟨by simp [splice, last], by simp [splice, last], by simp [splice, first, last, na],
        by simp [splice, first, ny.symm], ?_⟩
      apply segment_frame seg.2.2
      · intro p member
        have pn : p ≠ n := by rintro rfl; exact fresh (List.mem_cons_of_mem a member)
        have pa : p ≠ a := by rintro rfl; exact (List.nodup_cons.mp nodup).1 member
        simp [splice, last, pn, pa]
      · intro p member
        have pn : p ≠ n := by
          rintro rfl
          rcases List.mem_append.mp member with inner | last
          · exact fresh (by simp [inner])
          · exact ends (List.mem_singleton.mp last)
        have py : p ≠ y := by
          rintro rfl
          rcases List.mem_append.mp member with inner | last
          · exact (List.nodup_cons.mp (List.nodup_cons.mp nodup).2).1 inner
          · exact apart (by simp [List.mem_singleton.mp last])
        simp [splice, first, pn, py]
  | cons x xs ih =>
    obtain ⟨forth, back, rest⟩ := seg
    have nodup' := (List.nodup_cons.mp nodup).2
    have inner := ih rest nodup' (fun m => apart (List.mem_cons_of_mem x m))
      (fun m => fresh (List.mem_cons_of_mem a m))
    have na : a ≠ n := by rintro rfl; exact fresh (by simp)
    have nx : x ≠ n := by rintro rfl; exact fresh (by simp)
    have notLast : a ≠ last x xs := by
      intro e
      have member := last_mem x xs
      rw [← e] at member
      exact (List.nodup_cons.mp nodup).1 (List.mem_append_left ys member)
    have notFirst : x ≠ first ys b := by
      intro e
      have member := first_mem ys b
      rw [← e] at member
      rcases List.mem_append.mp member with inner | same
      · exact (List.nodup_cons.mp nodup').1 (List.mem_append_right xs inner)
      · exact apart (by simp [List.mem_singleton.mp same])
    exact ⟨by simp [splice, last, notLast, na, forth], by simp [splice, notFirst, nx, back], inner⟩

theorem segment_bypass {l : Links P} {a b n : P} {xs ys : List P}
    (seg : Segment l a (xs ++ n :: ys) b) (nodup : (a :: (xs ++ n :: ys)).Nodup)
    (apart : b ∉ xs ++ n :: ys) :
    Segment (bypass l (l.prev n) (l.next n)) a (xs ++ ys) b := by
  obtain ⟨front, tail⟩ := (segment_append l a b n xs ys).mp seg
  rw [(segment_last front).1, (segment_first tail).1]
  clear seg
  induction xs generalizing a with
  | nil =>
    cases ys with
    | nil => simp [Segment, bypass, first, last]
    | cons y ys =>
      refine ⟨by simp [bypass, first, last], by simp [bypass, first, last], ?_⟩
      apply segment_frame tail.2.2
      · intro p member
        have pa : p ≠ a := by
          rintro rfl
          exact (List.nodup_cons.mp nodup).1 (List.mem_cons_of_mem n member)
        simp [bypass, last, pa]
      · intro p member
        have py : p ≠ y := by
          rintro rfl
          rcases List.mem_append.mp member with inner | last
          · have tailNodup := (List.nodup_cons.mp (List.nodup_cons.mp nodup).2).2
            exact (List.nodup_cons.mp tailNodup).1 inner
          · exact apart (by simp [List.mem_singleton.mp last])
        simp [bypass, first, py]
  | cons x xs ih =>
    obtain ⟨forth, back, rest⟩ := front
    have nodup' := (List.nodup_cons.mp nodup).2
    have inner := ih nodup' (fun m => apart (List.mem_cons_of_mem x m)) rest
    have notLast : a ≠ last x xs := by
      intro e
      have member := last_mem x xs
      rw [← e] at member
      exact (List.nodup_cons.mp nodup).1 (List.mem_append_left (n :: ys) member)
    have notFirst : x ≠ first ys b := by
      intro e
      have member := first_mem ys b
      rw [← e] at member
      rcases List.mem_append.mp member with inner | same
      · exact (List.nodup_cons.mp nodup').1 (List.mem_append_right xs (List.mem_cons_of_mem n inner))
      · exact apart (by simp [List.mem_singleton.mp same])
    exact ⟨by simp [bypass, last, notLast, forth], by simp [bypass, notFirst, back], inner⟩

theorem ring_splice {l : Links P} {h n : P} {xs ys : List P} (ring : Ring l h (xs ++ ys))
    (fresh : n ∉ h :: (xs ++ ys)) :
    Ring (splice l n (last h xs) (first ys h)) h (xs ++ n :: ys) := by
  refine ⟨segment_splice ring.1 ring.2 (List.nodup_cons.mp ring.2).1 fresh ?_, ?_⟩
  · rintro rfl; exact fresh (by simp)
  · have nodup := ring.2
    simp only [List.nodup_cons, List.nodup_append, List.mem_append, List.mem_cons, not_or] at *
    grind

theorem ring_bypass {l : Links P} {h n : P} {xs ys : List P} (ring : Ring l h (xs ++ n :: ys)) :
    Ring (bypass l (l.prev n) (l.next n)) h (xs ++ ys) := by
  refine ⟨segment_bypass ring.1 ring.2 (List.nodup_cons.mp ring.2).1, ?_⟩
  have nodup := ring.2
  simp only [List.nodup_cons, List.nodup_append, List.mem_append, List.mem_cons, not_or] at *
  grind

theorem ring_splice_other {l : Links P} {h n p q : P} {xs : List P} (ring : Ring l h xs)
    (fresh : n ∉ h :: xs) (left : p ∉ h :: xs) (right : q ∉ h :: xs) :
    Ring (splice l n p q) h xs := by
  refine ⟨segment_frame ring.1 ?_ ?_, ring.2⟩
  · intro x member
    have xn : x ≠ n := by rintro rfl; exact fresh member
    have xp : x ≠ p := by rintro rfl; exact left member
    simp [splice, xn, xp]
  · intro x member
    have inside : x ∈ h :: xs := by
      rcases List.mem_append.mp member with inner | last
      · exact List.mem_cons_of_mem h inner
      · simp [List.mem_singleton.mp last]
    have xn : x ≠ n := by rintro rfl; exact fresh inside
    have xq : x ≠ q := by rintro rfl; exact right inside
    simp [splice, xn, xq]

theorem ring_bypass_other {l : Links P} {h p q : P} {xs : List P} (ring : Ring l h xs)
    (left : p ∉ h :: xs) (right : q ∉ h :: xs) : Ring (bypass l p q) h xs := by
  refine ⟨segment_frame ring.1 ?_ ?_, ring.2⟩
  · intro x member
    have xp : x ≠ p := by rintro rfl; exact left member
    simp [bypass, xp]
  · intro x member
    have inside : x ∈ h :: xs := by
      rcases List.mem_append.mp member with inner | last
      · exact List.mem_cons_of_mem h inner
      · simp [List.mem_singleton.mp last]
    have xq : x ≠ q := by rintro rfl; exact right inside
    simp [bypass, xq]

/-- The nodes found by following `next` for at most `fuel` steps until `h`. -/
def walk (l : Links P) (h : P) : Nat → P → List P
  | 0, _ => []
  | fuel + 1, p => if p = h then [] else p :: walk l h fuel (l.next p)

theorem walk_segment {l : Links P} {a h : P} {xs : List P} (seg : Segment l a xs h)
    (apart : h ∉ xs) (fuel : Nat) (bound : xs.length ≤ fuel) :
    walk l h fuel (l.next a) = xs := by
  induction xs generalizing a fuel with
  | nil => cases fuel <;> simp [walk, seg.1]
  | cons x xs ih =>
    cases fuel with
    | zero => simp at bound
    | succ fuel =>
      have step := ih seg.2.2 (fun m => apart (List.mem_cons_of_mem x m)) fuel
        (by simpa using bound)
      have xh : x ≠ h := by rintro rfl; exact apart (by simp)
      rw [seg.1, walk, if_neg xh, step]

theorem walk_ring {l : Links P} {h : P} {xs : List P} (ring : Ring l h xs) (fuel : Nat)
    (bound : xs.length ≤ fuel) : walk l h fuel (l.next h) = xs :=
  walk_segment ring.1 (List.nodup_cons.mp ring.2).1 fuel bound

end LinkedRing
