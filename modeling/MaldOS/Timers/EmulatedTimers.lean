import MaldOS.Arch
import MaldOS.Library.LinkedRing

/-!
The timer pool of `emulated_timers.c` over the intrusive lists of `listx.h`.
A pointer is one of the two list heads, a node of `timerarray`, or `NULL`. The
outer `Option` of a function is `none` where the C code would take something
that is not a timer for one, or where a loop does not end within the pool.
-/
namespace EmulatedTimers
open LinkedRing Arch

/-- `(IL_LINES + 1) * MAX_DEVICES` -/
abbrev maxTimers : Nat := (ilLines + 1) * maxDevices

inductive ListHead where
  | null
  | pendingTimers
  | freeTimers
  | timerarray (i : Fin maxTimers)
  deriving DecidableEq

structure Timer where
  time : Nat
  type : TimerType
  code : Fin maxDevices
  deriving DecidableEq, Repr

structure Timers where
  links : Links ListHead
  timer : Fin maxTimers → Timer

/-- `__list_add` -/
def listAddBetween (l : Links ListHead) (new prev next : ListHead) : Links ListHead :=
  (((l.setPrev next new).setNext new next).setPrev new prev).setNext prev new

def listAdd (l : Links ListHead) (new head : ListHead) : Links ListHead :=
  listAddBetween l new head (l.next head)

def listAddTail (l : Links ListHead) (new head : ListHead) : Links ListHead :=
  listAddBetween l new (l.prev head) head

/-- `__list_del` -/
def listDelBetween (l : Links ListHead) (prev next : ListHead) : Links ListHead :=
  (l.setPrev next prev).setNext prev next

def listDel (l : Links ListHead) (entry : ListHead) : Links ListHead :=
  listDelBetween l (l.prev entry) (l.next entry)

def listEmpty (l : Links ListHead) (head : ListHead) : Bool := l.next head = head

def containerOf : ListHead → Option (Fin maxTimers)
  | .timerarray i => some i
  | _ => none

/-- The static storage before any call: two empty heads and a zeroed pool. -/
def staticTimers : Timers where
  links := {
    next := fun
      | .pendingTimers => .pendingTimers
      | .freeTimers => .freeTimers
      | _ => .null
    prev := fun
      | .pendingTimers => .pendingTimers
      | .freeTimers => .freeTimers
      | _ => .null }
  timer := fun _ => ⟨0, .unallocated, 0⟩

def freeTimer (t : Timers) (p : Fin maxTimers) : Timers :=
  { t with links := listAddTail t.links (.timerarray p) .freeTimers }

def initEmulatedTimers : Timers := (List.finRange maxTimers).foldl freeTimer staticTimers

/-- The `memset` clears `sizeof(block)` bytes, the eight of a pointer: `time` alone. -/
def allocTimer (t : Timers) : Option (Option (Fin maxTimers) × Timers) :=
  if listEmpty t.links .freeTimers then some (none, t)
  else
    (containerOf (t.links.next .freeTimers)).map fun block =>
      (some block,
        { links := listDel t.links (t.links.next .freeTimers)
          timer := Function.update t.timer block { t.timer block with time := 0 } })

/-- The loop of `insertTimer`: the last node not later than `time`, and its successor. -/
def insertPlace (t : Timers) (q : ListHead) (time : Nat) :
    Nat → ListHead → ListHead → Option (ListHead × ListHead)
  | 0, _, _ => none
  | fuel + 1, old, aux =>
    if aux = q ∨ aux = .null then some (old, aux)
    else
      (containerOf aux).bind fun tmp =>
        if (t.timer tmp).time > time then some (old, aux)
        else insertPlace t q time fuel aux (t.links.next aux)

/-- The mask on `q` turns a kernel address into the low alias of the same object. -/
def insertTimer (t : Timers) (q : ListHead) (p : Fin maxTimers) : Option Timers :=
  if q = .null then some t
  else
    (insertPlace t q (t.timer p).time (maxTimers + 1) q (t.links.next q)).map fun (old, aux) =>
      { t with links :=
          if aux = q then listAddTail t.links (.timerarray p) q
          else listAdd t.links (.timerarray p) old }

def removeTimer (t : Timers) (q : ListHead) : Option (Option (Fin maxTimers) × Timers) :=
  if q = .null ∨ listEmpty t.links q then some (none, t)
  else
    (containerOf (t.links.next q)).map fun first =>
      (some first, { t with links := listDel t.links (t.links.next q) })

def removeLoop (q : ListHead) (type : TimerType) (code : Fin maxDevices) :
    Nat → Timers → ListHead → Option Timers
  | 0, _, _ => none
  | fuel + 1, t, aux =>
    if aux = q ∨ aux = .null then some t
    else
      (containerOf aux).bind fun tmp =>
        if (t.timer tmp).type = type ∧ (t.timer tmp).code = code then
          removeLoop q type code fuel
            (freeTimer { t with links := listDel t.links aux } tmp) (t.links.next aux)
        else removeLoop q type code fuel t (t.links.next aux)

def removeTimerType (t : Timers) (q : ListHead) (type : TimerType) (code : Fin maxDevices) :
    Option Timers :=
  if q = .null then some t else removeLoop q type code (maxTimers + 1) t (t.links.next q)

def headTimer (t : Timers) (q : ListHead) : Option (Option (Fin maxTimers)) :=
  if q = .null ∨ listEmpty t.links q then some none
  else (containerOf (t.links.next q)).map some

/-- The flag is false when `allocTimer` had no timer left and the request was dropped. -/
def addTimer (t : Timers) (time : Nat) (type : TimerType) (code : Fin maxDevices) :
    Option (Bool × Timers) :=
  (removeTimerType t .pendingTimers type code).bind fun t =>
    (allocTimer t).bind fun
      | (none, t) => some (false, t)
      | (some timer, t) =>
        let t := { t with timer := Function.update t.timer timer ⟨time, type, code⟩ }
        (insertTimer t .pendingTimers timer).map fun t => (true, t)

/-- The return value and the timer copied to `*next`, which is unchanged on -1. -/
def nextTimer (t : Timers) (next : Timer) : Option (Int × Timer) :=
  (headTimer t .pendingTimers).map fun
    | none => (-1, next)
    | some timer => (0, t.timer timer)

def nextPendingTimer (t : Timers) (currentTime : Nat) (next : Timer) :
    Option (Int × Timer × Timers) :=
  (headTimer t .pendingTimers).bind fun
    | none => some (-1, next, t)
    | some timer =>
      if (t.timer timer).time < currentTime then
        (removeTimer t .pendingTimers).map fun (_, t') =>
          (1, t.timer timer, freeTimer t' timer)
      else some (0, t.timer timer, t)

end EmulatedTimers
