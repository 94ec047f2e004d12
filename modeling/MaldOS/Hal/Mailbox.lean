import MaldOS.Library.Runs
import Mathlib.Logic.Function.Basic
import Mathlib.Tactic.SplitIfs

/-!
The property channel of `mailbox.c` between core 0 and the GPU. `mbox_call` waits
for its own value and `_read_mailbox0` for any one of its channel; a call that
returns was answered, as long as the second of them gets no mail of other channels.
-/
namespace Mailbox
open Runs

abbrev Value := BitVec 32

abbrev Store := Value → Value

abbrev mboxResponse : Value := 0x80000000

abbrev mboxChProp : Value := 8

inductive Waiter where
  | mboxCall
  | readMailbox0
  deriving DecidableEq

/-- A message on the property channel. `mbox` and the messages on the stack are aligned, and each
    has its size in the first word. -/
structure Call where
  waiter : Waiter
  data : Value
  message : List Value
  aligned : data &&& ~~~0xF = data
  short : message.length ≤ 36
  size : message[0]? = some (BitVec.ofNat 32 (4 * message.length))

/-- The address with the channel in its low bits, as it is written to the mailbox. -/
def Call.value (c : Call) : Value := (c.data &&& ~~~0xF) ||| (mboxChProp &&& 0xF)

/-- Where core 0 is: in `wait_mailbox_write`, before the store, in `wait_mailbox_read` or before
    the load. `ok` is what `mbox_call` returns. -/
inductive Phase where
  | idle
  | waitWrite (c : Call)
  | write (c : Call)
  | waitRead (c : Call)
  | read (c : Call)
  | returned (c : Call) (ok : Bool)

structure State where
  memory : Store
  /-- What the GPU has not fetched yet, what it has fetched and what it has sent. -/
  outbox : List Value
  held : List Value
  inbox : List Value
  phase : Phase

inductive Act where
  | call (c : Call)
  /-- The next access of core 0, and what a read of an empty mailbox gives. -/
  | access (stale : Value)
  | fetch
  | answer (i : Nat) (reply : List Value)
  | notify (mail : Value)

def OnProp (v : Value) : Prop := v &&& 0xF = mboxChProp

instance (v : Value) : Decidable (OnProp v) := inferInstanceAs (Decidable (_ = _))

def storeValues (m : Store) (a : Value) : List Value → Store
  | [] => m
  | v :: vs => storeValues (Function.update m a v) (a + 4) vs

def posted (m : Store) (c : Call) : Store := storeValues m c.data c.message

/-- The GPU writes its reply over the message, of the size that is in its first word. -/
def answered (m : Store) (v : Value) (reply : List Value) : Store :=
  storeValues m (v &&& ~~~0xF) (reply.take ((m (v &&& ~~~0xF)).toNat / 4))

/-- `MAILBOX0->read` -/
def State.load (s : State) (stale : Value) : Value × State :=
  match s.inbox with
  | [] => (stale, s)
  | v :: rest => (v, { s with inbox := rest })

/-- `MAILBOX0->status` is that of the mailbox that core 0 reads from, also where it is about to
    write: `MBOX_FULL` is set when `depth` values are there. -/
def accessAt (depth : Nat) (s : State) (stale : Value) : Phase → State
  | .idle => s
  | .waitWrite c => if depth ≤ s.inbox.length then s else { s with phase := .write c }
  | .write c => { s with outbox := s.outbox ++ [c.value], phase := .waitRead c }
  | .waitRead c => if s.inbox = [] then s else { s with phase := .read c }
  | .read c =>
    let (res, s) := s.load stale
    match c.waiter with
    | .mboxCall =>
      if c.value = res then { s with phase := .returned c (s.memory (c.data + 4) == mboxResponse) }
      else { s with phase := .waitRead c }
    -- `_read_mailbox0` loads again without another look at `MBOX_EMPTY`
    | .readMailbox0 => if res &&& 0xF ≠ mboxChProp then s else { s with phase := .returned c true }
  | .returned _ _ => s

def Phase.Free : Phase → Bool
  | .idle | .returned _ _ => true
  | _ => false

def step (depth : Nat) (s : State) : Act → State
  | .call c =>
    if s.phase.Free then { s with memory := posted s.memory c, phase := .waitWrite c } else s
  | .access stale => accessAt depth s stale s.phase
  | .fetch =>
    match s.outbox with
    | [] => s
    | v :: rest => { s with outbox := rest, held := s.held ++ [v] }
  | .answer i reply =>
    match s.held[i]? with
    | none => s
    | some v => { s with
        memory := answered s.memory v reply, held := s.held.eraseIdx i, inbox := s.inbox ++ [v] }
  | .notify mail => if OnProp mail then s else { s with inbox := s.inbox ++ [mail] }

/-- The memory before the last call, and what the GPU has answered since. -/
structure Log where
  before : Store
  replies : List (Value × List Value)

def logAct (s : State) (log : Log) : Act → Log
  | .call _ => if s.phase.Free then ⟨s.memory, []⟩ else log
  | .answer i reply =>
    match s.held[i]? with
    | none => log
    | some v => { log with replies := log.replies ++ [(v, reply)] }
  | _ => log

def logged (depth : Nat) (p : State × Log) (a : Act) : State × Log :=
  (step depth p.1 a, logAct p.1 p.2 a)

/-- The message was answered once and nothing else was. In the message are the words of the
    reply, and what is elsewhere is as it was before the call. -/
structure Answered (c : Call) (m : Store) (log : Log) (reply : List Value) : Prop where
  replies : log.replies = [(c.value, reply)]
  words : ∀ i v, c.message[i]? = some v → m (c.data + BitVec.ofNat 32 (4 * i)) = reply[i]?.getD v
  elsewhere : ∀ a, (∀ i < c.message.length, a ≠ c.data + BitVec.ofNat 32 (4 * i)) →
    m a = log.before a

/-- The call is over, with the GPU's reply to it in its message. -/
structure Returned (c : Call) (ok : Bool) (p : State × Log) (reply : List Value) : Prop where
  phase : p.1.phase = .returned c ok
  answered : Answered c p.1.memory p.2 reply
  success : c.waiter = .mboxCall → (ok = true ↔ p.1.memory (c.data + 4) = mboxResponse)

/-! The messages of the callers, and what they take from the reply. -/

/-- `struct mailbox_msg` with its one tag. -/
def mailboxMsg (tagId bufferSize dataSize devId val : Value) : List Value :=
  [32, 0, tagId, bufferSize, dataSize, devId, val, 0]

def onStack (data : Value) (aligned : data &&& ~~~0xF = data)
    (tagId bufferSize dataSize devId val : Value) : Call :=
  ⟨.readMailbox0, data, mailboxMsg tagId bufferSize dataSize devId val, aligned, by simp [mailboxMsg],
    rfl⟩

def led (data : Value) (aligned : data &&& ~~~0xF = data) (onoff : Value) : Call :=
  onStack data aligned 0x00038041 0x8 0x0 130 onoff

def serialNumber (data : Value) (aligned : data &&& ~~~0xF = data) : Call :=
  onStack data aligned 0x10004 0x8 0x0 0 0

/-- `serial[0]` and `serial[1]` -/
def serial (m : Store) (data : Value) : Value × Value := (m (data + 20), m (data + 24))

/-- Its tag has room for twelve bytes in a message that has eight. -/
def setUart0Baud (data : Value) (aligned : data &&& ~~~0xF = data) : Call :=
  onStack data aligned 0x38002 12 8 2 4000000

def getMemorySplit (data : Value) (aligned : data &&& ~~~0xF = data) : Call :=
  onStack data aligned 0x10005 0x8 0x0 0 0

def memorySplit (m : Store) (data : Value) : Value := m (data + 24)

def lfbMessage : List Value :=
  [35 * 4, 0, 0x48003, 8, 8, 1280, 960, 0x48004, 8, 8, 1280, 960, 0x48009, 8, 8, 0, 0,
    0x48005, 4, 4, 32, 0x48006, 4, 4, 1, 0x40001, 8, 8, 4096, 0, 0x40008, 4, 4, 0, 0]

def lfbCall (mbox : Value) (aligned : mbox &&& ~~~0xF = mbox) : Call :=
  ⟨.mboxCall, mbox, lfbMessage, aligned, by simp [lfbMessage], rfl⟩

/-- `width`, `height`, `pitch` and `lfb` of `lfb.c`. -/
structure Display where
  width : Value
  height : Value
  pitch : Value
  lfb : Value
  deriving DecidableEq

/-- What `lfb_init` makes of the reply. -/
def lfbInit (m : Store) (mbox : Value) (ok : Bool) (d : Display) : Display :=
  if ok ∧ m (mbox + 80) = 32 ∧ m (mbox + 112) ≠ 0 then
    ⟨m (mbox + 20), m (mbox + 24), m (mbox + 132), m (mbox + 112) &&& 0x3FFFFFFF⟩
  else d

structure Quiet (s : State) : Prop where
  phase : s.phase = .idle
  outbox : s.outbox = []
  held : s.held = []
  inbox : s.inbox = []

/-- There is no mail of other channels, or each call waits for its own value. -/
def Regular (as : List Act) : Prop :=
  (∀ mail, Act.notify mail ∉ as) ∨ ∀ c, Act.call c ∈ as → c.waiter = .mboxCall

end Mailbox
