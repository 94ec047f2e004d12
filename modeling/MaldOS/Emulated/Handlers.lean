import MaldOS.Emulated.Expiry

/-!
`interrupts.c` as far as it serves the devices and the timers: the FIQ handler,
`setTIMER`, and the IRQ handler up to its choice of a context. It is assumed that
a handler runs to its end before another one starts; the processor itself takes
FIQs to EL2 from handlers at EL1 as well, and runs the four cores side by side.
-/
namespace Emulated
open Arch ByteMemory Registers ArmTimers EmulatedTimers

def pendingEmulatedInterrupt (s : System) : Bool :=
  (List.finRange ilLines).any fun i => s.lines i ≠ 0 && s.mask &&& bit i = 0

def cleanInterruptLines (s : System) : System :=
  { s with lines := fun i => s.lines i &&& s.installed i }

def System.tick (s : System) (count : Nat) : System :=
  { s with clock := { s.clock with count := count } }

def System.setPhysical (s : System) (core : Fin 4) (timer : Nat) : System :=
  { s with physicalTimers :=
      Function.update s.physicalTimers core (setPhysicalTimer s.clock (s.physicalTimers core) timer) }

def System.schedule (s : System) (core : Fin 4) (time : Nat) : System :=
  { s with scheduledPhysicalTimers := Function.update s.scheduledPhysicalTimers core time }

def setTIMER (s : System) (core : Fin 4) (microseconds : Nat) : System :=
  let currentTime := getTOD s.clock
  let timer := u64 (currentTime + microseconds)
  let s := (s.clearLine ilTimer core).schedule core timer
  if currentTime < timer ∧ pendingEmulatedInterrupt s = false then
    s.setPhysical core (timer - currentTime)
  else s.setPhysical core 0

/-- `device_class` in a message, `none` for the one number that is no class. -/
def messageClass (data : BitVec 32) : Option DeviceClass :=
  if (data &&& 0xC) >>> 2 = 2 then some .disk
  else if (data &&& 0xC) >>> 2 = 0 then some .printer
  else if (data &&& 0xC) >>> 2 = 1 then some .tape
  else none

def messageNum (data : BitVec 32) : Fin maxDevices := Fin.ofNat 4 (data &&& 3).toNat

def messageAddress (data : BitVec 32) : BitVec 64 := (data &&& ~~~ 0xF).setWidth 64

/-- The branch of `c_fiq_handler` for a mailbox message. -/
def fiqMailbox (s : System) (data : BitVec 32) : System :=
  match messageClass data with
  | some c => mailbox s (c, messageNum data) (messageAddress data)
  | none => s

def owner (t : Timer) : Option Dev :=
  match t.type with
  | .tape => some (.tape, t.code)
  | .printer => some (.printer, t.code)
  | .disk => some (.disk, t.code)
  | .unallocated => none

def manageTimer (s : System) (next : Timer) : System :=
  match owner next with
  | some dev => manage s dev
  | none => s

/-- The loop of the timer branch; `none` when `fuel` rounds do not end it. -/
def drainLoop (currentTime : Nat) : Nat → System → Timer → Option (Int × Timer × System)
  | 0, _, _ => none
  | fuel + 1, s, next =>
    let (res, next, queue) := s.queue.nextPending currentTime next
    let s := { s with queue := queue }
    if res > 0 then drainLoop currentTime fuel (manageTimer s next) next else some (res, next, s)

theorem manage_quiet (s : System) (dev : Dev) : Quiet dev s (manage s dev) := by
  rcases manage_cases s dev with same | ⟨-, -, completed⟩
  · rw [same]
    exact quiet_outside _ _ _ _ _ _ _
  · exact completed.quiet

theorem manageTimer_queue (s : System) (next : Timer) : (manageTimer s next).queue = s.queue := by
  unfold manageTimer
  cases owner next with
  | none => rfl
  | some dev => exact (manage_quiet s dev).queue

theorem drainLoop_some (currentTime fuel : Nat) (s : System) (next : Timer)
    (bound : s.queue.entries.length < fuel) : (drainLoop currentTime fuel s next).isSome := by
  induction fuel generalizing s next with
  | zero => omega
  | succ fuel ih =>
    obtain ⟨res, r, q, given, cases⟩ := nextPending_cases s.queue currentTime next
    simp only [drainLoop, given]
    by_cases expired : res > 0
    · rw [if_pos expired]
      apply ih
      rw [manageTimer_queue]
      rcases cases with ⟨none, _⟩ | ⟨_, head, _⟩ | ⟨none, _⟩
      · omega
      · rw [head, List.length_cons] at bound
        exact Nat.lt_of_succ_lt_succ bound
      · omega
    · rw [if_neg expired]
      rfl

def drain (s : System) (currentTime : Nat) (next : Timer) : Int × Timer × System :=
  (drainLoop currentTime (s.queue.entries.length + 1) s next).get
    (drainLoop_some currentTime _ s next (Nat.lt_succ_self _))

/-- The end of the timer branch, after the loop left `res` and `next`. -/
def rearm (s : System) (currentTime : Nat) (res : Int) (next : Timer) : System :=
  let s := { s with virtualTimer :=
    if res = 0 then
      setVirtualTimer s.clock s.virtualTimer (u64 (next.time + 2 ^ 64 - currentTime))
    else disableVirtualCounter s.virtualTimer }
  if pendingEmulatedInterrupt s then s.setPhysical 0 0 else s

/-- The branch of `c_fiq_handler` for the virtual timer. -/
def fiqTimer (s : System) : System :=
  let currentTime := getTOD s.clock
  let (res, next, s) := drain s currentTime noTimer
  rearm s currentTime res next

theorem fiqTimer_drains (s : System) :
    ∃ res next t, drainLoop (getTOD s.clock) (s.queue.entries.length + 1) s noTimer =
        some (res, next, t) ∧ fiqTimer s = rearm t (getTOD s.clock) res next := by
  obtain ⟨r, ends⟩ := Option.isSome_iff_exists.mp
    (drainLoop_some (getTOD s.clock) _ s noTimer (Nat.lt_succ_self _))
  exact ⟨r.1, r.2.1, r.2.2, ends, by simp only [fiqTimer, drain, ends, Option.get_some]⟩

/-- `source` and `data` are `Core0_FIQ_Source` and `Core0_MailBox0_ClearSet`; the timer branch
    finds the counter at `count`. -/
def cFiqHandler (s : System) (source data : BitVec 32) (count : Nat) : System :=
  let s := if source &&& 0x10 ≠ 0 then fiqMailbox s data else s
  let s := if source &&& 0x08 ≠ 0 then fiqTimer (s.tick count) else s
  cleanInterruptLines s

/-- The branch of `c_irq_handler` for the physical timer. -/
def irqTimer (s : System) (core : Fin 4) : System :=
  let currentTime := getTOD s.clock
  if currentTime ≥ s.scheduledPhysicalTimers core then
    let s := (s.raiseLine ilTimer core).schedule core 0
    { s with physicalTimers :=
        Function.update s.physicalTimers core (disablePhysicalCounter (s.physicalTimers core)) }
  else s.setPhysical core (s.scheduledPhysicalTimers core - currentTime)

/-- `c_irq_handler` up to its choice of a context. Only core 0 gives `tmp` a value. -/
def cIrqHandler (s : System) (core : Fin 4) (source : BitVec 32) : System :=
  let (tmp, s) :=
    if core = 0 then (source, s) else (s.locals s.met, { s with met := s.met + 1 })
  let s := if tmp &&& 0x02 ≠ 0 then irqTimer s core else s
  let s := if pendingEmulatedInterrupt s then s.setPhysical core 0 else s
  cleanInterruptLines s

/-- What the processor, the card and the stack hold when the core starts. -/
structure Boot where
  ram : Memory 64
  card : Sd.Card
  clock : Counter
  virtualTimer : ArmTimer
  physicalTimers : Fin 4 → ArmTimer
  locals : Nat → BitVec 32
  /-- The buffers of `fat_readfile` and of the two init functions. -/
  stack : Nat → Byte

/-- The static storage, cleared, with the lines and the mask as `initSystem` sets them. -/
def Boot.start (b : Boot) : System where
  ram := b.ram
  installed := fun _ => 0
  lines := fun _ => 0
  mask := 0xFF
  fat := Fat.staticVolume b.card b.stack
  ports := fun _ => ⟨0, ⟨0, 0, 0, 0, 0⟩⟩
  tapes := fun _ => ⟨0, 0⟩
  disks := fun _ => ⟨0, 0, 0, 0, 0, 0, 0, 0, 0, 0⟩
  printers := fun _ => ⟨0, (0, 0)⟩
  screen := []
  queue := .empty
  clock := b.clock
  virtualTimer := b.virtualTimer
  physicalTimers := b.physicalTimers
  scheduledPhysicalTimers := fun _ => 0
  locals := b.locals
  met := 0

/-- What `initSystem` does when it finds a card. -/
def mountDevices (s : System) (stack : Nat → Byte) : Option System :=
  let s := { s with fat := (Fat.fatGetpartition s.fat).2 }
  (Fat.fatListdirectory s.fat).bind fun fat =>
    (initEmulatedTapes { s with fat := fat } stack).bind fun s => initEmulatedDisks s stack

/-- `init_emulated_timers`: every core has a timer, and none is pending. -/
def initTimers (s : System) : System :=
  { s with installed := Function.update s.installed ilTimer 0x0F, queue := .empty }

/-- `sdOk` tells whether `sd_init` succeeded; `none` where a directory has no end. -/
def initSystem (b : Boot) (sdOk : Bool) : Option System :=
  (if sdOk then mountDevices b.start b.stack else some b.start).map fun s =>
    initTimers (initEmulatedPrinters s)

end Emulated
