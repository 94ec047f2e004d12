import MaldOS.Emulated.Handlers
import MaldOS.Library.Runs

/-!
The states of a running system: the parts that the handlers are made of as the
actions of a machine, and what every run of them keeps.
-/
namespace Emulated
open Arch ByteMemory Registers ArmTimers EmulatedTimers Runs

/-- One round of the loop in the timer branch; `next` is what the local holds. -/
def expire (s : System) (next : Timer) : System :=
  let (res, next, queue) := s.queue.nextPending (getTOD s.clock) next
  let s := { s with queue := queue }
  if res > 0 then manageTimer s next else s

/-- A client fills a block and sends it; a timer is looked for; the other parts of the handlers;
    time passes; the clients write to memory. -/
inductive Act where
  | request (dev : Dev) (block : BitVec 64) (r : DevReg)
  | expire (next : Timer)
  | rearm (res : Int) (next : Timer)
  | clean
  | irq (core : Fin 4) (source : BitVec 32)
  | timer (core : Fin 4) (microseconds : Nat)
  | tick (count : Nat)
  | write (ram : Memory 64) (mask : Byte)

def step (s : System) : Act → System
  | .request dev block r => mailbox { s with ram := storeReg s.ram block r } dev block
  | .expire next => expire s next
  | .rearm res next => rearm s (getTOD s.clock) res next
  | .clean => cleanInterruptLines s
  | .irq core source => cIrqHandler s core source
  | .timer core microseconds => setTIMER s core microseconds
  | .tick count => s.tick count
  | .write ram mask => { s with ram := ram, mask := mask }

def Reachable (s : System) : Prop :=
  ∃ b sdOk start as, initSystem b sdOk = some start ∧ s = run step start as

def Expires (s : System) (dev : Dev) : Prop :=
  ∃ r rest, s.queue.entries = r :: rest ∧ r.time < getTOD s.clock ∧ owner r = some dev

theorem owner_iff (r : Timer) (dev : Dev) :
    owner r = some dev ↔ dev.1.timer = r.type ∧ dev.2 = r.code := by
  obtain ⟨time, type, code⟩ := r
  obtain ⟨c, i⟩ := dev
  cases type <;> cases c <;> simp [owner, DeviceClass.timer, eq_comm]

theorem expire_cases (s : System) (next : Timer) :
    expire s next = s ∧ (∀ dev, ¬ Expires s dev) ∨
      ∃ r q, s.queue.entries = r :: q.entries ∧ r.time < getTOD s.clock ∧
        expire s next = manageTimer { s with queue := q } r := by
  obtain ⟨res, r, q, given, cases⟩ := nextPending_cases s.queue (getTOD s.clock) next
  unfold expire
  simp only [given]
  rcases cases with ⟨sign, none, same⟩ | ⟨sign, head, past⟩ | ⟨sign, same, due, rest, head⟩
  · left
    rw [if_neg (by omega), same]
    refine ⟨rfl, ?_⟩
    rintro dev ⟨r', rest, head, _⟩
    rw [none] at head
    cases head
  · right
    rw [if_pos sign]
    exact ⟨r, q, head, past, rfl⟩
  · left
    rw [if_neg (by omega), same]
    refine ⟨rfl, ?_⟩
    rintro dev ⟨r', rest', head', past, _⟩
    rw [head] at head'
    cases head'
    omega

theorem manageTimer_owner {s : System} {r : Timer} {dev : Dev} (own : owner r = some dev) :
    manageTimer s r = manage s dev := by simp only [manageTimer, own]

/-- Everything but messages and expiries leaves the devices and their timers alone. -/
structure Aside (s s' : System) : Prop where
  ports : s'.ports = s.ports
  queue : s'.queue = s.queue
  tapes : s'.tapes = s.tapes
  disks : s'.disks = s.disks
  fat : s'.fat = s.fat

theorem rearm_aside (s : System) (currentTime : Nat) (res : Int) (next : Timer) :
    Aside s (rearm s currentTime res next) := by
  unfold rearm
  generalize (if res = 0 then _ else disableVirtualCounter s.virtualTimer) = armed
  dsimp only
  split_ifs <;> exact ⟨rfl, rfl, rfl, rfl, rfl⟩

theorem irq_aside (s : System) (core : Fin 4) (source : BitVec 32) :
    Aside s (cIrqHandler s core source) := by
  unfold cIrqHandler irqTimer
  dsimp only
  split_ifs <;> exact ⟨rfl, rfl, rfl, rfl, rfl⟩

theorem setTIMER_aside (s : System) (core : Fin 4) (microseconds : Nat) :
    Aside s (setTIMER s core microseconds) := by
  unfold setTIMER
  dsimp only
  split_ifs <;> exact ⟨rfl, rfl, rfl, rfl, rfl⟩

def Act.Serving : Act → Prop
  | .request .. => True
  | .expire _ => True
  | _ => False

theorem step_aside (s : System) {a : Act} (other : ¬ a.Serving) : Aside s (step s a) := by
  cases a with
  | request dev block r => exact absurd trivial other
  | expire next => exact absurd trivial other
  | rearm res next => exact rearm_aside s _ res next
  | clean => exact ⟨rfl, rfl, rfl, rfl, rfl⟩
  | irq core source => exact irq_aside s core source
  | timer core microseconds => exact setTIMER_aside s core microseconds
  | tick count => exact ⟨rfl, rfl, rfl, rfl, rfl⟩
  | write ram mask => exact ⟨rfl, rfl, rfl, rfl, rfl⟩

/-! The handlers are runs of these actions. -/

theorem expire_clock (s : System) (next : Timer) : (expire s next).clock = s.clock := by
  rcases expire_cases s next with ⟨same, _⟩ | ⟨r, q, _, _, run⟩
  · rw [same]
  · rw [run]
    unfold manageTimer
    cases owner r with
    | none => rfl
    | some dev => exact (manage_quiet _ dev).clock

def Act.Drains : Act → Prop
  | .expire _ => True
  | .rearm .. => True
  | _ => False

theorem drainLoop_run (fuel : Nat) {s t : System} {next next' : Timer} {res : Int}
    (ends : drainLoop (getTOD s.clock) fuel s next = some (res, next', t)) :
    t.clock = s.clock ∧ ∃ as, (∀ a ∈ as, a.Drains) ∧ t = run step s as := by
  induction fuel generalizing s next with
  | zero => cases ends
  | succ fuel ih =>
    obtain ⟨round, q⟩ : ∃ round, round = s.queue.nextPending (getTOD s.clock) next := ⟨_, rfl⟩
    simp only [drainLoop, ← q] at ends
    have here : expire s next = if round.1 > 0 then
        manageTimer { s with queue := round.2.2 } round.2.1 else { s with queue := round.2.2 } := by
      simp only [expire, ← q]
    have clock := expire_clock s next
    by_cases expired : round.1 > 0
    · rw [if_pos expired] at ends here
      rw [← here, ← clock] at ends
      obtain ⟨same, as, drains, after⟩ := ih ends
      refine ⟨same.trans clock, .expire next :: as, ?_, after⟩
      intro a member
      rcases List.mem_cons.mp member with rfl | later
      · trivial
      · exact drains a later
    · rw [if_neg expired] at ends here
      cases ends
      rw [← here]
      exact ⟨clock, [.expire next], by simp [Act.Drains], rfl⟩

theorem fiqTimer_run (s : System) :
    ∃ as, (∀ a ∈ as, a.Drains) ∧ fiqTimer s = run step s as := by
  obtain ⟨res, next, t, ends, rearmed⟩ := fiqTimer_drains s
  obtain ⟨clock, as, drains, drained⟩ := drainLoop_run _ ends
  refine ⟨as ++ [.rearm res next], ?_, ?_⟩
  · intro a member
    rcases List.mem_append.mp member with before | last
    · exact drains a before
    · cases List.mem_singleton.mp last
      trivial
  · rw [rearmed, run_append, ← drained, ← clock]
    rfl

theorem storeReg_self (s : System) (block : BitVec 64) :
    { s with ram := storeReg s.ram block (loadReg s.ram block) } = s := by
  rw [storeReg_loadReg]

theorem fiqMailbox_run (s : System) (data : BitVec 32) : ∃ as, fiqMailbox s data = run step s as := by
  unfold fiqMailbox
  cases messageClass data with
  | none => exact ⟨[], rfl⟩
  | some c =>
    refine ⟨[.request (c, messageNum data) (messageAddress data)
      (loadReg s.ram (messageAddress data))], ?_⟩
    simp only [run, step, storeReg_self]

/-- Every call of the FIQ handler is a run of actions. -/
theorem fiq_run (s : System) (source data : BitVec 32) (count : Nat) :
    ∃ as, cFiqHandler s source data count = run step s as := by
  obtain ⟨as, first⟩ : ∃ as, (if source &&& 0x10 ≠ 0 then fiqMailbox s data else s) =
      run step s as := by
    split_ifs
    · exact fiqMailbox_run s data
    · exact ⟨[], rfl⟩
  obtain ⟨bs, second⟩ : ∃ bs, ∀ t, t = run step s as →
      (if source &&& 0x08 ≠ 0 then fiqTimer (t.tick count) else t) = run step t bs := by
    split_ifs
    · obtain ⟨bs, -, timer⟩ := fiqTimer_run ((run step s as).tick count)
      exact ⟨.tick count :: bs, fun t same => by rw [same, timer]; rfl⟩
    · exact ⟨[], fun t _ => rfl⟩
  refine ⟨as ++ (bs ++ [.clean]), ?_⟩
  unfold cFiqHandler
  dsimp only
  rw [first, second _ rfl, run_append, run_append]
  rfl

theorem reachable_run {s : System} (reachable : Reachable s) (as : List Act) :
    Reachable (run step s as) := by
  obtain ⟨b, sdOk, start, before, init, same⟩ := reachable
  exact ⟨b, sdOk, start, before ++ as, init, by rw [run_append, same]⟩

theorem reachable_fiq {s : System} (reachable : Reachable s) (source data : BitVec 32)
    (count : Nat) : Reachable (cFiqHandler s source data count) := by
  obtain ⟨as, same⟩ := fiq_run s source data count
  rw [same]
  exact reachable_run reachable as

/-! No command is in flight after `initSystem`. -/

def Quiescent (s : System) : Prop := ∀ dev, ¬ Busy s dev

theorem quiescent_setRegs {s : System} (quiescent : Quiescent s) (dev : Dev) {f : DevReg → DevReg}
    (idle : (f (s.regs dev)).status ≠ deviceBusy) : Quiescent (s.setRegs dev f) := by
  intro other
  by_cases same : other = dev
  · subst same
    simpa [Busy, System.regs] using idle
  · have apart := (quiet_setRegs dev s f).ports other same
    unfold Busy System.regs
    rw [apart]
    exact quiescent other

theorem quiescent_ports {s s' : System} (quiescent : Quiescent s) (same : s'.ports = s.ports) :
    Quiescent s' := by
  intro dev
  unfold Busy System.regs
  rw [same]
  exact quiescent dev

theorem initEmulatedTape_quiescent {s : System} (quiescent : Quiescent s) {fileid : Nat → Byte}
    {i : Fin maxDevices} {r : (Nat → Byte) × System}
    (done : initEmulatedTape s fileid i = some r) : Quiescent r.2 := by
  unfold initEmulatedTape at done
  generalize Fat.fatGetcluster s.fat (tapeName i) = looked at done
  obtain ⟨cluster, -, rfl⟩ := Option.map_eq_some_iff.mp done
  have command : ∀ t, Quiescent t →
      Quiescent (t.setRegs (.tape, i) fun r => { r with command := reset }) :=
    fun t settled => quiescent_setRegs settled _ (settled _)
  dsimp only
  split_ifs
  all_goals
    apply command
    dsimp only
    apply quiescent_setRegs
    · exact quiescent_ports quiescent rfl
    · simp

theorem initEmulatedDisk_quiescent {s : System} (quiescent : Quiescent s) {header : Nat → Byte}
    {i : Fin maxDevices} {r : (Nat → Byte) × System}
    (done : initEmulatedDisk s header i = some r) : Quiescent r.2 := by
  unfold initEmulatedDisk at done
  generalize Fat.fatGetcluster s.fat (diskName i) = looked at done
  obtain ⟨cluster, -, rfl⟩ := Option.map_eq_some_iff.mp done
  have command : ∀ t, Quiescent t →
      Quiescent (t.setRegs (.disk, i) fun r => { r with command := reset }) :=
    fun t settled => quiescent_setRegs settled _ (settled _)
  dsimp only
  split_ifs
  all_goals
    apply command
    dsimp only
    apply quiescent_setRegs
    · exact quiescent_ports quiescent rfl
    · simp

section
variable (inv : System → Prop) {s s' : System} {stack : Nat → Byte}

theorem initEmulatedTapes_keeps (start : ∀ installed, inv { s with installed := installed })
    (round : ∀ s fileid i r, inv s → initEmulatedTape s fileid i = some r → inv r.2)
    (done : initEmulatedTapes s stack = some s') : inv s' := by
  obtain ⟨r, rounds, rfl⟩ := Option.map_eq_some_iff.mp done
  refine foldlM_invariant (fun a => inv a.2) (fun a i a' keeps first => ?_) _ (start _) rounds
  exact round a.2 a.1 i a' keeps first

theorem initEmulatedDisks_keeps (start : ∀ installed, inv { s with installed := installed })
    (round : ∀ s header i r, inv s → initEmulatedDisk s header i = some r → inv r.2)
    (done : initEmulatedDisks s stack = some s') : inv s' := by
  obtain ⟨r, rounds, rfl⟩ := Option.map_eq_some_iff.mp done
  refine foldlM_invariant (fun a => inv a.2) (fun a i a' keeps first => ?_) _ (start _) rounds
  exact round a.2 a.1 i a' keeps first

end

theorem start_quiescent (b : Boot) : Quiescent b.start := by
  intro dev busy
  cases busy

/-- What every part of `initSystem` keeps holds at its end. -/
theorem init_invariant {b : Boot} {sdOk : Bool} {start : System}
    (init : initSystem b sdOk = some start) (inv : System → Prop)
    (boot : inv b.start) (mount : ∀ s fat, inv s → inv { s with fat := fat })
    (table : ∀ s installed, inv s → inv { s with installed := installed })
    (tape : ∀ s fileid i r, inv s → initEmulatedTape s fileid i = some r → inv r.2)
    (disk : ∀ s header i r, inv s → initEmulatedDisk s header i = some r → inv r.2)
    (printer : ∀ s i, inv s → inv (initEmulatedPrinter s i)) (timers : ∀ s, inv s → inv (initTimers s)) :
    inv start := by
  obtain ⟨s, mounted, rfl⟩ := Option.map_eq_some_iff.mp init
  have devices : inv s := by
    cases sdOk with
    | false =>
      cases mounted
      exact boot
    | true =>
      obtain ⟨fat, -, rest⟩ := Option.bind_eq_some_iff.mp mounted
      obtain ⟨t, tapes, disks⟩ := Option.bind_eq_some_iff.mp rest
      have start : inv { b.start with fat := fat } := mount b.start fat boot
      have afterTapes : inv t := initEmulatedTapes_keeps inv (fun _ => table _ _ start) tape tapes
      exact initEmulatedDisks_keeps inv (fun _ => table _ _ afterTapes) disk disks
  have printers : ∀ (is : List (Fin maxDevices)) (t : System), inv t →
      inv (is.foldl initEmulatedPrinter t) := by
    intro is
    induction is with
    | nil => exact fun t here => here
    | cons i is ih => exact fun t here => ih _ (printer t i here)
  exact timers _ (printers _ _ (table _ _ devices))

theorem initEmulatedPrinter_ready (is : List (Fin maxDevices)) {s : System} {i : Fin maxDevices}
    (ready : i ∈ is ∨ (s.regs (.printer, i)).status = deviceReady) :
    ((is.foldl initEmulatedPrinter s).regs (.printer, i)).status = deviceReady := by
  induction is generalizing s with
  | nil => exact ready.resolve_left (List.not_mem_nil)
  | cons j is ih =>
    apply ih
    by_cases here : i = j
    · subst here
      right
      simp [initEmulatedPrinter, System.regs]
    · have apart : (initEmulatedPrinter s j).ports (.printer, i) = s.ports (.printer, i) :=
        (quiet_setRegs (.printer, j) s _).ports (.printer, i) (by simp [here])
      rcases ready with member | before
      · exact Or.inl ((List.mem_cons.mp member).resolve_left here)
      · right
        rw [System.regs, apart]
        exact before

theorem init_quiescent {b : Boot} {sdOk : Bool} {start : System}
    (init : initSystem b sdOk = some start) :
    Quiescent start ∧ ∀ i, (start.regs (.printer, i)).status = deviceReady := by
  constructor
  · apply init_invariant init Quiescent
    · exact start_quiescent b
    · exact fun s fat quiescent => quiescent_ports quiescent rfl
    · exact fun s installed quiescent => quiescent_ports quiescent rfl
    · exact fun s fileid i r quiescent done => initEmulatedTape_quiescent quiescent done
    · exact fun s header i r quiescent done => initEmulatedDisk_quiescent quiescent done
    · exact fun s i quiescent => quiescent_setRegs quiescent _ (by simp)
    · exact fun s quiescent => quiescent_ports quiescent rfl
  · obtain ⟨s, -, rfl⟩ := Option.map_eq_some_iff.mp init
    intro i
    exact initEmulatedPrinter_ready (List.finRange maxDevices) (Or.inl (List.mem_finRange i))

end Emulated
