import MaldOS.Emulated.Announced
import MaldOS.Emulated.Apart

/-!
The tables of the installed devices. A status tells that a device is missing
exactly where its bit is not set, a missing device never changes, and no line is
up without the bit of its device, so that cleaning the lines drops nothing.
-/
namespace Emulated
open Arch ByteMemory Registers ArmTimers EmulatedTimers Runs

def Marked (s : System) : Prop :=
  ∀ dev, Installed s dev → (s.regs dev).status ≠ deviceNotInstalled

def Within (s : System) : Prop :=
  ∀ line j, (s.lines line).getLsbD j = true → (s.installed line).getLsbD j = true

/-! What the init functions set. -/

structure Noted (dev : Dev) (s s' : System) : Prop where
  bits : ∀ other, other ≠ dev → Installed s' other → Installed s other
  own : (s'.regs dev).status = deviceNotInstalled → Installed s' dev → Installed s dev

theorem install_other {s : System} {dev other : Dev} (apart : other ≠ dev)
    (there : Installed (s.install dev.1.line dev.2) other) : Installed s other := by
  unfold Installed System.install at *
  by_cases line : other.1.line = dev.1.line
  · have number : dev.2 ≠ other.2 := fun same => apart (Prod.ext (line_inj line) same.symm)
    have unset : (bit dev.2).getLsbD other.2 = false := by
      rw [bit_get]
      exact decide_eq_false number
    dsimp only at there
    rw [line] at there ⊢
    rw [Function.update_self, BitVec.getLsbD_or, unset, Bool.or_false] at there
    exact there
  · dsimp only at there
    rw [Function.update_of_ne line] at there
    exact there

section
variable {dev : Dev} {s t : System} (f : DevReg → DevReg)

theorem noted_absent (installed : t.installed = s.installed) : Noted dev s (t.setRegs dev f) := by
  have kept : ∀ other, Installed (t.setRegs dev f) other → Installed s other := by
    intro other there
    unfold Installed at *
    rw [← installed]
    exact there
  exact ⟨fun other _ => kept other, fun _ => kept dev⟩

theorem noted_there (installed : t.installed = (s.install dev.1.line dev.2).installed)
    (there : ∀ r, (f r).status ≠ deviceNotInstalled) : Noted dev s (t.setRegs dev f) := by
  constructor
  · intro other apart set
    apply install_other apart
    unfold Installed at *
    rw [← installed]
    exact set
  · intro absent
    exact absurd absent (by simpa [System.regs] using there _)

theorem noted_command (noted : Noted dev s t) (command : BitVec 32) :
    Noted dev s (t.setRegs dev fun r => { r with command := command }) := by
  refine ⟨noted.bits, ?_⟩
  intro absent
  simp only [System.regs, setRegs_ports] at absent
  exact noted.own absent

end

theorem initEmulatedTape_notes {s : System} {fileid : Nat → Byte} {i : Fin maxDevices}
    {r : (Nat → Byte) × System} (done : initEmulatedTape s fileid i = some r) :
    Noted (.tape, i) s r.2 := by
  unfold initEmulatedTape at done
  generalize Fat.fatGetcluster s.fat (tapeName i) = looked at done
  obtain ⟨cluster, -, rfl⟩ := Option.map_eq_some_iff.mp done
  dsimp only
  split_ifs
  · apply noted_command
    dsimp only
    exact noted_absent _ rfl
  · apply noted_command
    dsimp only
    exact noted_there _ rfl fun _ => by simp
  · apply noted_command
    dsimp only
    exact noted_absent _ rfl

theorem initEmulatedDisk_notes {s : System} {header : Nat → Byte} {i : Fin maxDevices}
    {r : (Nat → Byte) × System} (done : initEmulatedDisk s header i = some r) :
    Noted (.disk, i) s r.2 := by
  unfold initEmulatedDisk at done
  generalize Fat.fatGetcluster s.fat (diskName i) = looked at done
  obtain ⟨cluster, -, rfl⟩ := Option.map_eq_some_iff.mp done
  dsimp only
  split_ifs
  · apply noted_command
    dsimp only
    exact noted_absent _ rfl
  · apply noted_command
    dsimp only
    exact noted_there _ rfl fun _ => by simp
  · apply noted_command
    dsimp only
    exact noted_absent _ rfl

theorem marked_noted {dev : Dev} {s s' : System} (marked : Marked s) (unset : ¬ Installed s dev)
    (ports : ∀ other, other ≠ dev → s'.ports other = s.ports other) (noted : Noted dev s s') :
    Marked s' := by
  intro other set
  by_cases same : other = dev
  · subst same
    exact fun absent => unset (noted.own absent set)
  · rw [System.regs, ports other same]
    exact marked other (noted.bits other same set)

theorem rounds_marked (c : DeviceClass)
    {round : (Nat → Byte) × System → Fin maxDevices → Option ((Nat → Byte) × System)}
    (probes : ∀ a i a', round a i = some a' → Probed (c, i) a.2 a'.2 ∧ Noted (c, i) a.2 a'.2)
    (is : List (Fin maxDevices)) (distinct : is.Nodup) {a a' : (Nat → Byte) × System}
    (marked : Marked a.2) (unset : ∀ i ∈ is, ¬ Installed a.2 (c, i))
    (done : is.foldlM round a = some a') : Marked a'.2 := by
  induction is generalizing a with
  | nil =>
    cases done
    exact marked
  | cons i is ih =>
    obtain ⟨middle, first, rest⟩ := Option.bind_eq_some_iff.mp done
    obtain ⟨probed, noted⟩ := probes a i middle first
    obtain ⟨fresh, distinct⟩ := List.nodup_cons.mp distinct
    refine ih distinct (marked_noted marked (unset i (by simp)) probed.ports noted) ?_ rest
    intro j member set
    have apart : (c, j) ≠ (c, i) := by
      intro same
      obtain ⟨-, rfl⟩ := Prod.mk.inj same
      exact fresh member
    exact unset j (by simp [member]) (noted.bits _ apart set)

theorem cleared_row {s : System} (c : DeviceClass) (marked : Marked s) :
    Marked { s with installed := Function.update s.installed c.line 0 } ∧
      ∀ i, ¬ Installed { s with installed := Function.update s.installed c.line 0 } (c, i) := by
  constructor
  · intro dev set
    apply marked dev
    unfold Installed at *
    by_cases line : dev.1.line = c.line
    · rw [line] at set
      simp at set
    · dsimp only at set
      rw [Function.update_of_ne line] at set
      exact set
  · intro i set
    simp [Installed] at set

theorem initEmulatedTapes_marked {s s' : System} {stack : Nat → Byte} (marked : Marked s)
    (done : initEmulatedTapes s stack = some s') : Marked s' := by
  unfold initEmulatedTapes at done
  obtain ⟨r, rounds, rfl⟩ := Option.map_eq_some_iff.mp done
  obtain ⟨kept, unset⟩ := cleared_row .tape marked
  have probes : ∀ (a : (Nat → Byte) × System) (i : Fin maxDevices) a',
      initEmulatedTape a.2 a.1 i = some a' →
        Probed (.tape, i) a.2 a'.2 ∧ Noted (.tape, i) a.2 a'.2 :=
    fun a i a' done => ⟨initEmulatedTape_probes done, initEmulatedTape_notes done⟩
  refine rounds_marked .tape probes _ (List.nodup_finRange maxDevices) ?_ ?_ rounds
  · exact kept
  · exact fun i _ => unset i

theorem initEmulatedDisks_marked {s s' : System} {stack : Nat → Byte} (marked : Marked s)
    (done : initEmulatedDisks s stack = some s') : Marked s' := by
  unfold initEmulatedDisks at done
  obtain ⟨r, rounds, rfl⟩ := Option.map_eq_some_iff.mp done
  obtain ⟨kept, unset⟩ := cleared_row .disk marked
  have probes : ∀ (a : (Nat → Byte) × System) (i : Fin maxDevices) a',
      initEmulatedDisk a.2 a.1 i = some a' →
        Probed (.disk, i) a.2 a'.2 ∧ Noted (.disk, i) a.2 a'.2 :=
    fun a i a' done => ⟨initEmulatedDisk_probes done, initEmulatedDisk_notes done⟩
  refine rounds_marked .disk probes _ (List.nodup_finRange maxDevices) ?_ ?_ rounds
  · exact kept
  · exact fun i _ => unset i

theorem mountDevices_marked {s s' : System} {stack : Nat → Byte} (marked : Marked s)
    (done : mountDevices s stack = some s') : Marked s' := by
  obtain ⟨fat, -, rest⟩ := Option.bind_eq_some_iff.mp done
  obtain ⟨t, tapes, disks⟩ := Option.bind_eq_some_iff.mp rest
  have mounted : Marked { s with fat := fat } := marked
  exact initEmulatedDisks_marked (initEmulatedTapes_marked mounted tapes) disks

theorem init_marked {b : Boot} {sdOk : Bool} {start : System}
    (init : initSystem b sdOk = some start) : Marked start := by
  have printers := (init_quiescent init).2
  obtain ⟨s, mounted, rfl⟩ := Option.map_eq_some_iff.mp init
  have boot : Marked b.start := by
    intro dev set
    simp [Installed, Boot.start] at set
  have devices : Marked s := by
    cases sdOk with
    | false =>
      cases mounted
      exact boot
    | true => exact mountDevices_marked boot mounted
  intro dev set
  by_cases isPrinter : dev.1 = .printer
  · obtain ⟨c, i⟩ := dev
    cases isPrinter
    rw [printers i]
    decide
  · have port : (initEmulatedPrinters s).ports dev = s.ports dev :=
      initEmulatedPrinter_others _ _ isPrinter
    have same : (initTimers (initEmulatedPrinters s)).ports dev = s.ports dev := port
    have line : dev.1.line ≠ DeviceClass.printer.line := fun same => isPrinter (line_inj same)
    rw [System.regs, same]
    apply devices
    unfold Installed initTimers initEmulatedPrinters at set
    dsimp only at set
    rw [Function.update_of_ne (line_not_timer dev.1), initEmulatedPrinter_installed] at set
    dsimp only at set
    rw [Function.update_of_ne line] at set
    exact set

/-! What every action keeps. -/

theorem marked_step {s : System} (marked : Marked s) (a : Act) : Marked (step s a) := by
  intro dev set
  apply installed_step
  apply marked
  unfold Installed at *
  rw [step_installed] at set
  exact set

theorem reachable_marked {s : System} (reachable : Reachable s) : Marked s := by
  obtain ⟨b, sdOk, start, as, init, rfl⟩ := reachable
  exact @run_invariant _ _ step Marked (fun s a marked => marked_step marked a) as start
    (init_marked init)

structure Frozen (dev : Dev) (s s' : System) : Prop extends SameUnit dev s s' where
  status : (s'.regs dev).status = (s.regs dev).status
  command : (s'.regs dev).command = (s.regs dev).command

theorem frozen_trans {dev : Dev} {s s' s'' : System} (first : Frozen dev s s')
    (second : Frozen dev s' s'') : Frozen dev s s'' := by
  refine ⟨⟨?_, ?_⟩, second.status.trans first.status, second.command.trans first.command⟩
  · exact fun i same => (second.tape i same).trans (first.tape i same)
  · exact fun i same => (second.disk i same).trans (first.disk i same)

theorem frozen_step {s : System} {dev : Dev} (other : dev.1 ≠ .printer)
    (absent : (s.regs dev).status = deviceNotInstalled) (a : Act) : Frozen dev s (step s a) := by
  by_cases concerns : Concerns s a dev
  · rcases concerns with ⟨block, r, rfl, given⟩ | ⟨⟨next, rfl⟩, expires⟩
    · have filled : (({ s with ram := storeReg s.ram block r } : System).regs dev).status =
          deviceNotInstalled := absent
      rw [step, absent_answers other filled given]
      refine ⟨⟨fun i _ => rfl, fun i _ => rfl⟩, ?_, ?_⟩
      · simp [System.regs]
      · simp [System.regs]
    · obtain ⟨q, run⟩ := expire_own expires next
      have idle : ¬ Busy { s with queue := q } dev := fun busy => busy_installed busy absent
      rw [step, run, manage_idle idle]
      exact ⟨⟨fun i _ => rfl, fun i _ => rfl⟩, rfl, rfl⟩
  · have port := (step_untouched concerns).port
    refine ⟨step_sameUnit concerns, ?_, ?_⟩
    · rw [System.regs, port]
      rfl
    · rw [System.regs, port]
      rfl

theorem frozen_run {s : System} {dev : Dev} (other : dev.1 ≠ .printer)
    (absent : (s.regs dev).status = deviceNotInstalled) (as : List Act) :
    Frozen dev s (run step s as) := by
  induction as generalizing s with
  | nil => exact ⟨⟨fun i _ => rfl, fun i _ => rfl⟩, rfl, rfl⟩
  | cons a as ih =>
    have here := frozen_step other absent a
    exact frozen_trans here (ih (here.status.trans absent))

/-! The lines. -/

theorem bit_only {i : Fin maxDevices} {j : Nat} (set : (bit i).getLsbD j = true) : j = i := by
  have inside : j < 8 := BitVec.lt_of_getLsbD set
  have here : ∀ (i : Fin maxDevices) (j : Fin 8), (bit i).getLsbD j = true → j.val = i.val := by
    decide
  exact here i ⟨j, inside⟩ set

theorem bit_unset {i : Fin maxDevices} {j : Nat} (apart : j ≠ i) : (bit i).getLsbD j = false := by
  by_contra set
  exact apart (bit_only (Bool.eq_true_of_not_eq_false set))

theorem within_raise {s t : System} {line : Fin ilLines} {i : Fin maxDevices} (within : Within s)
    (there : (s.installed line).getLsbD i = true)
    (lines : t.lines = (s.raiseLine line i).lines) (installed : t.installed = s.installed) :
    Within t := by
  intro other j up
  rw [installed]
  rw [lines] at up
  unfold System.raiseLine at up
  dsimp only at up
  by_cases same : other = line
  · subst same
    rw [Function.update_self, BitVec.getLsbD_or, Bool.or_eq_true] at up
    rcases up with before | raised
    · exact within other j before
    · rw [bit_only raised]
      exact there
  · rw [Function.update_of_ne same] at up
    exact within other j up

theorem within_clear {s t : System} {line : Fin ilLines} {i : Fin maxDevices} (within : Within s)
    (lines : t.lines = (s.clearLine line i).lines) (installed : t.installed = s.installed) :
    Within t := by
  intro other j up
  rw [installed]
  rw [lines] at up
  unfold System.clearLine at up
  dsimp only at up
  by_cases same : other = line
  · subst same
    rw [Function.update_self, BitVec.getLsbD_and, Bool.and_eq_true] at up
    exact within other j up.1
  · rw [Function.update_of_ne same] at up
    exact within other j up

theorem within_clean (s : System) {t : System} (lines : t.lines = (cleanInterruptLines s).lines)
    (installed : t.installed = s.installed) : Within t := by
  intro line j up
  rw [installed]
  rw [lines] at up
  unfold cleanInterruptLines at up
  dsimp only at up
  rw [BitVec.getLsbD_and, Bool.and_eq_true] at up
  exact up.2

theorem clean_within {s : System} (within : Within s) : cleanInterruptLines s = s := by
  have same : (fun line => s.lines line &&& s.installed line) = s.lines := by
    funext line
    apply BitVec.eq_of_getLsbD_eq
    intro j _
    rw [BitVec.getLsbD_and]
    cases up : (s.lines line).getLsbD j with
    | false => rfl
    | true => rw [within line j up, Bool.and_self]
  unfold cleanInterruptLines
  rw [same]

theorem within_mailbox {s : System} (within : Within s) (backed : Backed s) (dev : Dev)
    (registers : BitVec 64) : Within (mailbox s dev registers) := by
  have own := mailbox_own s dev registers
  rcases own.lines with same | ⟨⟨_, _, there⟩, raised⟩ | ⟨_, cleared⟩
  · unfold Within
    rw [same, own.installed]
    exact within
  · exact within_raise within (backed dev there) raised own.installed
  · exact within_clear within cleared own.installed

theorem within_manage {s : System} (within : Within s) (backed : Backed s) (dev : Dev) :
    Within (manage s dev) := by
  rcases manage_cases s dev with same | ⟨busy, delayed, -⟩
  · rw [same]
    exact within
  · have raises := manage_raises busy delayed
    exact within_raise within (backed dev (busy_installed busy)) raises.lines raises.installed

theorem within_step {s : System} (within : Within s) (backed : Backed s) (a : Act) :
    Within (step s a) := by
  cases a with
  | request dev block r => exact @within_mailbox { s with ram := storeReg s.ram block r } within backed dev block
  | expire next =>
    rcases expire_cases s next with ⟨same, _⟩ | ⟨r, q, _, _, run⟩
    · rw [step, same]
      exact within
    · rw [step, run]
      unfold manageTimer
      cases owner r with
      | none => exact within
      | some dev => exact @within_manage { s with queue := q } within backed dev
  | rearm res next =>
    obtain ⟨installed, lines⟩ := rearm_lines s (getTOD s.clock) res next
    unfold Within
    rw [step, installed, lines]
    exact within
  | clean => exact within_clean s rfl rfl
  | irq core source =>
    obtain ⟨installed, lines | lines⟩ := cIrqHandler_lines s core source
    · exact within_clean s lines installed
    · exact within_clean (s.raiseLine ilTimer core) lines installed
  | timer core microseconds =>
    obtain ⟨installed, lines⟩ := setTIMER_lines s core microseconds
    exact within_clear within lines installed
  | tick count => exact within
  | write ram mask => exact within

theorem initEmulatedTape_spares {s : System} {fileid : Nat → Byte} {i : Fin maxDevices}
    {r : (Nat → Byte) × System} (done : initEmulatedTape s fileid i = some r) :
    r.2.lines = s.lines ∧ r.2.printers = s.printers := by
  unfold initEmulatedTape at done
  generalize Fat.fatGetcluster s.fat (tapeName i) = looked at done
  obtain ⟨cluster, -, rfl⟩ := Option.map_eq_some_iff.mp done
  dsimp only
  split_ifs
  · exact ⟨rfl, rfl⟩
  · exact ⟨rfl, rfl⟩
  · exact ⟨rfl, rfl⟩

theorem initEmulatedDisk_spares {s : System} {header : Nat → Byte} {i : Fin maxDevices}
    {r : (Nat → Byte) × System} (done : initEmulatedDisk s header i = some r) :
    r.2.lines = s.lines ∧ r.2.printers = s.printers := by
  unfold initEmulatedDisk at done
  generalize Fat.fatGetcluster s.fat (diskName i) = looked at done
  obtain ⟨cluster, -, rfl⟩ := Option.map_eq_some_iff.mp done
  dsimp only
  split_ifs
  · exact ⟨rfl, rfl⟩
  · exact ⟨rfl, rfl⟩
  · exact ⟨rfl, rfl⟩

theorem init_within {b : Boot} {sdOk : Bool} {start : System}
    (init : initSystem b sdOk = some start) : Within start := by
  have down : start.lines = fun _ => 0 := by
    apply init_invariant init fun s => s.lines = fun _ => 0
    · rfl
    · exact fun s fat same => same
    · exact fun s installed same => same
    · exact fun s fileid i r same done => (initEmulatedTape_spares done).1.trans same
    · exact fun s header i r same done => (initEmulatedDisk_spares done).1.trans same
    · exact fun s i same => same
    · exact fun s same => same
  intro line j up
  rw [down] at up
  simp at up

theorem reachable_within {s : System} (reachable : Reachable s) : Within s := by
  obtain ⟨b, sdOk, start, as, init, rfl⟩ := reachable
  have kept : Within (run step start as) ∧ Reachable (run step start as) := by
    apply @run_invariant _ _ step fun s => Within s ∧ Reachable s
    · intro s a ⟨within, reachable⟩
      exact ⟨within_step within (reachable_backed reachable) a, reachable_run reachable [a]⟩
    · exact ⟨init_within init, b, sdOk, start, [], init, rfl⟩
  exact kept.1

theorem reachable_cores {s : System} (reachable : Reachable s) (core : Fin 4) :
    (s.installed ilTimer).getLsbD core = true := by
  obtain ⟨b, sdOk, start, as, init, rfl⟩ := reachable
  rw [run_installed]
  obtain ⟨s, -, rfl⟩ := Option.map_eq_some_iff.mp init
  unfold initTimers
  dsimp only
  rw [Function.update_self]
  revert core
  decide

theorem irq_drops_nothing {s : System} (reachable : Reachable s) (core : Fin 4)
    (source : BitVec 32) : (cIrqHandler s core source).lines = s.lines ∨
      (cIrqHandler s core source).lines = (s.raiseLine ilTimer core).lines := by
  have within := reachable_within reachable
  have raised : Within (s.raiseLine ilTimer core) :=
    within_raise within (reachable_cores reachable core) rfl rfl
  obtain ⟨-, lines | lines⟩ := cIrqHandler_lines s core source
  · left
    rw [lines, clean_within within]
  · right
    rw [lines, clean_within raised]

/-- `c_fiq_handler` up to its last call. -/
def fiqUncleaned (s : System) (source data : BitVec 32) (count : Nat) : System :=
  let t := if source &&& 0x10 ≠ 0 then fiqMailbox s data else s
  if source &&& 0x08 ≠ 0 then fiqTimer (t.tick count) else t

theorem fiq_drops_nothing {s : System} (reachable : Reachable s) (source data : BitVec 32)
    (count : Nat) : cFiqHandler s source data count = fiqUncleaned s source data count := by
  have served : Reachable (if source &&& 0x10 ≠ 0 then fiqMailbox s data else s) := by
    split_ifs
    · obtain ⟨as, run⟩ := fiqMailbox_run s data
      rw [run]
      exact reachable_run reachable as
    · exact reachable
  unfold cFiqHandler fiqUncleaned
  generalize (if source &&& 0x10 ≠ 0 then fiqMailbox s data else s) = t at served ⊢
  apply clean_within
  split_ifs
  · obtain ⟨as, -, run⟩ := fiqTimer_run (t.tick count)
    rw [run]
    exact reachable_within (reachable_run (reachable_run served [.tick count]) as)
  · exact reachable_within served

/-- In every reachable state the statuses agree with the table, a missing device stays as it is,
    every line is within the table, and cleaning the lines changes nothing. -/
theorem lines_of_installed {s : System} (reachable : Reachable s) :
    (∀ dev, (s.regs dev).status = deviceNotInstalled ↔ ¬ Installed s dev) ∧
      (∀ dev as, (s.regs dev).status = deviceNotInstalled → Frozen dev s (run step s as)) ∧
      Within s ∧ cleanInterruptLines s = s ∧
      (∀ source data count, cFiqHandler s source data count = fiqUncleaned s source data count) ∧
      ∀ core source, (cIrqHandler s core source).lines = s.lines ∨
        (cIrqHandler s core source).lines = (s.raiseLine ilTimer core).lines := by
  have marked := reachable_marked reachable
  have backed := reachable_backed reachable
  have within := reachable_within reachable
  have missing : ∀ dev, (s.regs dev).status = deviceNotInstalled ↔ ¬ Installed s dev := by
    intro dev
    constructor
    · exact fun absent set => marked dev set absent
    · intro unset
      by_contra there
      exact unset (backed dev there)
  refine ⟨missing, ?_, within, clean_within within, fiq_drops_nothing reachable, ?_⟩
  · intro dev as absent
    apply frozen_run _ absent
    intro isPrinter
    obtain ⟨c, i⟩ := dev
    cases isPrinter
    exact (missing (.printer, i)).mp absent ((reachable_present reachable).2 i)
  · exact fun core source => irq_drops_nothing reachable core source

/-- Without a card only the printers are there. -/
theorem lines_of_installed_bare :
    ((bareSystem.regs (.tape, 0)).status = deviceNotInstalled ↔ ¬ Installed bareSystem (.tape, 0)) ∧
      cleanInterruptLines bareSystem = bareSystem := by
  obtain ⟨missing, -, -, clean, -⟩ :=
    lines_of_installed ⟨bareBoot, false, bareSystem, [], bare_init, rfl⟩
  exact ⟨missing (.tape, 0), clean⟩

end Emulated
