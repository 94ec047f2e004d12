import MaldOS.Emulated.Lines

/-!
Completions are announced. Devices that take commands have their bit in
`DEVICE_INSTALLED`, so the line that a completion raises stays up.
-/
namespace Emulated
open Arch ByteMemory Registers ArmTimers EmulatedTimers Runs

def Backed (s : System) : Prop :=
  ∀ dev, (s.regs dev).status ≠ deviceNotInstalled → Installed s dev

structure Probed (dev : Dev) (s s' : System) : Prop where
  ports : ∀ other, other ≠ dev → s'.ports other = s.ports other
  bits : ∀ other, Installed s other → Installed s' other
  own : (s'.regs dev).status = deviceNotInstalled ∨ Installed s' dev

theorem backed_probed {dev : Dev} {s s' : System} (backed : Backed s) (probed : Probed dev s s') :
    Backed s' := by
  intro other there
  by_cases same : other = dev
  · subst same
    exact probed.own.resolve_left there
  · apply probed.bits
    apply backed
    rw [System.regs, probed.ports other same] at there
    exact there

theorem installed_install {s : System} {dev : Dev} (line : Fin ilLines) (i : Fin maxDevices)
    (there : Installed s dev) : Installed (s.install line i) dev := by
  unfold Installed System.install at *
  by_cases same : dev.1.line = line
  · subst same
    simp [there]
  · simp [same, there]

theorem installed_here (s : System) (dev : Dev) : Installed (s.install dev.1.line dev.2) dev := by
  simp [Installed, System.install, bit_get]

section
variable {dev : Dev} {s t : System} (f : DevReg → DevReg)

theorem probed_absent (ports : t.ports = s.ports) (installed : t.installed = s.installed)
    (absent : ∀ r, (f r).status = deviceNotInstalled) : Probed dev s (t.setRegs dev f) := by
  constructor
  · intro other apart
    rw [(quiet_setRegs dev t f).ports other apart, ports]
  · intro other there
    unfold Installed at *
    rw [← installed] at there
    exact there
  · left
    simp [System.regs, absent]

theorem probed_there (ports : t.ports = s.ports)
    (installed : t.installed = (s.install dev.1.line dev.2).installed) :
    Probed dev s (t.setRegs dev f) := by
  constructor
  · intro other apart
    rw [(quiet_setRegs dev t f).ports other apart, ports]
  · intro other there
    have kept := installed_install dev.1.line dev.2 there
    unfold Installed at *
    rw [← installed] at kept
    exact kept
  · right
    have here := installed_here s dev
    unfold Installed at *
    rw [← installed] at here
    exact here

theorem probed_command (probed : Probed dev s t) (command : BitVec 32) :
    Probed dev s (t.setRegs dev fun r => { r with command := command }) := by
  constructor
  · intro other apart
    rw [(quiet_setRegs dev t _).ports other apart, probed.ports other apart]
  · exact probed.bits
  · rcases probed.own with absent | there
    · left
      simp only [System.regs, setRegs_ports]
      exact absent
    · exact Or.inr there

end

theorem initEmulatedTape_probes {s : System} {fileid : Nat → Byte} {i : Fin maxDevices}
    {r : (Nat → Byte) × System} (done : initEmulatedTape s fileid i = some r) :
    Probed (.tape, i) s r.2 := by
  unfold initEmulatedTape at done
  generalize Fat.fatGetcluster s.fat (tapeName i) = looked at done
  obtain ⟨cluster, -, rfl⟩ := Option.map_eq_some_iff.mp done
  dsimp only
  split_ifs
  · apply probed_command
    dsimp only
    exact probed_absent _ rfl rfl fun _ => rfl
  · apply probed_command
    dsimp only
    exact probed_there _ rfl rfl
  · apply probed_command
    dsimp only
    exact probed_absent _ rfl rfl fun _ => rfl

theorem initEmulatedDisk_probes {s : System} {header : Nat → Byte} {i : Fin maxDevices}
    {r : (Nat → Byte) × System} (done : initEmulatedDisk s header i = some r) :
    Probed (.disk, i) s r.2 := by
  unfold initEmulatedDisk at done
  generalize Fat.fatGetcluster s.fat (diskName i) = looked at done
  obtain ⟨cluster, -, rfl⟩ := Option.map_eq_some_iff.mp done
  dsimp only
  split_ifs
  · apply probed_command
    dsimp only
    exact probed_absent _ rfl rfl fun _ => rfl
  · apply probed_command
    dsimp only
    exact probed_there _ rfl rfl
  · apply probed_command
    dsimp only
    exact probed_absent _ rfl rfl fun _ => rfl

theorem initEmulatedTapes_backed {s s' : System} {stack : Nat → Byte} (backed : Backed s)
    (absent : ∀ i, (s.regs (.tape, i)).status = deviceNotInstalled ∧
      (s.regs (.disk, i)).status = deviceNotInstalled)
    (done : initEmulatedTapes s stack = some s') :
    Backed s' ∧ ∀ i, (s'.regs (.disk, i)).status = deviceNotInstalled := by
  obtain ⟨r, rounds, rfl⟩ := Option.map_eq_some_iff.mp done
  refine foldlM_invariant (fun a => Backed a.2 ∧
    ∀ i, (a.2.regs (.disk, i)).status = deviceNotInstalled) ?_ _ ⟨?_, ?_⟩ rounds
  · intro a i a' ⟨kept, gone⟩ round
    have probed := initEmulatedTape_probes round
    refine ⟨backed_probed kept probed, ?_⟩
    intro j
    rw [System.regs, probed.ports (.disk, j) (by simp)]
    exact gone j
  · intro dev there
    have other : dev.1 ≠ .tape := by
      intro isTape
      obtain ⟨c, i⟩ := dev
      cases isTape
      exact there (absent i).1
    have line : dev.1.line ≠ DeviceClass.tape.line := fun same => other (line_inj same)
    have kept := backed dev there
    unfold Installed at *
    dsimp only
    rw [Function.update_of_ne line]
    exact kept
  · exact fun i => (absent i).2

theorem initEmulatedDisks_backed {s s' : System} {stack : Nat → Byte} (backed : Backed s)
    (absent : ∀ i, (s.regs (.disk, i)).status = deviceNotInstalled)
    (done : initEmulatedDisks s stack = some s') : Backed s' := by
  obtain ⟨r, rounds, rfl⟩ := Option.map_eq_some_iff.mp done
  refine foldlM_invariant (fun a => Backed a.2) ?_ _ ?_ rounds
  · intro a i a' kept round
    exact backed_probed kept (initEmulatedDisk_probes round)
  · intro dev there
    have other : dev.1 ≠ .disk := by
      intro isDisk
      obtain ⟨c, i⟩ := dev
      cases isDisk
      exact there (absent i)
    have line : dev.1.line ≠ DeviceClass.disk.line := fun same => other (line_inj same)
    have kept := backed dev there
    unfold Installed at *
    dsimp only
    rw [Function.update_of_ne line]
    exact kept

theorem mountDevices_backed {s s' : System} {stack : Nat → Byte}
    (absent : ∀ dev, (s.regs dev).status = deviceNotInstalled)
    (done : mountDevices s stack = some s') : Backed s' := by
  obtain ⟨fat, -, rest⟩ := Option.bind_eq_some_iff.mp done
  obtain ⟨t, tapes, disks⟩ := Option.bind_eq_some_iff.mp rest
  have backed : Backed { s with fat := fat } := fun dev there => absurd (absent dev) there
  obtain ⟨kept, gone⟩ := initEmulatedTapes_backed backed
    (fun i => ⟨absent (.tape, i), absent (.disk, i)⟩) tapes
  exact initEmulatedDisks_backed kept gone disks

theorem initEmulatedPrinter_installed (is : List (Fin maxDevices)) (s : System) :
    (is.foldl initEmulatedPrinter s).installed = s.installed := by
  induction is generalizing s with
  | nil => rfl
  | cons i is ih => exact ih (initEmulatedPrinter s i)

theorem initEmulatedPrinter_others (is : List (Fin maxDevices)) (s : System) {dev : Dev}
    (other : dev.1 ≠ .printer) : (is.foldl initEmulatedPrinter s).ports dev = s.ports dev := by
  induction is generalizing s with
  | nil => rfl
  | cons i is ih =>
    have apart : dev ≠ (.printer, i) := by
      rintro rfl
      exact other rfl
    exact (ih (initEmulatedPrinter s i)).trans ((quiet_setRegs (.printer, i) s _).ports dev apart)

theorem initEmulatedPrinters_backed {s : System} (backed : Backed s) :
    Backed (initEmulatedPrinters s) ∧ ∀ i, Installed (initEmulatedPrinters s) (.printer, i) := by
  have printers : ∀ i, Installed (initEmulatedPrinters s) (.printer, i) := by
    intro i
    unfold Installed initEmulatedPrinters
    rw [initEmulatedPrinter_installed]
    dsimp only
    rw [Function.update_self]
    revert i
    decide
  refine ⟨?_, printers⟩
  intro dev there
  by_cases isPrinter : dev.1 = .printer
  · obtain ⟨c, i⟩ := dev
    cases isPrinter
    exact printers i
  · have port : (initEmulatedPrinters s).ports dev = s.ports dev :=
      initEmulatedPrinter_others _ _ isPrinter
    have line : dev.1.line ≠ DeviceClass.printer.line := fun same => isPrinter (line_inj same)
    rw [System.regs, port] at there
    have kept := backed dev there
    unfold Installed initEmulatedPrinters at *
    rw [initEmulatedPrinter_installed]
    dsimp only
    rw [Function.update_of_ne line]
    exact kept

theorem installed_initTimers {s : System} {dev : Dev} (there : Installed s dev) :
    Installed (initTimers s) dev := by
  unfold Installed initTimers at *
  dsimp only
  rw [Function.update_of_ne (line_not_timer dev.1)]
  exact there

theorem init_backed {b : Boot} {sdOk : Bool} {start : System}
    (init : initSystem b sdOk = some start) :
    Backed start ∧ ∀ i, Installed start (.printer, i) := by
  obtain ⟨s, mounted, rfl⟩ := Option.map_eq_some_iff.mp init
  have backed : Backed s := by
    cases sdOk with
    | false =>
      cases mounted
      exact fun dev there => absurd rfl there
    | true => exact mountDevices_backed (fun dev => rfl) mounted
  obtain ⟨kept, printers⟩ := initEmulatedPrinters_backed backed
  constructor
  · exact fun dev there => installed_initTimers (kept dev there)
  · exact fun i => installed_initTimers (printers i)

theorem backed_step {s : System} (kept : Backed s ∧ ∀ i, Installed s (.printer, i)) (a : Act) :
    Backed (step s a) ∧ ∀ i, Installed (step s a) (.printer, i) := by
  obtain ⟨backed, printers⟩ := kept
  unfold Backed Installed at *
  rw [step_installed]
  refine ⟨?_, printers⟩
  intro dev there
  by_cases isPrinter : dev.1 = .printer
  · obtain ⟨c, i⟩ := dev
    cases isPrinter
    exact printers i
  · exact backed dev fun absent => there (absent_stays isPrinter absent a)

theorem reachable_present {s : System} (reachable : Reachable s) :
    Backed s ∧ ∀ i, Installed s (.printer, i) := by
  obtain ⟨b, sdOk, start, as, init, rfl⟩ := reachable
  exact @run_invariant _ _ step (fun s => Backed s ∧ ∀ i, Installed s (.printer, i))
    (fun s a kept => backed_step kept a) as start (init_backed init)

theorem reachable_backed {s : System} (reachable : Reachable s) : Backed s :=
  (reachable_present reachable).1

/-! A command from its acceptance to the expiry of its timer. -/

theorem busy_unchanged {s : System} {dev : Dev} {a : Act} (flight : InFlight dev s)
    (still : Busy (step s a) dev) : Unchanged dev s (step s a) := by
  by_cases concerns : Concerns s a dev
  · rcases concerns with ⟨block, r, rfl, given⟩ | ⟨⟨next, rfl⟩, expires⟩
    · rcases request_busy flight.busy given r with ⟨same, _⟩ | ⟨idle, _⟩
      · exact same
      · exact absurd still idle
    · exact absurd still (expire_idle expires next fun _ => flight.delayed)
  · exact untouched_unchanged (step_untouched concerns)

/-- As long as the device stays busy, the command and the block are those of the request. -/
theorem busy_run {dev : Dev} (as : List Act) {s : System} (flight : InFlight dev s)
    (flies : Along step (fun s _ => Busy s dev) s as) (still : Busy (run step s as) dev) :
    InFlight dev (run step s as) ∧ (run step s as).block dev = s.block dev := by
  induction as generalizing s with
  | nil => exact ⟨flight, rfl⟩
  | cons a as ih =>
    have next : Busy (step s a) dev := by
      cases as with
      | nil => exact still
      | cons b bs => exact flies.2.1
    have same := busy_unchanged flight next
    obtain ⟨later, block⟩ := ih (inFlight_unchanged flight same) flies.2 still
    exact ⟨later, block.trans same.block⟩

theorem request_accepted {s : System} {dev : Dev} (idle : ¬ Busy s dev) {block : BitVec 64}
    {r : DevReg} (busy : Busy (step s (.request dev block r)) dev) :
    (step s (.request dev block r)).block dev = block := by
  have idle' : ¬ Busy { s with ram := storeReg s.ram block r } dev := idle
  by_cases given : block = 0
  · rw [step, given, mailbox_null] at busy
    exact absurd busy idle
  · have run : step s (.request dev block r) =
        mailbox { s with ram := storeReg s.ram block r } dev block := rfl
    rw [run] at busy ⊢
    cases mailbox_verdict { s with ram := storeReg s.ram block r } dev given with
    | silent quiet same => exact absurd ((unchanged_busy same).mp busy) idle'
    | kept quiet same => exact absurd ((unchanged_busy same).mp busy) idle'
    | settled quiet idle => exact absurd busy idle
    | started serves _ _ delayed target => exact target

/-- The expiry that takes a device out of its command is that of its own timer. -/
theorem expiry_own {s : System} {dev : Dev} {next : Timer} (busy : Busy s dev)
    (idle : ¬ Busy (step s (.expire next)) dev) : Ends dev s (.expire next) := by
  refine ⟨⟨next, rfl⟩, ?_⟩
  by_contra waits
  exact idle ((untouched_busy (expire_untouched waits next)).mpr busy)

theorem run_installed (as : List Act) (s : System) : (run step s as).installed = s.installed := by
  induction as generalizing s with
  | nil => rfl
  | cons a as ih => exact (ih (step s a)).trans (step_installed s a)

theorem lineUp_run {dev : Dev} (as : List Act) {s : System} (up : LineUp s dev)
    (installed : Installed s dev) (spared : ∀ a ∈ as, ¬ ClosesDevice dev a) :
    LineUp (run step s as) dev := by
  induction as generalizing s with
  | nil => exact up
  | cons a as ih =>
    apply ih (lineUp_step up installed (spared a (by simp)))
    · unfold Installed
      rw [step_installed]
      exact installed
    · exact fun b member => spared b (by simp [member])

def FiqCloses (dev : Dev) (s : System) (source data : BitVec 32) : Prop :=
  source &&& 0x10 ≠ 0 ∧ ∃ c, messageClass data = some c ∧ (c, messageNum data) = dev ∧
    Closes c (loadReg s.ram (messageAddress data)).command

theorem fiq_keeps_line {s : System} {dev : Dev} (up : LineUp s dev) (installed : Installed s dev)
    (source data : BitVec 32) (count : Nat) (spared : ¬ FiqCloses dev s source data) :
    LineUp (cFiqHandler s source data count) dev := by
  obtain ⟨t, first⟩ : ∃ t, t = if source &&& 0x10 ≠ 0 then fiqMailbox s data else s := ⟨_, rfl⟩
  have served : LineUp t dev ∧ Installed t dev := by
    rw [first]
    split_ifs with isMessage
    · unfold fiqMailbox
      cases sent : messageClass data with
      | none => exact ⟨up, installed⟩
      | some c =>
        have own := mailbox_own s (c, messageNum data) (messageAddress data)
        refine ⟨lineUp_own own (fun same => ?_) up, ?_⟩
        · exact fun closes => spared ⟨isMessage, c, sent, same.symm, closes⟩
        · unfold Installed
          rw [own.installed]
          exact installed
    · exact ⟨up, installed⟩
  obtain ⟨up', installed'⟩ := served
  obtain ⟨as, drains, run⟩ := fiqTimer_run (t.tick count)
  have gentle : ∀ a ∈ as, ¬ ClosesDevice dev a := by
    rintro a member ⟨block, r, rfl, _⟩
    exact drains _ member
  have drained : LineUp (fiqTimer (t.tick count)) dev ∧ Installed (fiqTimer (t.tick count)) dev := by
    rw [run]
    refine ⟨@lineUp_run dev as (t.tick count) up' installed' gentle, ?_⟩
    unfold Installed
    rw [run_installed]
    exact installed'
  unfold cFiqHandler
  rw [← first]
  dsimp only
  split_ifs
  · exact lineUp_clean drained.1 drained.2
  · exact lineUp_clean up' installed'

/-- The completion as the kernel and the client see it. -/
structure Announced (dev : Dev) (block : BitVec 64) (s : System) : Prop where
  raised : LineUp s dev
  told : loadReg s.ram block = s.regs dev
  stays : ∀ as, (∀ a ∈ as, ¬ ClosesDevice dev a) → LineUp (run step s as) dev
  served : ∀ as, (∀ a ∈ as, ¬ ClosesDevice dev a) → ∀ source data count,
    ¬ FiqCloses dev (run step s as) source data →
      LineUp (cFiqHandler (run step s as) source data count) dev

/-- Whenever the expiry of an accepted command takes its device out of `DEVICE_BUSY`, the line is
    up, the block of the request holds the final registers, and nothing takes the line down
    before the device is acknowledged or reset. -/
theorem completion_announced {s : System} (reachable : Reachable s) {dev : Dev}
    (idle : ¬ Busy s dev) (block : BitVec 64) (r : DevReg) (as : List Act) (next : Timer)
    (flies : Along step (fun s _ => Busy s dev) (step s (.request dev block r))
      (as ++ [.expire next]))
    (ended : ¬ Busy (run step (step s (.request dev block r)) (as ++ [.expire next])) dev) :
    Announced dev block (run step (step s (.request dev block r)) (as ++ [.expire next])) := by
  have accepted : Busy (step s (.request dev block r)) dev := by
    cases as with
    | nil => exact flies.1
    | cons a as => exact flies.1
  have target := request_accepted idle accepted
  have reached : Reachable (step s (.request dev block r)) :=
    reachable_run reachable [.request dev block r]
  have flight := reachable_inFlight reached accepted
  generalize step s (.request dev block r) = s₁ at flies ended accepted target reached flight ⊢
  obtain ⟨flying, still, -⟩ := (along_append step _ s₁ as [.expire next]).mp flies
  obtain ⟨landing, kept⟩ := busy_run as flight flying still
  have backed := reachable_backed (reachable_run reached as) dev (busy_installed still)
  rw [run_append] at ended ⊢
  rw [target] at kept
  generalize run step s₁ as = t at still landing kept backed ended ⊢
  have expires := expiry_own still ended
  obtain ⟨q, run⟩ := expire_own expires.2 next
  have landing' : InFlight dev { t with queue := q } := ⟨still, landing.delayed⟩
  have completed := manage_completes landing'.busy landing'.delayed
  have raises := manage_raises landing'.busy landing'.delayed
  have after : Runs.run step t [.expire next] = manage { t with queue := q } dev := run
  rw [after]
  have raised : LineUp (manage { t with queue := q } dev) dev := by
    unfold LineUp
    rw [raises.lines]
    exact lineUp_raised _ dev
  have told : loadReg (manage { t with queue := q } dev).ram block =
      (manage { t with queue := q } dev).regs dev := by
    rw [← kept]
    exact completed.copied
  have installed : Installed (manage { t with queue := q } dev) dev := by
    unfold Installed
    rw [raises.installed]
    exact backed
  refine ⟨raised, told, fun bs spared => lineUp_run bs raised installed spared, ?_⟩
  intro bs spared source data count gentle
  apply fiq_keeps_line (lineUp_run bs raised installed spared) _ source data count gentle
  unfold Installed
  rw [run_installed]
  exact installed

/-- A character that printer 0 is sent, up to the completion. -/
theorem completion_announced_printA :
    Announced (.printer, 0) 0x10000
      (run step (step bareSystem printA) ([.tick 400] ++ [.expire noTimer])) := by
  have reachable : Reachable bareSystem := ⟨bareBoot, false, bareSystem, [], bare_init, rfl⟩
  apply completion_announced reachable
  · decide +kernel
  · refine ⟨?_, ?_, trivial⟩
    · decide +kernel
    · decide +kernel
  · decide +kernel

end Emulated
