import MaldOS.Emulated.Divisions
import MaldOS.Emulated.Installed
import MaldOS.Emulated.TapeOrder

/-!
The headers that `init_emulated_tapes` and `init_emulated_disks` look at. All
files of a class are read into one buffer, and nobody asks how much was read.
-/
namespace Emulated
open Arch ByteMemory Registers ArmTimers EmulatedTimers Runs Slices

/-- One of the two init functions: its test of a header, and what it keeps of one. -/
structure Prober where
  device : DeviceClass
  round : Round
  name : Fin maxDevices → List Byte
  length : Nat
  passes : (Nat → Byte) → Prop
  stored : System → Fin maxDevices → (Nat → Byte) → Prop

def diskInfo (header : Nat → Byte) (k : Nat) : Nat := Fat.word 4 header (4 * (k + 1))

structure OwnGeometry (d : Disk) (header : Nat → Byte) : Prop where
  cylinders : d.cylinders = diskInfo header 0
  heads : d.heads = diskInfo header 1
  sectors : d.sectors = diskInfo header 2
  rpm : d.rpm = diskInfo header 3
  seektime : d.seektime = diskInfo header 4
  dataoccupation : d.dataoccupation = diskInfo header 5

def tapeProber : Prober where
  device := .tape
  round := initEmulatedTape
  name := tapeName
  length := 4
  passes header := BitVec.ofNat 32 (Fat.word 4 header 0) = tapefileid
  stored _ _ _ := True

def diskProber : Prober where
  device := .disk
  round := initEmulatedDisk
  name := diskName
  length := 8 * 4
  passes header := BitVec.ofNat 32 (Fat.word 4 header 0) = diskfileid ∧
    diskInfo header 0 ≤ maxCylinders ∧ diskInfo header 1 ≤ maxHeads ∧ diskInfo header 2 ≤ maxSectors
  stored s i header := OwnGeometry (s.disks i) header

/-- The first cluster of a file; 0 if there is no such file. -/
def clusterOf (s : System) (fn : List Byte) : Nat := (Fat.fatGetcluster s.fat fn).1.getD 0

def HeaderRead (s : System) (fn : List Byte) : Prop :=
  Fat.Opens (Fat.fatGetcluster s.fat fn).2 (clusterOf s fn)

instance (s : System) (fn : List Byte) : Decidable (HeaderRead s fn) :=
  inferInstanceAs (Decidable (Fat.Opens _ _))

def ownHeader (s : System) (fn : List Byte) : Nat → Byte :=
  Fat.firstSector (Fat.fatGetcluster s.fat fn).2 (clusterOf s fn)

def ReadyAt (s : System) (dev : Dev) : Prop := (s.regs dev).status = deviceReady ∧ Installed s dev

/-- The buffer and the machine before round `k`. -/
def Prober.before (p : Prober) (r : (Nat → Byte) × System) (k : Nat) : (Nat → Byte) × System :=
  (((List.finRange maxDevices).take k).foldlM (fun r i => p.round r.2 r.1 i) r).getD r

/-- The device is installed on its own header, if that was read and is right, and on none else. -/
structure OnOwnHeader (p : Prober) (r : (Nat → Byte) × System) (s : System) (i : Fin maxDevices) :
    Prop where
  ready : ReadyAt s (p.device, i) ↔ HeaderRead (p.before r i).2 (p.name i) ∧
    p.passes (ownHeader (p.before r i).2 (p.name i))
  stored : ReadyAt s (p.device, i) → p.stored s i (ownHeader (p.before r i).2 (p.name i))

/-- Before round `k` the buffer has a header that passes: the last one read, or, before any was,
    what the stack held. -/
def Stale (p : Prober) (r : (Nat → Byte) × System) (k : Nat) : Prop :=
  (∃ j : Fin maxDevices, j < k ∧ HeaderRead (p.before r j).2 (p.name j) ∧
    p.passes (ownHeader (p.before r j).2 (p.name j)) ∧
    ∀ l : Fin maxDevices, j < l → l < k → ¬ HeaderRead (p.before r l).2 (p.name l)) ∨
  (p.passes r.1 ∧ ∀ l : Fin maxDevices, l < k → ¬ HeaderRead (p.before r l).2 (p.name l))

/-- If the file is there and its header is not read, then no other one passes in its place. -/
def Fresh (p : Prober) (r : (Nat → Byte) × System) (i : Fin maxDevices) : Prop :=
  clusterOf (p.before r i).2 (p.name i) ≠ 0 → ¬ HeaderRead (p.before r i).2 (p.name i) →
    ¬ Stale p r i

def System.clearRow (s : System) (c : DeviceClass) : System :=
  { s with installed := Function.update s.installed c.line 0 }

structure Probing (p : Prober) (i : Fin maxDevices) (r r' : (Nat → Byte) × System) : Prop where
  header : r'.1 = if HeaderRead r.2 (p.name i) then
    blit r.1 0 (ownHeader r.2 (p.name i)) p.length else r.1
  ready : ReadyAt r'.2 (p.device, i) ↔ clusterOf r.2 (p.name i) ≠ 0 ∧ p.passes r'.1
  stored : ReadyAt r'.2 (p.device, i) → p.stored r'.2 i r'.1
  others : ∀ dev, dev ≠ (p.device, i) → (ReadyAt r'.2 dev ↔ ReadyAt r.2 dev)
  kept : ∀ j h, j ≠ i → (p.stored r'.2 j h ↔ p.stored r.2 j h)

structure Probes (p : Prober) : Prop where
  each : ∀ r i r', p.round r.2 r.1 i = some r' → Probing p i r r'
  passes : ∀ h h', (∀ k < p.length, h k = h' k) → (p.passes h ↔ p.passes h')
  stored : ∀ s i h h', (∀ k < p.length, h k = h' k) → (p.stored s i h ↔ p.stored s i h')

theorem ready_others {dev : Dev} {s s' : System} (probed : Probed dev s s') (noted : Noted dev s s')
    (other : Dev) (apart : other ≠ dev) : ReadyAt s' other ↔ ReadyAt s other := by
  unfold ReadyAt System.regs
  rw [probed.ports other apart]
  apply and_congr_right
  intro _
  exact ⟨noted.bits other apart, probed.bits other⟩

theorem setRegs_installed (s : System) (dev : Dev) (f : DevReg → DevReg) :
    (s.setRegs dev f).installed = s.installed := rfl

theorem unopened (v : Fat.Volume) : ¬ Fat.Opens v 0 := by
  rintro ⟨⟨low, _⟩, _⟩
  omega

theorem tape_probing {r r' : (Nat → Byte) × System} {i : Fin maxDevices}
    (done : initEmulatedTape r.2 r.1 i = some r') : Probing tapeProber i r r' := by
  have others := ready_others (initEmulatedTape_probes done) (initEmulatedTape_notes done)
  suffices own : r'.1 = (if HeaderRead r.2 (tapeName i) then
      blit r.1 0 (ownHeader r.2 (tapeName i)) 4 else r.1) ∧
      (ReadyAt r'.2 (.tape, i) ↔ clusterOf r.2 (tapeName i) ≠ 0 ∧ tapeProber.passes r'.1) from
    ⟨own.1, own.2, fun _ => trivial, others, fun _ _ _ => Iff.rfl⟩
  unfold initEmulatedTape at done
  unfold ownHeader
  change r'.1 = (if Fat.Opens (Fat.fatGetcluster r.2.fat (tapeName i)).2 (clusterOf r.2 (tapeName i))
    then _ else _) ∧ _
  unfold clusterOf
  generalize Fat.fatGetcluster r.2.fat (tapeName i) = looked at done ⊢
  obtain ⟨cluster, found, rfl⟩ := Option.map_eq_some_iff.mp done
  rw [found, Option.getD_some]
  obtain ⟨v, run⟩ := Fat.readfile_first looked.2 cluster r.1 (by decide : 0 < 4) (by decide : 4 ≤ 512)
  dsimp only
  by_cases missing : cluster = 0
  · rw [if_neg (not_not.mpr missing), missing, if_neg (unopened _)]
    refine ⟨rfl, ?_⟩
    simp [ReadyAt, System.regs]
  · rw [if_pos missing]
    dsimp only [System.setTape]
    simp only [run, Option.get_some]
    generalize (if Fat.Opens looked.2 cluster then _ else r.1) = header
    split_ifs with unknown
    · refine ⟨rfl, ?_⟩
      simp [ReadyAt, System.regs, tapeProber, unknown]
    · refine ⟨rfl, ?_⟩
      have there := installed_here r.2 (.tape, i)
      unfold Installed at there
      simpa [ReadyAt, Installed, System.regs, missing, tapeProber, System.install, setRegs_installed,
        not_not.mp unknown] using there

theorem disk_probing {r r' : (Nat → Byte) × System} {i : Fin maxDevices}
    (done : initEmulatedDisk r.2 r.1 i = some r') : Probing diskProber i r r' := by
  have others := ready_others (initEmulatedDisk_probes done) (initEmulatedDisk_notes done)
  suffices own : r'.1 = (if HeaderRead r.2 (diskName i) then
      blit r.1 0 (ownHeader r.2 (diskName i)) (8 * 4) else r.1) ∧
      (ReadyAt r'.2 (.disk, i) ↔ clusterOf r.2 (diskName i) ≠ 0 ∧ diskProber.passes r'.1) ∧
      (ReadyAt r'.2 (.disk, i) → OwnGeometry (r'.2.disks i) r'.1) ∧
      ∀ j h, j ≠ i → (OwnGeometry (r'.2.disks j) h ↔ OwnGeometry (r.2.disks j) h) from
    ⟨own.1, own.2.1, own.2.2.1, others, own.2.2.2⟩
  unfold initEmulatedDisk at done
  unfold ownHeader
  change r'.1 = (if Fat.Opens (Fat.fatGetcluster r.2.fat (diskName i)).2 (clusterOf r.2 (diskName i))
    then _ else _) ∧ _
  unfold clusterOf
  generalize Fat.fatGetcluster r.2.fat (diskName i) = looked at done ⊢
  obtain ⟨cluster, found, rfl⟩ := Option.map_eq_some_iff.mp done
  rw [found, Option.getD_some]
  obtain ⟨v, run⟩ :=
    Fat.readfile_first looked.2 cluster r.1 (by decide : 0 < 8 * 4) (by decide : 8 * 4 ≤ 512)
  dsimp only
  by_cases missing : cluster = 0
  · rw [if_neg (not_not.mpr missing), missing, if_neg (unopened _)]
    refine ⟨rfl, ?_, ?_, ?_⟩
    · simp [ReadyAt, System.regs]
    · simp [ReadyAt, System.regs]
    · intro j h apart
      simp [System.setDisk, System.setRegs, System.setPort, apart]
  · rw [if_pos missing]
    dsimp only [System.setDisk]
    simp only [run, Option.get_some]
    generalize (if Fat.Opens looked.2 cluster then _ else r.1) = header
    split_ifs with refused
    · have fails : ¬ diskProber.passes header := by
        rintro ⟨known, cylinders, heads, sectors⟩
        rcases refused with other | large | large | large
        · exact other known
        · exact absurd cylinders (Nat.not_le_of_lt large)
        · exact absurd heads (Nat.not_le_of_lt large)
        · exact absurd sectors (Nat.not_le_of_lt large)
      refine ⟨rfl, ?_, ?_, ?_⟩
      · simp [ReadyAt, System.regs, fails]
      · simp [ReadyAt, System.regs]
      · intro j h apart
        simp [System.setRegs, System.setPort, apart]
    · have passes : diskProber.passes header := by
        simp only [not_or, not_not, not_lt, gt_iff_lt, ne_eq] at refused
        exact refused
      have there := installed_here r.2 (.disk, i)
      unfold Installed at there
      refine ⟨rfl, ?_, ?_, ?_⟩
      · simpa [ReadyAt, Installed, System.regs, missing, System.install, setRegs_installed, passes]
          using there
      · intro _
        constructor <;> simp [System.setRegs, System.setPort, diskInfo]
      · intro j h apart
        simp [System.setRegs, System.setPort, System.install, apart]

theorem tape_probes : Probes tapeProber where
  each _ _ _ done := tape_probing done
  passes h h' same := by
    have word : Fat.word 4 h 0 = Fat.word 4 h' 0 :=
      Fat.word_congr fun k few => same (0 + k) (by rw [Nat.zero_add]; exact few)
    simp only [tapeProber, word]
  stored _ _ _ _ _ := Iff.rfl

theorem diskInfo_congr {h h' : Nat → Byte} (same : ∀ k < 8 * 4, h k = h' k) {k : Nat} (few : k < 7) :
    diskInfo h k = diskInfo h' k := Fat.word_congr fun i few => same _ (by omega)

theorem disk_probes : Probes diskProber where
  each _ _ _ done := disk_probing done
  passes h h' same := by
    have header : ∀ k < 8 * 4, h k = h' k := same
    have word : Fat.word 4 h 0 = Fat.word 4 h' 0 := Fat.word_congr fun k few => header _ (by omega)
    simp only [diskProber, word, diskInfo_congr same (by decide : 0 < 7),
      diskInfo_congr same (by decide : 1 < 7), diskInfo_congr same (by decide : 2 < 7)]
  stored s i h h' same := by
    have info : ∀ k < 7, diskInfo h k = diskInfo h' k := fun k few => diskInfo_congr same few
    have back : ∀ k < 7, diskInfo h' k = diskInfo h k := fun k few => (info k few).symm
    constructor
    · rintro ⟨cylinders, heads, sectors, rpm, seektime, dataoccupation⟩
      exact ⟨cylinders.trans (info _ (by decide)), heads.trans (info _ (by decide)),
        sectors.trans (info _ (by decide)), rpm.trans (info _ (by decide)),
        seektime.trans (info _ (by decide)), dataoccupation.trans (info _ (by decide))⟩
    · rintro ⟨cylinders, heads, sectors, rpm, seektime, dataoccupation⟩
      exact ⟨cylinders.trans (back _ (by decide)), heads.trans (back _ (by decide)),
        sectors.trans (back _ (by decide)), rpm.trans (back _ (by decide)),
        seektime.trans (back _ (by decide)), dataoccupation.trans (back _ (by decide))⟩

/-! The rounds one after the other. -/

section
variable {p : Prober} {r r' : (Nat → Byte) × System}
  (done : (List.finRange maxDevices).foldlM (fun r i => p.round r.2 r.1 i) r = some r')

theorem before_zero : p.before r 0 = r := rfl

include done

theorem before_take (k : Nat) :
    ((List.finRange maxDevices).take k).foldlM (fun r i => p.round r.2 r.1 i) r =
      some (p.before r k) := by
  rw [← List.take_append_drop k (List.finRange maxDevices), List.foldlM_append] at done
  obtain ⟨middle, first, -⟩ := Option.bind_eq_some_iff.mp done
  unfold Prober.before
  rw [first]
  rfl

theorem before_end : p.before r maxDevices = r' := by
  have whole := before_take done maxDevices
  rw [List.take_of_length_le (by simp), done] at whole
  exact (Option.some.inj whole).symm

theorem before_succ (i : Fin maxDevices) :
    p.round (p.before r i).2 (p.before r i).1 i = some (p.before r (i + 1)) := by
  have next := before_take done (i + 1)
  rw [List.take_succ_eq_append_getElem (by simp), List.foldlM_append, before_take done i,
    List.getElem_finRange] at next
  simpa using next

variable (probes : Probes p)
include probes

theorem ready_later {i : Fin maxDevices} {k : Nat} (later : i + 1 ≤ k) (inside : k ≤ maxDevices) :
    (ReadyAt (p.before r k).2 (p.device, i) ↔ ReadyAt (p.before r (i + 1)).2 (p.device, i)) ∧
      ∀ h, p.stored (p.before r k).2 i h ↔ p.stored (p.before r (i + 1)).2 i h := by
  induction k, later using Nat.le_induction with
  | base => exact ⟨Iff.rfl, fun _ => Iff.rfl⟩
  | succ k past ih =>
    obtain ⟨ready, stored⟩ := ih (by omega)
    have probing := probes.each _ _ _ (before_succ done ⟨k, by omega⟩)
    have apart : i ≠ ⟨k, by omega⟩ := by
      intro same
      have value : i.val = k := congrArg Fin.val same
      omega
    constructor
    · exact (probing.others (p.device, i) fun same => apart (Prod.mk.inj same).2).trans ready
    · exact fun h => (probing.kept i h apart).trans (stored h)

/-- What passes, if nothing is read, is what is left in the buffer. -/
theorem passes_stale (k : Nat) (inside : k ≤ maxDevices) :
    p.passes (p.before r k).1 ↔ Stale p r k := by
  induction k with
  | zero => simp [Stale, before_zero]
  | succ k ih =>
    have step : k < maxDevices := inside
    have probing := probes.each _ _ _ (before_succ done ⟨k, step⟩)
    have header := probing.header
    by_cases read : HeaderRead (p.before r k).2 (p.name ⟨k, step⟩)
    · rw [header, if_pos read]
      have own := probes.passes _ _ fun l few =>
        blit_front (p.before r k).1 (ownHeader (p.before r k).2 (p.name ⟨k, step⟩)) few
      rw [own]
      constructor
      · intro right
        refine .inl ⟨⟨k, step⟩, Nat.lt_succ_self k, read, right, ?_⟩
        intro l after before
        exact absurd (Fin.lt_def.mp after) (by dsimp only; omega)
      · rintro (⟨j, before, -, right, none⟩ | ⟨-, none⟩)
        · by_cases last : j.val = k
          · obtain rfl : j = ⟨k, step⟩ := Fin.ext last
            exact right
          · exact absurd read (none ⟨k, step⟩ (Fin.lt_def.mpr (by dsimp only; omega))
              (Nat.lt_succ_self k))
        · exact absurd read (none ⟨k, step⟩ (Nat.lt_succ_self k))
    · rw [header, if_neg read, ih (by omega)]
      have other : ∀ l : Fin maxDevices, HeaderRead (p.before r l).2 (p.name l) → l.val ≠ k := by
        intro l here last
        obtain rfl : l = ⟨k, step⟩ := Fin.ext last
        exact read here
      unfold Stale
      constructor
      · rintro (⟨j, before, given, right, none⟩ | ⟨right, none⟩)
        · refine .inl ⟨j, by omega, given, right, fun l after inside here => ?_⟩
          have apart := other l here
          exact none l after (by omega) here
        · refine .inr ⟨right, fun l inside here => ?_⟩
          have apart := other l here
          exact none l (by omega) here
      · rintro (⟨j, before, given, right, none⟩ | ⟨right, none⟩)
        · have apart := other j given
          exact .inl ⟨j, by omega, given, right, fun l after inside => none l after (by omega)⟩
        · exact .inr ⟨right, fun l inside => none l (by omega)⟩

theorem onOwnHeader_iff (i : Fin maxDevices) : OnOwnHeader p r r'.2 i ↔ Fresh p r i := by
  obtain ⟨ready, stored⟩ := ready_later done probes (i := i) i.isLt (Nat.le_refl maxDevices)
  rw [before_end done] at ready stored
  have probing := probes.each _ _ _ (before_succ done i)
  have header := probing.header
  by_cases read : HeaderRead (p.before r i).2 (p.name i)
  · have there : clusterOf (p.before r i).2 (p.name i) ≠ 0 := by
      intro missing
      have low := read.1.1
      omega
    rw [if_pos read] at header
    have same : ∀ k < p.length, (p.before r (i + 1)).1 k =
        ownHeader (p.before r i).2 (p.name i) k := by
      intro k few
      rw [header]
      exact blit_front _ _ few
    constructor
    · exact fun _ _ unread => absurd read unread
    · intro _
      constructor
      · rw [ready, probing.ready, probes.passes _ _ same]
        simp [there, read]
      · intro here
        rw [stored, ← probes.stored _ _ _ _ same]
        exact probing.stored (ready.mp here)
  · rw [if_neg read] at header
    have left := passes_stale done probes i (Nat.le_of_lt i.isLt)
    rw [← header] at left
    have ready' := ready.trans probing.ready
    rw [left] at ready'
    constructor
    · intro own there _ stale
      exact read (own.ready.mp (ready'.mpr ⟨there, stale⟩)).1
    · intro fresh
      have absent : ¬ ReadyAt r'.2 (p.device, i) := by
        intro here
        obtain ⟨there, stale⟩ := ready'.mp here
        exact fresh there read stale
      exact ⟨by simp [absent, read], fun here => absurd here absent⟩

end

theorem disks_spare {s s' : System} {stack : Nat → Byte}
    (done : initEmulatedDisks s stack = some s') (i : Fin maxDevices) :
    ReadyAt s' (.tape, i) ↔ ReadyAt s (.tape, i) := by
  obtain ⟨r, rounds, rfl⟩ := Option.map_eq_some_iff.mp done
  refine foldlM_invariant (fun a => ReadyAt a.2 (.tape, i) ↔ ReadyAt s (.tape, i)) ?_ _ ?_ rounds
  · intro a j a' same round
    exact ((disk_probing round).others (.tape, i) (by simp [diskProber])).trans same
  · have line : DeviceClass.tape.line ≠ DeviceClass.disk.line := by decide
    unfold ReadyAt Installed
    dsimp only
    rw [Function.update_of_ne line]
    rfl

/-- After both init functions, each device is installed on its own header and on none else exactly
    if no file whose header could not be read finds one in the buffer: that of a file before it, or
    what was on the stack. -/
theorem installed_own_iff {s t u : System} {stack stack' : Nat → Byte}
    (tapes : initEmulatedTapes s stack = some t) (disks : initEmulatedDisks t stack' = some u) :
    (∀ i, OnOwnHeader tapeProber (stack, s.clearRow .tape) u i) ∧
        (∀ i, OnOwnHeader diskProber (stack', t.clearRow .disk) u i) ↔
      (∀ i, Fresh tapeProber (stack, s.clearRow .tape) i) ∧
        ∀ i, Fresh diskProber (stack', t.clearRow .disk) i := by
  have spared := disks_spare disks
  obtain ⟨r, tapeRounds, rfl⟩ := Option.map_eq_some_iff.mp tapes
  obtain ⟨r', diskRounds, rfl⟩ := Option.map_eq_some_iff.mp disks
  have tape : ∀ i, OnOwnHeader tapeProber (stack, s.clearRow .tape) r'.2 i ↔
      Fresh tapeProber (stack, s.clearRow .tape) i := by
    intro i
    have own := @onOwnHeader_iff tapeProber (stack, s.clearRow .tape) r tapeRounds tape_probes i
    rw [← own]
    constructor
    · rintro ⟨ready, -⟩
      exact ⟨(spared i).symm.trans ready, fun _ => trivial⟩
    · rintro ⟨ready, -⟩
      exact ⟨(spared i).trans ready, fun _ => trivial⟩
  have disk := fun i => onOwnHeader_iff diskRounds disk_probes i
  exact and_congr (forall_congr' tape) (forall_congr' disk)

def listed (b : Boot) : System :=
  { mounted b with fat := (Fat.fatListdirectory (mounted b).fat).getD (mounted b).fat }

theorem tapeBoot_tapes : (initEmulatedTapes (listed tapeBoot) tapeBoot.stack).isSome := by
  decide +kernel

def tapeBootTapes : System := (initEmulatedTapes (listed tapeBoot) tapeBoot.stack).get tapeBoot_tapes

theorem tapeBoot_disks : (initEmulatedDisks tapeBootTapes tapeBoot.stack).isSome := by decide +kernel

theorem installed_own_tapeBoot :
    (∀ i, OnOwnHeader tapeProber (tapeBoot.stack, (listed tapeBoot).clearRow .tape)
        ((initEmulatedDisks tapeBootTapes tapeBoot.stack).get tapeBoot_disks) i) ∧
      (∀ i, OnOwnHeader diskProber (tapeBoot.stack, tapeBootTapes.clearRow .disk)
        ((initEmulatedDisks tapeBootTapes tapeBoot.stack).get tapeBoot_disks) i) ↔
    (∀ i, Fresh tapeProber (tapeBoot.stack, (listed tapeBoot).clearRow .tape) i) ∧
      ∀ i, Fresh diskProber (tapeBoot.stack, tapeBootTapes.clearRow .disk) i :=
  installed_own_iff (Option.some_get tapeBoot_tapes).symm (Option.some_get tapeBoot_disks).symm

/-- The card with the tape, and beside it a file `TAPE1` that is all zeros; the transfer that would
    bring its header fails. -/
def twinBoot : Boot :=
  { tapeBoot with card := ⟨fun a =>
      if 1568 ≤ a ∧ a < 1579 then (tapeName 1).getD (a - 1568) 0
      else if a = 1568 + 26 then 5 else tapeBoot.card.bytes a,
    fun n => if n = 7 then some 0 else none, 0⟩ }

theorem twinBoot_tapes : (initEmulatedTapes (listed twinBoot) twinBoot.stack).isSome := by
  decide +kernel

/-- The second tape is installed on the header of the first one. -/
theorem twin_installed_unread :
    (Fat.fatListdirectory (mounted twinBoot).fat).isSome ∧
      ReadyAt ((initEmulatedTapes (listed twinBoot) twinBoot.stack).get twinBoot_tapes) (.tape, 1) ∧
      ¬ OnOwnHeader tapeProber (twinBoot.stack, (listed twinBoot).clearRow .tape)
        ((initEmulatedTapes (listed twinBoot) twinBoot.stack).get twinBoot_tapes) 1 := by
  have here :
      ReadyAt ((initEmulatedTapes (listed twinBoot) twinBoot.stack).get twinBoot_tapes) (.tape, 1) := by
    unfold ReadyAt Installed
    decide +kernel
  have unread : ¬ HeaderRead
      (tapeProber.before (twinBoot.stack, (listed twinBoot).clearRow .tape) 1).2 (tapeName 1) := by
    decide +kernel
  exact ⟨by decide +kernel, here, fun own => unread (own.ready.mp here).1⟩

end Emulated
