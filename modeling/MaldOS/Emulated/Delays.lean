import MaldOS.Emulated.Addresses

/-!
The delays of a disk. `time_to_destination` divides a second by the sectors that
pass in it, a product of two fields of the header that nobody has looked at.
-/
namespace Emulated
open Arch ByteMemory Registers ArmTimers EmulatedTimers Runs

def target (d : Disk) (command : BitVec 32) : Nat × Nat :=
  if getCommand command = seekcyl then ((getCommandCylnum command).toNat, d.currentSector)
  else (d.currentCylinder, (getCommandSectnum command).toNat)

/-- The delay to a target: no division by zero, no product cut to 32 bits, and at least the time
    that the cylinders take. -/
structure Timed (d : Disk) (cyl sect : Nat) : Prop where
  divisor : u32 (d.rpm / 60 * d.sectors) ≠ 0
  product : u32 (d.rpm / 60 * d.sectors) = d.rpm / 60 * d.sectors
  enough : distance d.currentCylinder cyl * d.seektime ≤ timeToDestination d cyl sect

/-- Every command that the disk accepts is given the delay to its target, and it is such a delay. -/
def TimedStart (i : Fin maxDevices) (s : System) (a : Act) : Prop :=
  ∀ block r, a = .request (.disk, i) block r → ¬ Busy s (.disk, i) → Busy (step s a) (.disk, i) →
    delay s (.disk, i) r.command =
        timeToDestination (s.disks i) (target (s.disks i) r.command).1
          (target (s.disks i) r.command).2 ∧
      Timed (s.disks i) (target (s.disks i) r.command).1 (target (s.disks i) r.command).2

structure Turns (d : Disk) : Prop where
  rpm : 60 ≤ d.rpm
  sectors : 1 ≤ d.sectors
  passing : d.rpm / 60 * d.sectors < 2 ^ 32

structure InRange (d : Disk) : Prop where
  cylinder : d.currentCylinder ≤ 0xFFFF
  sector : d.currentSector ≤ 0xFF
  word : d.seektime < 2 ^ 32

structure SameDrive (g d : Disk) : Prop where
  rpm : d.rpm = g.rpm
  sectors : d.sectors = g.sectors
  seektime : d.seektime = g.seektime

theorem masked_le {x mask : BitVec 32} {n : Nat} (bound : mask.toNat ≤ n) : (x &&& mask).toNat ≤ n := by
  rw [BitVec.toNat_and]
  exact Nat.and_le_right.trans bound

theorem cylnum_le (command : BitVec 32) : (getCommandCylnum command).toNat ≤ 0xFFFF :=
  masked_le (by decide)

theorem sectnum_le (command : BitVec 32) : (getCommandSectnum command).toNat ≤ 0xFF :=
  masked_le (by decide)

theorem target_range {d : Disk} (range : InRange d) (command : BitVec 32) :
    (target d command).1 ≤ 0xFFFF ∧ (target d command).2 ≤ 0xFF := by
  unfold target
  split_ifs
  · exact ⟨cylnum_le command, range.sector⟩
  · exact ⟨range.cylinder, sectnum_le command⟩

theorem delay_target (s : System) (i : Fin maxDevices) (command : BitVec 32) :
    delay s (.disk, i) command = timeToDestination (s.disks i) (target (s.disks i) command).1
      (target (s.disks i) command).2 := by
  unfold delay target
  split_ifs <;> rfl

theorem distance_le {a b n : Nat} (first : a ≤ n) (second : b ≤ n) : distance a b ≤ n := by
  unfold distance
  split_ifs <;> omega

/-- The cylinders take their time whatever the sectors do. -/
theorem delay_enough {d : Disk} (range : InRange d) {cyl sect : Nat} (cylinder : cyl ≤ 0xFFFF)
    (sector : sect ≤ 0xFF) :
    distance d.currentCylinder cyl * d.seektime ≤ timeToDestination d cyl sect := by
  have cylinders : distance d.currentCylinder cyl * d.seektime ≤ 0xFFFF * 2 ^ 32 :=
    Nat.mul_le_mul (distance_le range.cylinder cylinder) (Nat.le_of_lt range.word)
  have speed : u32 (1000000 / u32 (d.rpm / 60 * d.sectors)) ≤ 1000000 :=
    (Nat.mod_le _ _).trans (Nat.div_le_self _ _)
  have sectors : distance d.currentSector sect * u32 (1000000 / u32 (d.rpm / 60 * d.sectors)) ≤
      0xFF * 1000000 :=
    Nat.mul_le_mul (distance_le range.sector sector) speed
  unfold timeToDestination
  generalize distance d.currentCylinder cyl * d.seektime = far at cylinders ⊢
  dsimp only
  generalize distance d.currentSector sect * u32 (1000000 / u32 (d.rpm / 60 * d.sectors)) = near
    at sectors ⊢
  unfold u64
  omega

theorem timed_iff {d : Disk} (range : InRange d) {cyl sect : Nat} (cylinder : cyl ≤ 0xFFFF)
    (sector : sect ≤ 0xFF) : Timed d cyl sect ↔ Turns d := by
  constructor
  · intro timed
    have product := timed.product
    have nonzero : d.rpm / 60 * d.sectors ≠ 0 := by
      rw [← product]
      exact timed.divisor
    obtain ⟨rotations, sectors⟩ := Nat.mul_ne_zero_iff.mp nonzero
    refine ⟨?_, Nat.pos_of_ne_zero sectors, ?_⟩
    · by_contra slow
      exact rotations (Nat.div_eq_of_lt (by omega))
    · rw [← product]
      exact u32_lt _
  · intro turns
    have product := u32_of_lt turns.passing
    refine ⟨?_, product, delay_enough range cylinder sector⟩
    rw [product]
    have rotations : 1 ≤ d.rpm / 60 := (Nat.le_div_iff_mul_le (by decide)).mpr (by
      have := turns.rpm
      omega)
    exact Nat.ne_of_gt (Nat.mul_pos rotations turns.sectors)

theorem turns_same {g d : Disk} (same : SameDrive g d) : Turns d ↔ Turns g := by
  constructor
  · rintro ⟨rpm, sectors, passing⟩
    rw [same.rpm, same.sectors] at passing
    exact ⟨same.rpm ▸ rpm, same.sectors ▸ sectors, passing⟩
  · rintro ⟨rpm, sectors, passing⟩
    rw [← same.rpm, ← same.sectors] at passing
    exact ⟨same.rpm ▸ rpm, same.sectors ▸ sectors, passing⟩

/-! Every run keeps the drive and stays in the ranges. -/

structure Drives (g : Disk) (d : Disk) : Prop extends SameDrive g d, InRange d

theorem drives_aim {g d : Disk} (drives : Drives g d) {cylinder head sector : Nat}
    (first : cylinder ≤ 0xFFFF) (last : sector ≤ 0xFF) :
    Drives g { d with currentCylinder := cylinder, currentHead := head, currentSector := sector } :=
  ⟨⟨drives.rpm, drives.sectors, drives.seektime⟩, ⟨first, last, drives.word⟩⟩

theorem perform_drives {g : Disk} {s : System} {i : Fin maxDevices} (drives : Drives g (s.disks i)) :
    Drives g ((perform s (.disk, i)).2.disks i) := by
  rw [perform_disk]
  split_ifs
  · exact drives_aim drives (cylnum_le _) drives.sector
  · rw [System.aimDisk, System.setDisk]
    dsimp only
    rw [Function.update_self]
    exact drives_aim drives drives.cylinder (sectnum_le _)

theorem drives_step {g : Disk} {i : Fin maxDevices} {s : System} (drives : Drives g (s.disks i))
    (a : Act) : Drives g ((step s a).disks i) := by
  by_cases concerns : Concerns s a (.disk, i)
  · rcases concerns with ⟨block, r, rfl, given⟩ | ⟨⟨next, rfl⟩, expires⟩
    · rcases mailbox_placed { s with ram := storeReg s.ram block r } (.disk, i) block with
        same | ⟨_, rewound⟩
      · have disk : (step s (.request (.disk, i) block r)).disks i = s.disks i :=
          congrFun same.disks i
        rw [disk]
        exact drives
      · have disk : (step s (.request (.disk, i) block r)).disks i =
            { s.disks i with currentCylinder := 0, currentHead := 0, currentSector := 0 } :=
          (congrFun rewound.disks i).trans (Function.update_self i _ _)
        rw [disk]
        exact drives_aim drives (by decide) (by decide)
    · obtain ⟨q, same | ⟨-, -, completed⟩⟩ := expire_outcome expires next
      · rw [same]
        exact drives
      · rw [completed.disks]
        exact @perform_drives g { s with queue := q } i drives
  · rw [(step_sameUnit concerns).disk i rfl]
    exact drives

theorem init_inRange {b : Boot} {sdOk : Bool} {start : System}
    (init : initSystem b sdOk = some start) : ∀ i, InRange (start.disks i) := by
  apply init_invariant init fun s => ∀ i, InRange (s.disks i)
  · exact fun _ => ⟨Nat.zero_le _, Nat.zero_le _, Nat.two_pow_pos 32⟩
  · exact fun _ _ ranges => ranges
  · exact fun _ _ ranges => ranges
  · intro s fileid j r ranges done
    unfold initEmulatedTape at done
    generalize Fat.fatGetcluster s.fat (tapeName j) = looked at done
    obtain ⟨cluster, -, rfl⟩ := Option.map_eq_some_iff.mp done
    dsimp only
    split_ifs
    · exact ranges
    · exact ranges
    · exact ranges
  · intro s header j r ranges done k
    unfold initEmulatedDisk at done
    generalize Fat.fatGetcluster s.fat (diskName j) = looked at done
    obtain ⟨cluster, -, rfl⟩ := Option.map_eq_some_iff.mp done
    obtain ⟨cylinder, sector, word⟩ := ranges k
    by_cases here : k = j
    · subst here
      dsimp only
      split_ifs
      · simp only [System.setRegs, System.setPort, System.setDisk, Function.update_self]
        exact ⟨cylinder, sector, word⟩
      · simp only [System.setRegs, System.setPort, System.setDisk, System.install,
          Function.update_self]
        exact ⟨Nat.zero_le _, Nat.zero_le _, Fat.word_lt 4 _ _⟩
      · simp only [System.setRegs, System.setPort, System.setDisk, Function.update_self]
        exact ⟨cylinder, sector, word⟩
    · dsimp only
      split_ifs
      all_goals
        simp only [System.setRegs, System.setPort, System.setDisk, System.install,
          Function.update_of_ne here]
        exact ⟨cylinder, sector, word⟩
  · exact fun _ _ ranges => ranges
  · exact fun _ ranges => ranges

/-- Whatever is sent to a disk, and however far its head has moved, its delays are defined
    exactly if the header makes it turn. -/
theorem delays_timed_iff {b : Boot} {sdOk : Bool} {start : System}
    (init : initSystem b sdOk = some start) {i : Fin maxDevices}
    (there : (start.regs (.disk, i)).status ≠ deviceNotInstalled) :
    (∀ as, Along step (TimedStart i) start as) ↔ Turns (start.disks i) := by
  have range := init_inRange init i
  constructor
  · intro timed
    obtain ⟨first, -⟩ := timed [.request (.disk, i) 0x10000 ⟨0, seekcyl, 0, 0, 0⟩]
    have idle := (init_quiescent init).1 (.disk, i)
    have passes : Passes (start.disks i) seekcyl := Or.inr ⟨by decide, by simp [getCommandCylnum]⟩
    have accepted := (@request_checks start i 0x10000 ⟨0, seekcyl, 0, 0, 0⟩ (by decide) there idle
      (Or.inl (by decide))).1 passes
    obtain ⟨cylinder, sector⟩ := target_range range seekcyl
    exact (timed_iff range cylinder sector).mp (first _ _ rfl idle accepted).2
  · intro turns as
    have drives : Drives (start.disks i) (start.disks i) := ⟨⟨rfl, rfl, rfl⟩, range⟩
    refine @along_always _ _ step (fun s => Drives (start.disks i) (s.disks i)) _ ?_ as start drives
    intro s a drives
    refine ⟨?_, drives_step drives a⟩
    intro block r _ _ _
    obtain ⟨cylinder, sector⟩ := target_range drives.toInRange r.command
    refine ⟨delay_target s i r.command, ?_⟩
    exact (timed_iff drives.toInRange cylinder sector).mpr
      ((turns_same drives.toSameDrive).mpr turns)

theorem delays_timed_iff_diskSystem :
    (∀ as, Along step (TimedStart 0) diskSystem as) ↔ Turns (diskSystem.disks 0) :=
  delays_timed_iff disk_init diskSystem_there

/-- A header of zero rotations is accepted, and so is a command that then divides by zero. -/
theorem still_disk_divides_by_zero :
    initSystem diskBoot true = some diskSystem ∧
      (diskSystem.regs (.disk, 0)).status = deviceReady ∧ (diskSystem.disks 0).rpm = 0 ∧
      Busy (step diskSystem readBlock) (.disk, 0) ∧
      u32 ((diskSystem.disks 0).rpm / 60 * (diskSystem.disks 0).sectors) = 0 ∧
      ¬ Along step (TimedStart 0) diskSystem [readBlock] := by
  have still : u32 ((diskSystem.disks 0).rpm / 60 * (diskSystem.disks 0).sectors) = 0 := by
    decide +kernel
  have idle : ¬ Busy diskSystem (.disk, 0) := by decide +kernel
  have busy : Busy (step diskSystem readBlock) (.disk, 0) := by decide +kernel
  refine ⟨disk_init, by decide +kernel, by decide +kernel, busy, still, ?_⟩
  rintro ⟨timed, -⟩
  exact (timed _ _ rfl idle busy).2.divisor still

end Emulated
