import MaldOS.Emulated.Announced
import MaldOS.Emulated.Apart
import MaldOS.Emulated.Deadlines

/-!
Runs of whole handlers. Between two calls time passes, and the clients and the
kernel write to memory.
-/
namespace Emulated
open Arch ByteMemory Registers ArmTimers EmulatedTimers Runs

inductive Invocation where
  | fiq (source data : BitVec 32) (elapsed : Nat)
  | irq (core : Fin 4) (source : BitVec 32)
  | timer (core : Fin 4) (microseconds : Nat)
  | pause (ram : Memory 64) (elapsed : Nat)
  | setMask (mask : Byte)

def handle (s : System) : Invocation → System
  | .fiq source data elapsed => cFiqHandler s source data (s.clock.count + elapsed)
  | .irq core source => cIrqHandler s core source
  | .timer core microseconds => setTIMER s core microseconds
  | .pause ram elapsed => { s.tick (s.clock.count + elapsed) with ram := ram }
  | .setMask mask => { s with mask := mask }

theorem handle_reachable {s : System} (reachable : Reachable s) (e : Invocation) :
    Reachable (handle s e) := by
  cases e with
  | fiq source data elapsed => exact reachable_fiq reachable source data _
  | irq core source => exact reachable_run reachable [.irq core source]
  | timer core microseconds => exact reachable_run reachable [.timer core microseconds]
  | pause ram elapsed =>
    exact reachable_run reachable [.tick (s.clock.count + elapsed), .write ram s.mask]
  | setMask mask => exact reachable_run reachable [.write s.ram mask]

def Still (s : System) : Prop :=
  s.lines = (fun _ => 0) ∧ s.scheduledPhysicalTimers = fun _ => 0

theorem initEmulatedTape_still {s : System} (still : Still s) {fileid : Nat → Byte}
    {i : Fin maxDevices} {r : (Nat → Byte) × System}
    (done : initEmulatedTape s fileid i = some r) : Still r.2 := by
  unfold initEmulatedTape at done
  generalize Fat.fatGetcluster s.fat (tapeName i) = looked at done
  obtain ⟨cluster, -, rfl⟩ := Option.map_eq_some_iff.mp done
  dsimp only
  split_ifs
  · exact still
  · exact still
  · exact still

theorem initEmulatedDisk_still {s : System} (still : Still s) {header : Nat → Byte}
    {i : Fin maxDevices} {r : (Nat → Byte) × System}
    (done : initEmulatedDisk s header i = some r) : Still r.2 := by
  unfold initEmulatedDisk at done
  generalize Fat.fatGetcluster s.fat (diskName i) = looked at done
  obtain ⟨cluster, -, rfl⟩ := Option.map_eq_some_iff.mp done
  dsimp only
  split_ifs
  · exact still
  · exact still
  · exact still

theorem init_still {b : Boot} {sdOk : Bool} {start : System}
    (init : initSystem b sdOk = some start) : Still start := by
  apply init_invariant init Still
  · exact ⟨rfl, rfl⟩
  · exact fun _ _ still => still
  · exact fun _ _ still => still
  · exact fun _ _ _ _ still done => initEmulatedTape_still still done
  · exact fun _ _ _ _ still done => initEmulatedDisk_still still done
  · exact fun _ _ still => still
  · exact fun _ still => still

theorem pending_iff (s : System) :
    pendingEmulatedInterrupt s = true ↔ ∃ line, s.lines line ≠ 0 ∧ s.mask &&& bit line = 0 := by
  simp [pendingEmulatedInterrupt]

theorem pending_mono {s s' : System} (mask : s'.mask = s.mask)
    (fewer : ∀ line, s'.lines line ≠ 0 → s.lines line ≠ 0)
    (pending : pendingEmulatedInterrupt s' = true) : pendingEmulatedInterrupt s = true := by
  obtain ⟨line, up, unmasked⟩ := (pending_iff s').mp pending
  rw [mask] at unmasked
  exact (pending_iff s).mpr ⟨line, fewer line up, unmasked⟩

theorem pending_clean {s : System} (pending : pendingEmulatedInterrupt (cleanInterruptLines s) = true) :
    pendingEmulatedInterrupt s = true := by
  have fewer : ∀ line, (cleanInterruptLines s).lines line ≠ 0 → s.lines line ≠ 0 := by
    intro line up none
    apply up
    show s.lines line &&& s.installed line = 0
    rw [none]
    exact BitVec.zero_and
  exact @pending_mono s (cleanInterruptLines s) rfl fewer pending

theorem inTime_now_iff (c : Counter) (t : ArmTimer) :
    InTime c t 0 ↔ t.enabled = true ∧ t.expiry ≤ c.count := by
  unfold InTime
  rw [Nat.mul_zero]
  constructor
  · rintro ⟨enabled, early⟩
    exact ⟨enabled, by omega⟩
  · rintro ⟨enabled, early⟩
    exact ⟨enabled, by omega⟩

end Emulated
