import MaldOS.Emulated.Installed

/-!
Devices do not interfere. They share the timer queue, its pool and one line byte
per class; serving one of them leaves what belongs to the others as it was.
-/
namespace Emulated
open Arch ByteMemory Registers ArmTimers EmulatedTimers Runs

/-- Nothing of the other devices changes: neither their ports and private states nor their line
    bits, nor their pending timers and the order of these. -/
structure Confined (dev : Dev) (s s' : System) : Prop extends Elsewhere dev s s' where
  ports : ∀ other, other ≠ dev → s'.ports other = s.ports other
  lines : ∀ (line : Fin ilLines) (j : Nat), line ≠ dev.1.line ∨ j ≠ dev.2 →
    (s'.lines line).getLsbD j = (s.lines line).getLsbD j
  timers : s'.queue.others dev.1.timer dev.2 = s.queue.others dev.1.timer dev.2

theorem raise_others (s : System) (dev : Dev) {line : Fin ilLines} {j : Nat}
    (apart : line ≠ dev.1.line ∨ j ≠ dev.2) :
    ((s.raiseLine dev.1.line dev.2).lines line).getLsbD j = (s.lines line).getLsbD j := by
  unfold System.raiseLine
  dsimp only
  by_cases same : line = dev.1.line
  · have number : j ≠ dev.2 := apart.resolve_left fun other => other same
    rw [same, Function.update_self, BitVec.getLsbD_or, bit_unset number, Bool.or_false]
  · rw [Function.update_of_ne same]

theorem clear_others (s : System) (dev : Dev) {line : Fin ilLines} {j : Nat}
    (apart : line ≠ dev.1.line ∨ j ≠ dev.2) :
    ((s.clearLine dev.1.line dev.2).lines line).getLsbD j = (s.lines line).getLsbD j := by
  unfold System.clearLine
  dsimp only
  by_cases same : line = dev.1.line
  · have number : j ≠ dev.2 := apart.resolve_left fun other => other same
    rw [same, Function.update_self, BitVec.getLsbD_and, BitVec.getLsbD_not, bit_unset number]
    by_cases inside : j < 8
    · simp [inside]
    · rw [BitVec.getLsbD_of_ge _ _ (by omega), Bool.false_and]
  · rw [Function.update_of_ne same]

theorem own_others {dev : Dev} {raises clears : Prop} {s s' : System}
    (own : OwnLine dev raises clears s s') (line : Fin ilLines) (j : Nat)
    (apart : line ≠ dev.1.line ∨ j ≠ dev.2) :
    (s'.lines line).getLsbD j = (s.lines line).getLsbD j := by
  rcases own.lines with same | ⟨_, raised⟩ | ⟨_, cleared⟩
  · rw [same]
  · rw [raised]
    exact raise_others s dev apart
  · rw [cleared]
    exact clear_others s dev apart

theorem mailbox_timers (s : System) (dev : Dev) (registers : BitVec 64) :
    (mailbox s dev registers).queue.others dev.1.timer dev.2 =
      s.queue.others dev.1.timer dev.2 := by
  by_cases given : registers = 0
  · rw [given, mailbox_null]
  · cases mailbox_verdict s dev given with
    | silent quiet => rw [quiet.queue]
    | kept quiet => rw [quiet.queue]
    | settled quiet => rw [quiet.queue]
    | started serves idle busy delayed block queue => rw [queue, others_add]

theorem mailbox_ports (s : System) (dev : Dev) (registers : BitVec 64) :
    ∀ other, other ≠ dev → (mailbox s dev registers).ports other = s.ports other :=
  fun _ apart => (mailbox_untouched apart s registers).port

theorem mailbox_confined (s : System) (dev : Dev) (registers : BitVec 64) :
    Confined dev s (mailbox s dev registers) := by
  constructor
  · exact mailbox_elsewhere s dev registers
  · exact mailbox_ports s dev registers
  · exact own_others (mailbox_own s dev registers)
  · exact mailbox_timers s dev registers

theorem manage_confined (s : System) (dev : Dev) : Confined dev s (manage s dev) := by
  constructor
  · exact manage_elsewhere s dev
  · exact (manage_quiet s dev).ports
  · exact own_others (manage_own s dev)
  · rw [(manage_quiet s dev).queue]

theorem expire_confined {s : System} {dev : Dev} (expires : Expires s dev) (next : Timer) :
    Confined dev s (expire s next) := by
  obtain ⟨r, rest, head, past, own⟩ := expires
  rcases expire_cases s next with ⟨_, none⟩ | ⟨r', q, head', _, run⟩
  · exact absurd ⟨r, rest, head, past, own⟩ (none dev)
  · rw [head] at head'
    cases head'
    have taken : q.others dev.1.timer dev.2 = s.queue.others dev.1.timer dev.2 := by
      obtain ⟨type, code⟩ := (owner_iff r dev).mp own
      unfold TimerQueue.others
      rw [head, List.filter_cons, type, code]
      simp
    obtain ⟨elsewhere, ports, lines, timers⟩ := manage_confined { s with queue := q } dev
    rw [run, manageTimer_owner own]
    exact ⟨⟨elsewhere.tapes, elsewhere.disks, elsewhere.printers⟩, ports, lines,
      timers.trans taken⟩

/-- A message to a device and the expiry of its timer leave all other devices alone. -/
theorem devices_apart (s : System) (dev : Dev) :
    (∀ block r, Confined dev s (step s (.request dev block r))) ∧
      ∀ next, Expires s dev → Confined dev s (step s (.expire next)) := by
  constructor
  · intro block r
    obtain ⟨elsewhere, ports, lines, timers⟩ :=
      mailbox_confined { s with ram := storeReg s.ram block r } dev block
    exact ⟨⟨elsewhere.tapes, elsewhere.disks, elsewhere.printers⟩, ports, lines, timers⟩
  · exact fun next expires => expire_confined expires next

theorem devices_apart_printA :
    Confined (.printer, 0) (run step bareSystem [printA, .tick 400])
      (step (run step bareSystem [printA, .tick 400]) (.expire noTimer)) := by
  apply (devices_apart (run step bareSystem [printA, .tick 400]) (.printer, 0)).2
  refine (@expiry_own _ _ noTimer ?_ ?_).2
  · decide +kernel
  · decide +kernel

end Emulated
