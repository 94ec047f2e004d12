import MaldOS.Emulated.Drained
import MaldOS.Emulated.InFlight

/-!
When the commands of the devices are carried out: never before the delay of the
command is over, and one after the other in the order in which they fall due.
-/
namespace Emulated
open Arch ByteMemory Registers ArmTimers EmulatedTimers Runs

structure Finishes (dev : Dev) (s : System) (a : Act) : Prop where
  busy : Busy s dev
  idle : ¬ Busy (step s a) dev
  unasked : ∀ block r, a ≠ .request dev block r

/-- A command that was accepted at `time` and takes `wait` is finished after both, and before any
    other one in flight that falls due later. -/
def Punctual (p : System × (Dev → Option (Nat × Nat))) (a : Act) : Prop :=
  ∀ dev, Finishes dev p.1 a → ∃ time wait, p.2 dev = some (time, wait) ∧
    u64 (time + wait) < getTOD p.1.clock ∧
    ∀ other, Busy p.1 other → ∃ time' wait', p.2 other = some (time', wait') ∧
      u64 (time + wait) ≤ u64 (time' + wait')

theorem finishes_expires {dev : Dev} {s : System} {a : Act} (ended : Finishes dev s a) :
    Expires s dev := by
  by_contra waits
  have apart : ¬ Concerns s a dev := by
    rintro (⟨block, r, rfl, _⟩ | ⟨_, expires⟩)
    · exact ended.unasked block r rfl
    · exact waits expires
  exact ended.idle ((untouched_busy (step_untouched apart)).mpr ended.busy)

theorem head_first {q : TimerQueue} {r : Timer} {rest : List Timer} (head : q.entries = r :: rest)
    {t : Timer} (member : t ∈ q.entries) : r.time ≤ t.time := by
  have sorted := entries_sorted q
  rw [head] at sorted member
  rcases List.mem_cons.mp member with rfl | later
  · exact Nat.le_refl _
  · exact (List.pairwise_cons.mp sorted).1 t later

theorem due_member {s : System} {dev : Dev} {t : Timer} (due : s.due dev = [t]) :
    t ∈ s.queue.entries := by
  have listed : t ∈ s.queue.due dev.1.timer dev.2 := by
    unfold System.due at due
    rw [due]
    exact List.mem_singleton_self t
  exact List.mem_of_mem_filter listed

theorem own_timer {s : System} {dev : Dev} {r t : Timer} {rest : List Timer}
    (head : s.queue.entries = r :: rest) (own : owner r = some dev) (due : s.due dev = [t]) :
    r = t := by
  obtain ⟨type, code⟩ := (owner_iff r dev).mp own
  have listed : r ∈ s.due dev := by
    unfold System.due TimerQueue.due
    rw [head]
    exact List.mem_filter.mpr ⟨List.mem_cons_self, by simp [type, code]⟩
  rw [due] at listed
  exact List.mem_singleton.mp listed

theorem armed_punctual {p : System × (Dev → Option (Nat × Nat))}
    (armed : ∀ dev, Busy p.1 dev → Armed (p.2 dev) p.1 dev) (a : Act) : Punctual p a := by
  intro dev ended
  obtain ⟨time, wait, accepted, due⟩ := (armed dev ended.busy).due
  obtain ⟨r, rest, head, past, own⟩ := finishes_expires ended
  have first : r = ⟨u64 (time + wait), dev.1.timer, dev.2⟩ := own_timer head own due
  refine ⟨time, wait, accepted, ?_, ?_⟩
  · rw [first] at past
    exact past
  · intro other busy
    obtain ⟨time', wait', accepted', due'⟩ := (armed other busy).due
    refine ⟨time', wait', accepted', ?_⟩
    have earlier := head_first head (due_member due')
    rw [first] at earlier
    exact earlier

/-- In every run each command is finished after its delay, and the commands in flight are finished
    in the order in which they fall due. -/
theorem commands_punctual {b : Boot} {sdOk : Bool} {start : System}
    (init : initSystem b sdOk = some start) (as : List Act) :
    Along traced Punctual (start, fun _ => none) as := by
  have quiescent := (init_quiescent init).1
  exact @along_always _ _ traced (fun p => ∀ dev, Busy p.1 dev → Armed (p.2 dev) p.1 dev) Punctual
    (fun p a armed => ⟨armed_punctual armed a, armed_step p a armed⟩) as
    (start, fun _ => none) (fun dev busy => absurd busy (quiescent dev))

theorem commands_punctual_printA :
    Along traced Punctual (bareSystem, fun _ => none) [printA, .tick 400, .expire noTimer] :=
  commands_punctual bare_init _

end Emulated
