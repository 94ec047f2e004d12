import MaldOS.Library.Runs
import MaldOS.Library.Words

/-!
The slots at `spin_cpu0` through which `CoreExecute` of `asmlib.S` hands tasks to
the loops of the other cores in `init.S`. A slot is one word: it says neither
whether the worker has seen what it holds nor that it is about to be cleared.
-/
namespace SpinSlots
open Words Runs

structure Slot where
  task : Word
  call : Option Nat

def cleared : Slot := ⟨0, none⟩

/-- Where a worker is: before it counts itself in `CoresReady`, at `start_idle_core_spin`, in
    `idle_core_spin`, past the load of a task there, and in a task. -/
inductive Phase where
  | starting
  | clearing
  | spinning
  | loaded (slot : Slot)
  | running

/-- The calls are numbered; one is pending between its load of `CoresReady` and its store. -/
structure State where
  coresReady : BitVec 32
  slot : Nat → Slot
  phase : Nat → Phase
  calls : Nat
  pending : Nat → Option (Nat × Word)
  /-- The core of a call that stored its task. -/
  returned : Nat → Option Nat
  /-- The calls whose tasks were started, and on which core. -/
  started : List (Nat × Nat)

inductive Act where
  | worker (core : Nat)
  | call (core : BitVec 32) (task : Word)
  | store (call : Nat)

/-- The core of a call that takes neither of the branches to `CoreExecuteFail`. -/
def coreExecute (coresReady core : BitVec 32) : Option Nat :=
  let core := core &&& 255
  if core = 0 then none else if coresReady ≤ core then none else some core.toNat

def stepWorker (s : State) (c : Nat) : State :=
  match s.phase c with
  | .starting =>
    -- core 0 releases a core when it reads the number of that core in `CoresReady`
    if c < 4 ∧ s.coresReady = BitVec.ofNat 32 c then
      { s with coresReady := s.coresReady + 1, phase := Function.update s.phase c .clearing }
    else s
  | .clearing => { s with
      slot := Function.update s.slot c cleared
      phase := Function.update s.phase c .spinning }
  | .spinning =>
    if (s.slot c).task = 0 then s
    else { s with phase := Function.update s.phase c (.loaded (s.slot c)) }
  | .loaded t => { s with
      slot := Function.update s.slot c cleared
      phase := Function.update s.phase c .running
      started := (t.call.map fun i => (i, c)).toList ++ s.started }
  | .running => { s with phase := Function.update s.phase c .clearing }

def step (s : State) : Act → State
  | .worker c => stepWorker s c
  | .call core task => { s with
      calls := s.calls + 1
      pending := Function.update s.pending s.calls
        ((coreExecute s.coresReady core).map fun c => (c, task)) }
  | .store i =>
    match s.pending i with
    | none => s
    | some (c, t) => { s with
        slot := Function.update s.slot c ⟨t, some i⟩
        pending := Function.update s.pending i none
        returned := Function.update s.returned i (some c) }

/-- The task was started, is in the slot of the core, or was just loaded from it. -/
def Held (s : State) (i c : Nat) : Prop :=
  (i, c) ∈ s.started ∨ (s.slot c).call = some i ∨ ∃ t, s.phase c = .loaded t ∧ t.call = some i

def Kept (s : State) : Prop := ∀ i c, s.returned i = some c → Held s i c

def Once (s : State) : Prop := (s.started.map Prod.fst).Nodup

def Working : Act → Prop
  | .worker _ => True
  | _ => False

/-- No task is lost, whatever the workers go on to do. -/
def Lossless (s : State) : Prop :=
  ∀ bs : List Act, (∀ b ∈ bs, Working b) → Kept (run step s bs)

/-- A store meets a worker in `idle_core_spin` and no task in its slot. -/
def Vacant (s : State) : Act → Prop
  | .store i => ∀ c t, s.pending i = some (c, t) → s.phase c = .spinning ∧ (s.slot c).call = none
  | _ => True

/-- Core 0 has set `CoresReady` and has not released another core yet. -/
structure Booted (s : State) : Prop where
  coresReady : s.coresReady = 1
  phase : ∀ c, s.phase c = .starting
  slot : ∀ c, (s.slot c).call = none
  pending : ∀ i, s.pending i = none
  returned : ∀ i, s.returned i = none
  started : s.started = []

/-! Where the calls are. -/

structure Tracked (s : State) : Prop where
  pending : ∀ i p, s.pending i = some p → i < s.calls ∧ s.returned i = none
  returned : ∀ i c, s.returned i = some c → i < s.calls
  slot : ∀ c i, (s.slot c).call = some i → s.returned i = some c ∧ (i, c) ∉ s.started
  loaded : ∀ c t i, s.phase c = .loaded t → t.call = some i →
    s.returned i = some c ∧ (i, c) ∉ s.started
  started : ∀ i c, (i, c) ∈ s.started → s.returned i = some c
  once : Once s

theorem tracked_phase {s : State} (tracked : Tracked s) (c : Nat) (ready : BitVec 32) {p : Phase}
    (fine : ∀ t i, p = .loaded t → t.call = some i →
      s.returned i = some c ∧ (i, c) ∉ s.started) :
    Tracked { s with coresReady := ready, phase := Function.update s.phase c p } := by
  refine ⟨tracked.pending, tracked.returned, tracked.slot, ?_, tracked.started, tracked.once⟩
  intro d t i place tag
  by_cases own : d = c
  · subst own
    exact fine t i ((Function.update_self d p s.phase).symm.trans place) tag
  · exact tracked.loaded d t i ((Function.update_of_ne own _ _).symm.trans place) tag

theorem tracked_clear {s : State} (tracked : Tracked s) (c : Nat) :
    Tracked { s with slot := Function.update s.slot c cleared } := by
  refine ⟨tracked.pending, tracked.returned, ?_, tracked.loaded, tracked.started, tracked.once⟩
  intro d i tag
  by_cases own : d = c
  · subst own
    dsimp only at tag
    rw [Function.update_self] at tag
    cases tag
  · exact tracked.slot d i (by simpa only [Function.update_of_ne own] using tag)

theorem tracked_start {s : State} (tracked : Tracked s) {i c : Nat}
    (returned : s.returned i = some c) (fresh : (i, c) ∉ s.started)
    (gone : (s.slot c).call = none) (running : s.phase c = .running) :
    Tracked { s with started := (i, c) :: s.started } := by
  have other : ∀ d j, s.returned j = some d → d ≠ c → (j, d) ∉ s.started →
      (j, d) ∉ (i, c) :: s.started := by
    intro d j _ apart absent member
    rcases List.mem_cons.mp member with same | member
    · exact apart (congrArg Prod.snd same)
    · exact absent member
  refine ⟨tracked.pending, tracked.returned, ?_, ?_, ?_, ?_⟩
  · intro d j tag
    obtain ⟨stored, absent⟩ := tracked.slot d j tag
    refine ⟨stored, other d j stored ?_ absent⟩
    rintro rfl
    cases gone.symm.trans tag
  · intro d t j place tag
    obtain ⟨stored, absent⟩ := tracked.loaded d t j place tag
    refine ⟨stored, other d j stored ?_ absent⟩
    rintro rfl
    cases running.symm.trans place
  · intro j d member
    rcases List.mem_cons.mp member with same | member
    · cases same
      exact returned
    · exact tracked.started j d member
  · unfold Once
    rw [List.map_cons, List.nodup_cons]
    refine ⟨?_, tracked.once⟩
    intro member
    obtain ⟨⟨j, d⟩, there, rfl⟩ := List.mem_map.mp member
    cases returned.symm.trans (tracked.started j d there)
    exact fresh there

theorem tracked_worker {s : State} (tracked : Tracked s) (c : Nat) : Tracked (stepWorker s c) := by
  unfold stepWorker
  cases place : s.phase c with
  | starting =>
    dsimp only
    split
    · exact tracked_phase tracked c _ (by simp)
    · exact tracked
  | clearing => exact tracked_phase (tracked_clear tracked c) c _ (by simp)
  | spinning =>
    dsimp only
    split
    · exact tracked
    · refine tracked_phase tracked c _ ?_
      intro t i same tag
      cases same
      exact tracked.slot c i tag
  | loaded t =>
    have moved := tracked_phase (tracked_clear tracked c) c s.coresReady (p := .running) (by simp)
    cases tag : t.call with
    | none => simpa only [tag, Option.map_none, Option.toList_none, List.nil_append] using moved
    | some i =>
      obtain ⟨stored, absent⟩ := tracked.loaded c t i place tag
      have begun := tracked_start moved stored absent
        (by simp [cleared]) (by simp)
      simpa only [tag, Option.map_some, Option.toList_some, List.cons_append, List.nil_append]
        using begun
  | running => exact tracked_phase tracked c _ (by simp)

theorem tracked_call {s : State} (tracked : Tracked s) (core : BitVec 32) (task : Word) :
    Tracked (step s (.call core task)) := by
  have unused : s.returned s.calls = none := by
    by_contra used
    obtain ⟨c, stored⟩ := Option.ne_none_iff_exists'.mp used
    exact absurd (tracked.returned _ c stored) (lt_irrefl _)
  refine ⟨?_, ?_, tracked.slot, tracked.loaded, tracked.started, tracked.once⟩
  · intro i p waits
    by_cases own : i = s.calls
    · subst own
      exact ⟨Nat.lt_succ_self _, unused⟩
    · obtain ⟨old, rest⟩ := tracked.pending i p ((Function.update_of_ne own _ _).symm.trans waits)
      exact ⟨Nat.lt_succ_of_lt old, rest⟩
  · intro i c stored
    exact Nat.lt_succ_of_lt (tracked.returned i c stored)

theorem tracked_store {s : State} (tracked : Tracked s) (i : Nat) :
    Tracked (step s (.store i)) := by
  unfold step
  dsimp only
  cases waits : s.pending i with
  | none => exact tracked
  | some p =>
    obtain ⟨c, t⟩ := p
    obtain ⟨old, unused⟩ := tracked.pending i (c, t) waits
    have kept : ∀ j d, s.returned j = some d →
        Function.update s.returned i (some c) j = some d := by
      intro j d stored
      have other : j ≠ i := by
        rintro rfl
        cases unused.symm.trans stored
      exact (Function.update_of_ne other _ _).trans stored
    refine ⟨?_, ?_, ?_, ?_, ?_, tracked.once⟩
    · intro j p later
      by_cases own : j = i
      · subst own
        cases (Function.update_self j none s.pending).symm.trans later
      · obtain ⟨numbered, free⟩ :=
          tracked.pending j p ((Function.update_of_ne own _ _).symm.trans later)
        exact ⟨numbered, (Function.update_of_ne own _ _).trans free⟩
    · intro j d stored
      by_cases own : j = i
      · exact own ▸ old
      · exact tracked.returned j d ((Function.update_of_ne own _ _).symm.trans stored)
    · intro d j tag
      dsimp only at tag
      by_cases own : d = c
      · subst own
        rw [Function.update_self] at tag
        cases tag
        refine ⟨Function.update_self i _ _, ?_⟩
        intro member
        cases unused.symm.trans (tracked.started i d member)
      · rw [Function.update_of_ne own] at tag
        obtain ⟨stored, absent⟩ := tracked.slot d j tag
        exact ⟨kept j d stored, absent⟩
    · intro d u j place tag
      obtain ⟨stored, absent⟩ := tracked.loaded d u j place tag
      exact ⟨kept j d stored, absent⟩
    · intro j d member
      exact kept j d (tracked.started j d member)

theorem tracked_step {s : State} (tracked : Tracked s) (a : Act) : Tracked (step s a) := by
  cases a with
  | worker c => exact tracked_worker tracked c
  | call core task => exact tracked_call tracked core task
  | store i => exact tracked_store tracked i

/-! A slot that holds a task, of which a worker has seen nothing or has just seen it. -/

structure Settled (s : State) : Prop where
  kept : Kept s
  quiet : ∀ c i, (s.slot c).call = some i → s.phase c = .spinning ∨ s.phase c = .loaded (s.slot c)

theorem settled_phase {s : State} (settled : Settled s) {c : Nat} (ready : BitVec 32) {p : Phase}
    (left : ∀ t, s.phase c ≠ .loaded t)
    (fine : ∀ i, (s.slot c).call = some i → p = .spinning ∨ p = .loaded (s.slot c)) :
    Settled { s with coresReady := ready, phase := Function.update s.phase c p } := by
  constructor
  · intro i d stored
    rcases settled.kept i d stored with begun | tag | ⟨t, place, tag⟩
    · exact Or.inl begun
    · exact Or.inr (Or.inl tag)
    · have other : d ≠ c := by
        rintro rfl
        exact left t place
      exact Or.inr (Or.inr ⟨t, (Function.update_of_ne other _ _).trans place, tag⟩)
  · intro d i tag
    dsimp only
    by_cases own : d = c
    · subst own
      rw [Function.update_self]
      exact fine i tag
    · rw [Function.update_of_ne own]
      exact settled.quiet d i tag

theorem settled_clear {s : State} (settled : Settled s) {c : Nat}
    (empty : (s.slot c).call = none) :
    Settled { s with slot := Function.update s.slot c cleared } := by
  have same : ∀ d, (Function.update s.slot c cleared d).call = (s.slot d).call := by
    intro d
    by_cases own : d = c
    · subst own
      rw [Function.update_self, empty]
      rfl
    · rw [Function.update_of_ne own]
  constructor
  · intro i d stored
    rcases settled.kept i d stored with begun | tag | loaded
    · exact Or.inl begun
    · exact Or.inr (Or.inl ((same d).trans tag))
    · exact Or.inr (Or.inr loaded)
  · intro d i tag
    dsimp only at tag ⊢
    have other : d ≠ c := by
      rintro rfl
      cases empty.symm.trans ((same d).symm.trans tag)
    rw [Function.update_of_ne other]
    exact settled.quiet d i ((same d).symm.trans tag)

theorem settled_start {s : State} (settled : Settled s) {c : Nat} {t : Slot}
    (place : s.phase c = .loaded t) : Settled (stepWorker s c) := by
  have seen : ∀ i, (s.slot c).call = some i → t.call = some i := by
    intro i tag
    rcases settled.quiet c i tag with spins | loads
    · cases place.symm.trans spins
    · cases place.symm.trans loads
      exact tag
  unfold stepWorker
  rw [place]
  dsimp only
  constructor
  · intro i d stored
    have begins : t.call = some i →
        (i, c) ∈ (t.call.map fun i => (i, c)).toList ++ s.started := by
      intro tag
      simp [tag]
    by_cases own : d = c
    · subst own
      rcases settled.kept i d stored with begun | tag | ⟨u, there, tag⟩
      · exact Or.inl (List.mem_append_right _ begun)
      · exact Or.inl (begins (seen i tag))
      · cases place.symm.trans there
        exact Or.inl (begins tag)
    · rcases settled.kept i d stored with begun | tag | ⟨u, there, tag⟩
      · exact Or.inl (List.mem_append_right _ begun)
      · refine Or.inr (Or.inl ?_)
        dsimp only
        rw [Function.update_of_ne own]
        exact tag
      · exact Or.inr (Or.inr ⟨u, (Function.update_of_ne own _ _).trans there, tag⟩)
  · intro d i tag
    dsimp only at tag ⊢
    by_cases own : d = c
    · subst own
      rw [Function.update_self] at tag
      cases tag
    · rw [Function.update_of_ne own] at tag
      rw [Function.update_of_ne own, Function.update_of_ne own]
      exact settled.quiet d i tag

theorem settled_worker {s : State} (settled : Settled s) (c : Nat) : Settled (stepWorker s c) := by
  have empty : s.phase c ≠ .spinning → (∀ t, s.phase c ≠ .loaded t) → (s.slot c).call = none := by
    intro moving left
    by_contra full
    obtain ⟨i, tag⟩ := Option.ne_none_iff_exists'.mp full
    rcases settled.quiet c i tag with spins | loads
    · exact moving spins
    · exact left _ loads
  cases place : s.phase c with
  | starting =>
    have none := empty (by simp [place]) (by simp [place])
    unfold stepWorker
    rw [place]
    dsimp only
    split
    · exact settled_phase settled _ (by simp [place]) (by simp [none])
    · exact settled
  | clearing =>
    have none := empty (by simp [place]) (by simp [place])
    unfold stepWorker
    rw [place]
    exact settled_phase (settled_clear settled none) _ (by simp [place]) (by simp)
  | spinning =>
    unfold stepWorker
    rw [place]
    dsimp only
    split
    · exact settled
    · exact settled_phase settled _ (by simp [place]) (by simp)
  | loaded t => exact settled_start settled place
  | running =>
    have none := empty (by simp [place]) (by simp [place])
    unfold stepWorker
    rw [place]
    exact settled_phase settled _ (by simp [place]) (by simp [none])

theorem settled_store {s : State} (settled : Settled s) {i : Nat} (vacant : Vacant s (.store i)) :
    Settled (step s (.store i)) := by
  unfold step
  dsimp only
  cases waits : s.pending i with
  | none => exact settled
  | some p =>
    obtain ⟨c, t⟩ := p
    obtain ⟨spins, empty⟩ := vacant c t waits
    constructor
    · intro j d stored
      dsimp only at stored
      unfold Held
      dsimp only
      by_cases new : j = i
      · subst new
        rw [Function.update_self] at stored
        cases stored
        exact Or.inr (Or.inl (by rw [Function.update_self]))
      · rw [Function.update_of_ne new] at stored
        rcases settled.kept j d stored with begun | tag | loaded
        · exact Or.inl begun
        · have other : d ≠ c := by
            rintro rfl
            cases empty.symm.trans tag
          rw [Function.update_of_ne other]
          exact Or.inr (Or.inl tag)
        · exact Or.inr (Or.inr loaded)
    · intro d j tag
      dsimp only at tag ⊢
      by_cases own : d = c
      · subst own
        exact Or.inl spins
      · rw [Function.update_of_ne own] at tag ⊢
        exact settled.quiet d j tag

theorem settled_step {s : State} (settled : Settled s) {a : Act} (vacant : Vacant s a) :
    Settled (step s a) := by
  cases a with
  | worker c => exact settled_worker settled c
  | call core task => exact ⟨settled.kept, settled.quiet⟩
  | store i => exact settled_store settled vacant

/-- A worker that `CoresReady` counts has begun, and so has the one of a call that waits. -/
structure Counted (s : State) : Prop where
  ready : ∀ c, 1 ≤ c → c < s.coresReady.toNat → s.phase c ≠ .starting
  pending : ∀ i c t, s.pending i = some (c, t) → s.phase c ≠ .starting

theorem coreExecute_counted {ready core : BitVec 32} {c : Nat}
    (passes : coreExecute ready core = some c) : 1 ≤ c ∧ c < ready.toNat := by
  unfold coreExecute at passes
  dsimp only at passes
  by_cases first : core &&& 255 = 0
  · rw [if_pos first] at passes
    cases passes
  · rw [if_neg first] at passes
    by_cases fails : ready ≤ core &&& 255
    · rw [if_pos fails] at passes
      cases passes
    · rw [if_neg fails] at passes
      cases passes
      have later : (core &&& 255).toNat ≠ 0 := fun same => first (BitVec.eq_of_toNat_eq same)
      exact ⟨by omega, Nat.lt_of_not_le fails⟩

theorem begun_stays {s : State} (c : Nat) {d : Nat} (begun : s.phase d ≠ .starting) :
    (stepWorker s c).phase d ≠ .starting := by
  have moved : ∀ p, p ≠ .starting → Function.update s.phase c p d ≠ .starting := by
    intro p later
    by_cases own : d = c
    · subst own
      rwa [Function.update_self]
    · rwa [Function.update_of_ne own]
  unfold stepWorker
  cases place : s.phase c with
  | starting =>
    dsimp only
    split
    · exact moved _ (by simp)
    · exact begun
  | spinning =>
    dsimp only
    split
    · exact begun
    · exact moved _ (by simp)
  | clearing | loaded t | running => exact moved _ (by simp)

theorem counted_ready {s : State} (counted : Counted s) (c : Nat) {d : Nat} (later : 1 ≤ d)
    (below : d < (stepWorker s c).coresReady.toNat) : (stepWorker s c).phase d ≠ .starting := by
  by_cases old : d < s.coresReady.toNat
  · exact begun_stays c (counted.ready d later old)
  · unfold stepWorker at below ⊢
    cases place : s.phase c with
    | starting =>
      rw [place] at below
      dsimp only at below ⊢
      by_cases next : c < 4 ∧ s.coresReady = BitVec.ofNat 32 c
      · rw [if_pos next] at below ⊢
        have value : s.coresReady.toNat = c := by
          rw [next.2, BitVec.toNat_ofNat]
          omega
        have raised : (s.coresReady + 1).toNat = c + 1 := by
          rw [BitVec.toNat_add, value]
          have := next.1
          simp
          omega
        have own : d = c := by
          dsimp only at below
          omega
        subst own
        simp
      · rw [if_neg next] at below
        exact absurd below old
    | spinning =>
      rw [place] at below
      dsimp only at below
      split at below
      · exact absurd below old
      · exact absurd below old
    | clearing | loaded t | running =>
      rw [place] at below
      exact absurd below old

theorem counted_step {s : State} (counted : Counted s) (a : Act) : Counted (step s a) := by
  cases a with
  | worker c =>
    have waits : (stepWorker s c).pending = s.pending := by
      unfold stepWorker
      split
      · split <;> rfl
      · rfl
      · split <;> rfl
      · rfl
      · rfl
    constructor
    · exact fun d later below => counted_ready counted c later below
    · intro i d t place
      exact begun_stays c (counted.pending i d t (waits ▸ place))
  | call core task =>
    refine ⟨counted.ready, ?_⟩
    intro i c t place
    dsimp only [step] at place
    by_cases new : i = s.calls
    · subst new
      rw [Function.update_self] at place
      obtain ⟨d, passes, same⟩ := Option.map_eq_some_iff.mp place
      cases same
      obtain ⟨later, below⟩ := coreExecute_counted passes
      exact counted.ready _ later below
    · rw [Function.update_of_ne new] at place
      exact counted.pending i c t place
  | store i =>
    unfold step
    dsimp only
    cases waits : s.pending i with
    | none => exact counted
    | some p =>
      refine ⟨counted.ready, ?_⟩
      intro j c t place
      dsimp only at place
      by_cases own : j = i
      · subst own
        rw [Function.update_self] at place
        cases place
      · rw [Function.update_of_ne own] at place
        exact counted.pending j c t place

/-! What becomes of a task that is stored at another time. -/

theorem cleared_lost {s : State} {i c : Nat} (stored : s.returned i = some c)
    (absent : (i, c) ∉ s.started) (unseen : ∀ t, s.phase c = .loaded t → t.call ≠ some i)
    (leaves : s.phase c = .clearing ∨ ∃ t, s.phase c = .loaded t) : ¬ Kept (stepWorker s c) := by
  intro kept
  have stays : (stepWorker s c).returned i = some c := by
    rcases leaves with clears | ⟨t, loads⟩
    · rw [stepWorker, clears]
      exact stored
    · rw [stepWorker, loads]
      exact stored
  have held := kept i c stays
  rcases leaves with clears | ⟨t, loads⟩
  · rw [stepWorker, clears] at held
    rcases held with begun | tag | ⟨u, place, -⟩
    · exact absent begun
    · simp [cleared] at tag
    · simp at place
  · rw [stepWorker, loads] at held
    rcases held with begun | tag | ⟨u, place, -⟩
    · have other := unseen t loads
      cases named : t.call with
      | none => exact absent (by simpa [named] using begun)
      | some j =>
        have apart : i ≠ j := by
          rintro rfl
          exact other named
        exact absent (by simpa [named, apart] using begun)
    · simp [cleared] at tag
    · simp at place

theorem store_lost {s : State} (tracked : Tracked s) (counted : Counted s) {i : Nat}
    (meets : ¬ Vacant s (.store i)) : ¬ Lossless (step s (.store i)) := by
  intro lossless
  apply meets
  intro c t waits
  have after : step s (.store i) = { s with
      slot := Function.update s.slot c ⟨t, some i⟩
      pending := Function.update s.pending i none
      returned := Function.update s.returned i (some c) } := by
    rw [step, waits]
  have unused := (tracked.pending i (c, t) waits).2
  have stored : (step s (.store i)).returned i = some c := by
    rw [after]
    exact Function.update_self i _ _
  have absent : (i, c) ∉ (step s (.store i)).started := by
    rw [after]
    intro member
    cases unused.symm.trans (tracked.started i c member)
  have phase : (step s (.store i)).phase c = s.phase c := by rw [after]
  have unseen : ∀ u, s.phase c = .loaded u → u.call ≠ some i := by
    intro u loads tag
    cases unused.symm.trans (tracked.loaded c u i loads tag).1
  cases place : s.phase c with
  | starting => exact absurd place (counted.pending i c t waits)
  | clearing =>
    exact absurd (lossless [.worker c] (by simp [Working]))
      (cleared_lost stored absent (by simp [phase, place]) (Or.inl (phase.trans place)))
  | loaded u =>
    exact absurd (lossless [.worker c] (by simp [Working]))
      (cleared_lost stored absent (fun v loads => unseen v (phase.symm.trans loads))
        (Or.inr ⟨u, phase.trans place⟩))
  | running =>
    -- the task ends, and the worker goes back to `start_idle_core_spin`
    have last : stepWorker (step s (.store i)) c =
        { step s (.store i) with phase := Function.update (step s (.store i)).phase c .clearing } := by
      rw [stepWorker, phase.trans place]
    refine absurd (lossless [.worker c, .worker c] (by simp [Working]))
      (@cleared_lost (stepWorker (step s (.store i)) c) i c ?_ ?_ ?_ (Or.inl ?_))
    · rw [last]
      exact stored
    · rw [last]
      exact absent
    · simp [last]
    · simp [last]
  | spinning =>
    refine ⟨rfl, ?_⟩
    by_contra full
    obtain ⟨j, tag⟩ := Option.ne_none_iff_exists'.mp full
    obtain ⟨before, waiting⟩ := tracked.slot c j tag
    have other : j ≠ i := by
      rintro rfl
      cases unused.symm.trans before
    have kept := lossless [] (by simp) j c (by
      rw [run, after]
      exact (Function.update_of_ne other _ _).trans before)
    rw [run, after] at kept
    rcases kept with begun | overwritten | ⟨u, loads, -⟩
    · exact waiting begun
    · simp [Ne.symm other] at overwritten
    · cases place.symm.trans loads

theorem settled_lossless {s : State} (settled : Settled s) : Lossless s := by
  intro bs working
  have along : Along step (fun _ b => Working b) s bs := (along_forall step Working s bs).mpr working
  have each : ∀ s a, Settled s → Working a → Settled (step s a) := by
    intro s a settled works
    cases a with
    | worker c => exact settled_worker settled c
    | _ => exact absurd works id
  exact (run_along each bs settled along).kept

theorem booted_tracked {s : State} (booted : Booted s) : Tracked s := by
  constructor <;> simp [booted.pending, booted.returned, booted.slot, booted.phase, booted.started, Once]

theorem booted_settled {s : State} (booted : Booted s) : Settled s := by
  constructor <;> simp [Kept, booted.returned, booted.slot]

theorem booted_counted {s : State} (booted : Booted s) : Counted s := by
  constructor
  · intro c later below
    rw [booted.coresReady] at below
    have := BitVec.toNat_ofNat 1 32
    simp at below
    omega
  · simp [booted.pending]

theorem lossless_iff_step {s : State} (tracked : Tracked s) (settled : Settled s)
    (counted : Counted s) (a : Act) : Lossless (step s a) ↔ Vacant s a := by
  constructor
  · intro lossless
    cases a with
    | store i =>
      by_contra meets
      exact store_lost tracked counted meets lossless
    | _ => trivial
  · intro vacant
    exact settled_lossless (settled_step settled vacant)

/-- No task is lost exactly if every store meets a waiting worker with an empty slot, and none is
    started twice in any case. -/
theorem lossless_iff {s : State} (booted : Booted s) (as : List Act) :
    (Along step (fun s a => Lossless (step s a)) s as ↔ Along step Vacant s as) ∧
      Along step (fun s a => Once (step s a)) s as := by
  have tracked := booted_tracked booted
  constructor
  · apply @along_same _ _ step fun s => Tracked s ∧ Settled s ∧ Counted s
    · rintro s a ⟨tracked, settled, counted⟩
      exact lossless_iff_step tracked settled counted a
    · rintro s a ⟨tracked, settled, counted⟩ lossless
      have vacant := (lossless_iff_step tracked settled counted a).mp lossless
      exact ⟨tracked_step tracked a, settled_step settled vacant, counted_step counted a⟩
    · exact ⟨tracked, booted_settled booted, booted_counted booted⟩
  · exact along_always (fun s a tracked =>
      ⟨(tracked_step tracked a).once, tracked_step tracked a⟩) as tracked

def bare : State where
  coresReady := 1
  slot := fun _ => cleared
  phase := fun _ => .starting
  calls := 0
  pending := fun _ => none
  returned := fun _ => none
  started := []

theorem bare_booted : Booted bare := by constructor <;> simp [bare, cleared]

/-- Core 1 counts itself, clears its slot, and waits. -/
def awaiting : List Act := [.worker 1, .worker 1, .worker 1]

/-- A task is stored for it, loaded and started. -/
theorem task_handed :
    Along step (fun s a => Lossless (step s a)) bare
      (awaiting ++ [.call 1 0x8000, .store 0, .worker 1, .worker 1]) := by
  refine (lossless_iff bare_booted _).1.mpr ?_
  simp [awaiting, Along, Vacant, step, stepWorker, bare, coreExecute, cleared]

/-- Of two calls in a row the first is lost, and so is one that meets the worker between its count
    and its first clear. -/
theorem tasks_lost :
    ¬ Kept (run step bare (awaiting ++ [.call 1 0x8000, .store 0, .call 1 0x9000, .store 1])) ∧
      ¬ Kept (run step bare [.worker 1, .call 1 0x8000, .store 0, .worker 1]) := by
  constructor
  · intro kept
    have held := kept 0 1 (by decide)
    simp [awaiting, Held, run, step, stepWorker, bare, coreExecute, cleared] at held
  · intro kept
    have held := kept 0 1 (by decide)
    simp [Held, run, step, stepWorker, bare, coreExecute, cleared] at held

end SpinSlots
