import MaldOS.Hal.Mailbox
import MaldOS.Library.Rounds
import Mathlib.Algebra.Group.Nat.Defs

/-!
The calls of `mailbox.c` one after the other: while one is underway its value is
the only one of the property channel, and it is in one place.
-/
namespace Mailbox
open Runs

theorem and_low (a : Value) :
    ((a &&& ~~~0xF) ||| (mboxChProp &&& 0xF)) &&& 0xF = mboxChProp := by
  rw [BitVec.and_or_distrib_right, BitVec.and_assoc]
  have none : ~~~(0xF : Value) &&& 0xF = 0 := by decide
  rw [none]
  simp

theorem and_high (a : Value) :
    ((a &&& ~~~0xF) ||| (mboxChProp &&& 0xF)) &&& ~~~0xF = a &&& ~~~0xF := by
  rw [BitVec.and_or_distrib_right, BitVec.and_assoc, BitVec.and_self]
  have none : mboxChProp &&& 0xF &&& ~~~(0xF : Value) = 0 := by decide
  rw [none]
  simp

theorem value_onProp (c : Call) : OnProp c.value := and_low c.data

theorem value_data (c : Call) : c.value &&& ~~~0xF = c.data := (and_high c.data).trans c.aligned

structure Rest (s : State) : Prop where
  outgoing : s.outbox ++ s.held = []
  incoming : s.inbox.filter OnProp = []

structure Sent (c : Call) (s : State) (log : Log) : Prop where
  outgoing : s.outbox ++ s.held = [c.value]
  incoming : s.inbox.filter OnProp = []
  replies : log.replies = []
  memory : s.memory = posted log.before c

def Replied (c : Call) (m : Store) (log : Log) : Prop :=
  ∃ reply, log.replies = [(c.value, reply)] ∧
    m = answered (posted log.before c) c.value reply

structure Back (c : Call) (s : State) (log : Log) : Prop where
  outgoing : s.outbox ++ s.held = []
  incoming : s.inbox.filter OnProp = [c.value]
  replied : Replied c s.memory log

def PhaseInv (s : State) (log : Log) : Phase → Prop
  | .idle => Rest s
  | .waitWrite c | .write c => Rest s ∧ log.replies = [] ∧ s.memory = posted log.before c
  | .waitRead c => Sent c s log ∨ Back c s log
  | .read c => (Sent c s log ∨ Back c s log) ∧ s.inbox ≠ []
  | .returned c ok => Rest s ∧ Replied c s.memory log ∧
      (c.waiter = .mboxCall → (ok = true ↔ s.memory (c.data + 4) = mboxResponse))

def Inv (s : State) (log : Log) : Prop := PhaseInv s log s.phase

/-- The call that is at its load waits for its own value, or gets no other mail. -/
def Heeds (s : State) : Prop :=
  ∀ c, s.phase = .read c → c.waiter = .mboxCall ∨ ∀ v ∈ s.inbox, OnProp v

theorem rest_of_empty {s : State} (quiet : Quiet s) : Rest s := by
  constructor
  · rw [quiet.outbox, quiet.held]
    rfl
  · rw [quiet.inbox]
    rfl

theorem inv_quiet {s : State} (quiet : Quiet s) (log : Log) : Inv s log := by
  unfold Inv
  rw [quiet.phase]
  exact rest_of_empty quiet

theorem inv_free {s : State} {log : Log} (inv : Inv s log) (free : s.phase.Free) : Rest s := by
  unfold Inv at inv
  cases at_ : s.phase with
  | idle =>
    rw [at_] at inv
    exact inv
  | returned c ok =>
    rw [at_] at inv
    exact inv.1
  | waitWrite c => simp [at_, Phase.Free] at free
  | write c => simp [at_, Phase.Free] at free
  | waitRead c => simp [at_, Phase.Free] at free
  | read c => simp [at_, Phase.Free] at free

theorem inv_call (depth : Nat) {s : State} {log : Log} (inv : Inv s log) (c : Call) :
    Inv (step depth s (.call c)) (logAct s log (.call c)) := by
  by_cases free : s.phase.Free
  · simp only [step, logAct, if_pos free]
    exact ⟨⟨(inv_free inv free).outgoing, (inv_free inv free).incoming⟩, rfl, rfl⟩
  · simp only [step, logAct, if_neg free]
    exact inv

theorem sent_of_same {c : Call} {s s' : State} {log : Log}
    (outgoing : s'.outbox ++ s'.held = s.outbox ++ s.held)
    (incoming : s'.inbox.filter OnProp = s.inbox.filter OnProp) (memory : s'.memory = s.memory)
    (underway : Sent c s log ∨ Back c s log) : Sent c s' log ∨ Back c s' log := by
  rcases underway with sent | back
  · exact Or.inl ⟨outgoing.trans sent.outgoing, incoming.trans sent.incoming, sent.replies,
      memory.trans sent.memory⟩
  · refine Or.inr ⟨outgoing.trans back.outgoing, incoming.trans back.incoming, ?_⟩
    rw [memory]
    exact back.replied

theorem phaseInv_of_same {s s' : State} {log : Log}
    (outgoing : s'.outbox ++ s'.held = s.outbox ++ s.held)
    (incoming : s'.inbox.filter OnProp = s.inbox.filter OnProp) (memory : s'.memory = s.memory)
    (mail : s.inbox ≠ [] → s'.inbox ≠ []) {phase : Phase} (inv : PhaseInv s log phase) :
    PhaseInv s' log phase := by
  have rest : Rest s → Rest s' := fun rest =>
    ⟨outgoing.trans rest.outgoing, incoming.trans rest.incoming⟩
  cases phase with
  | idle => exact rest inv
  | waitWrite c => exact ⟨rest inv.1, inv.2.1, memory.trans inv.2.2⟩
  | write c => exact ⟨rest inv.1, inv.2.1, memory.trans inv.2.2⟩
  | waitRead c => exact sent_of_same outgoing incoming memory inv
  | read c => exact ⟨sent_of_same outgoing incoming memory inv.1, mail inv.2⟩
  | returned c ok =>
    refine ⟨rest inv.1, ?_, ?_⟩
    · rw [memory]
      exact inv.2.1
    · rw [memory]
      exact inv.2.2

theorem outgoing_of_inv {s : State} {log : Log} {phase : Phase} (inv : PhaseInv s log phase) :
    s.outbox ++ s.held = [] ∨ ∃ c, (phase = .waitRead c ∨ phase = .read c) ∧ Sent c s log := by
  cases phase with
  | idle => exact Or.inl inv.outgoing
  | waitWrite c => exact Or.inl inv.1.outgoing
  | write c => exact Or.inl inv.1.outgoing
  | waitRead c =>
    rcases inv with sent | back
    · exact Or.inr ⟨c, Or.inl rfl, sent⟩
    · exact Or.inl back.outgoing
  | read c =>
    rcases inv.1 with sent | back
    · exact Or.inr ⟨c, Or.inr rfl, sent⟩
    · exact Or.inl back.outgoing
  | returned c ok => exact Or.inl inv.1.outgoing

theorem inv_fetch (depth : Nat) {s : State} {log : Log} (inv : Inv s log) :
    Inv (step depth s .fetch) (logAct s log .fetch) := by
  cases fetched : s.outbox with
  | nil =>
    simp only [step, logAct, fetched]
    exact inv
  | cons v rest =>
    have alone : rest = [] ∧ s.held = [] := by
      rcases outgoing_of_inv inv with none | ⟨c, -, sent⟩
      · simp [fetched] at none
      · have outgoing := sent.outgoing
        rw [fetched] at outgoing
        simpa using (List.cons.inj outgoing).2
    simp only [step, logAct, fetched]
    have outgoing : rest ++ (s.held ++ [v]) = s.outbox ++ s.held := by simp [fetched, alone]
    exact @phaseInv_of_same s { s with outbox := rest, held := s.held ++ [v] } log outgoing rfl
      rfl id s.phase inv

theorem inv_notify (depth : Nat) {s : State} {log : Log} (inv : Inv s log) (mail : Value) :
    Inv (step depth s (.notify mail)) (logAct s log (.notify mail)) := by
  by_cases prop : OnProp mail
  · simp only [step, logAct, if_pos prop]
    exact inv
  · simp only [step, logAct, if_neg prop]
    have incoming : (s.inbox ++ [mail]).filter OnProp = s.inbox.filter OnProp := by simp [prop]
    exact @phaseInv_of_same s { s with inbox := s.inbox ++ [mail] } log rfl incoming rfl
      (by simp) s.phase inv

theorem sent_answer {c : Call} {s : State} {log : Log} (sent : Sent c s log) {i : Nat} {v : Value}
    (held : s.held[i]? = some v) (reply : List Value) (phase : Phase) :
    Back c ⟨answered s.memory v reply, s.outbox, s.held.eraseIdx i, s.inbox ++ [v], phase⟩
      { log with replies := log.replies ++ [(v, reply)] } := by
  obtain ⟨short, found⟩ := List.getElem?_eq_some_iff.mp held
  have outgoing := sent.outgoing
  have length : s.outbox.length + s.held.length = 1 := by
    rw [← List.length_append, outgoing]
    rfl
  have fetched : s.outbox = [] := List.eq_nil_of_length_eq_zero (by omega)
  rw [fetched, List.nil_append] at outgoing
  have first : i = 0 := by omega
  subst first
  have own : v = c.value := by
    rw [← found]
    simp [outgoing]
  subst own
  refine ⟨?_, ?_, reply, ?_, ?_⟩
  · simp [fetched, outgoing]
  · rw [List.filter_append, sent.incoming]
    simp [value_onProp]
  · rw [sent.replies]
    rfl
  · rw [sent.memory]

theorem inv_answer (depth : Nat) {s : State} {log : Log} (inv : Inv s log) (i : Nat)
    (reply : List Value) :
    Inv (step depth s (.answer i reply)) (logAct s log (.answer i reply)) := by
  cases held : s.held[i]? with
  | none =>
    simp only [step, logAct, held]
    exact inv
  | some v =>
    simp only [step, logAct, held]
    rcases outgoing_of_inv inv with none | ⟨c, phase, sent⟩
    · simp [(List.append_eq_nil_iff.mp none).2] at held
    · have back := sent_answer sent held reply s.phase
      unfold Inv
      dsimp only
      rcases phase with waits | reads
      · rw [waits] at back ⊢
        exact Or.inr back
      · rw [reads] at back ⊢
        exact ⟨Or.inr back, by simp⟩

theorem load_mail {s : State} {stale v : Value} {rest : List Value} (mail : s.inbox = v :: rest) :
    s.load stale = (v, { s with inbox := rest }) := by
  unfold State.load
  rw [mail]

theorem back_of_mail {c : Call} {s : State} {log : Log} (underway : Sent c s log ∨ Back c s log)
    {v : Value} {rest : List Value} (mail : s.inbox = v :: rest) (prop : OnProp v) :
    v = c.value ∧ rest.filter OnProp = [] ∧ Back c s log := by
  rcases underway with sent | back
  · have none := sent.incoming
    rw [mail, List.filter_cons_of_pos (by simpa using prop)] at none
    cases none
  · have own := back.incoming
    rw [mail, List.filter_cons_of_pos (by simpa using prop)] at own
    obtain ⟨first, others⟩ := List.cons.inj own
    exact ⟨first, others, back⟩

theorem rest_of_back {c : Call} {s : State} {log : Log} (back : Back c s log) {rest : List Value}
    (others : rest.filter OnProp = []) (phase : Phase) :
    Rest { s with inbox := rest, phase := phase } := ⟨back.outgoing, others⟩

theorem inv_load (depth : Nat) {s : State} {log : Log} {c : Call} {v : Value} {rest : List Value}
    (reads : s.phase = .read c) (underway : Sent c s log ∨ Back c s log) (mail : s.inbox = v :: rest)
    (heeds : c.waiter = .mboxCall ∨ ∀ v ∈ s.inbox, OnProp v) (stale : Value) :
    Inv (step depth s (.access stale)) log := by
  simp only [step, reads, accessAt, load_mail mail]
  by_cases prop : OnProp v
  · obtain ⟨own, others, back⟩ := back_of_mail underway mail prop
    cases waiter : c.waiter with
    | mboxCall =>
      simp only [own, if_true]
      exact ⟨rest_of_back back others _, back.replied, by simp⟩
    | readMailbox0 =>
      have here : v &&& 0xF = mboxChProp := prop
      simp only [here, ne_eq, not_true, if_false]
      exact ⟨rest_of_back back others _, back.replied, by simp [waiter]⟩
  · have calls : c.waiter = .mboxCall := heeds.resolve_right fun all =>
      prop (all v (by simp [mail]))
    have other : c.value ≠ v := by
      rintro rfl
      exact prop (value_onProp c)
    simp only [calls, if_neg other]
    have incoming : rest.filter OnProp = s.inbox.filter OnProp := by simp [mail, prop]
    exact @sent_of_same c s _ log rfl incoming rfl underway

theorem inv_access (depth : Nat) {s : State} {log : Log} (inv : Inv s log) (heeds : Heeds s)
    (stale : Value) : Inv (step depth s (.access stale)) (logAct s log (.access stale)) := by
  have here := inv
  unfold Inv at here
  cases phase : s.phase with
  | idle =>
    simp only [step, phase, accessAt]
    exact inv
  | waitWrite c =>
    simp only [step, phase, accessAt]
    rw [phase] at here
    split_ifs
    · exact inv
    · exact @phaseInv_of_same s { s with phase := .write c } log rfl rfl rfl id (.waitWrite c) here
  | write c =>
    simp only [step, phase, accessAt]
    rw [phase] at here
    obtain ⟨⟨outgoing, incoming⟩, replies, memory⟩ := here
    obtain ⟨outbox, held⟩ := List.append_eq_nil_iff.mp outgoing
    exact Or.inl ⟨by simp [outbox, held], incoming, replies, memory⟩
  | waitRead c =>
    simp only [step, phase, accessAt]
    rw [phase] at here
    split_ifs with empty
    · exact inv
    · exact ⟨@sent_of_same c s _ log rfl rfl rfl here, empty⟩
  | read c =>
    rw [phase] at here
    obtain ⟨underway, some⟩ := here
    obtain ⟨v, rest, mail⟩ := List.exists_cons_of_ne_nil some
    exact inv_load depth phase underway mail (heeds c phase) stale
  | returned c ok =>
    simp only [step, phase, accessAt]
    exact inv

theorem inv_step (depth : Nat) {s : State} {log : Log} (inv : Inv s log) (heeds : Heeds s)
    (a : Act) : Inv (step depth s a) (logAct s log a) := by
  cases a with
  | call c => exact inv_call depth inv c
  | access stale => exact inv_access depth inv heeds stale
  | fetch => exact inv_fetch depth inv
  | answer i reply => exact inv_answer depth inv i reply
  | notify mail => exact inv_notify depth inv mail

/-! What is in the message after the reply. -/

theorem storeValues_elsewhere (vs : List Value) (m : Store) (a x : Value)
    (apart : ∀ i < vs.length, x ≠ a + BitVec.ofNat 32 (4 * i)) : storeValues m a vs x = m x := by
  induction vs generalizing m a with
  | nil => rfl
  | cons v vs ih =>
    have first : x ≠ a := by simpa using apart 0 (by simp)
    rw [storeValues, ih, Function.update_of_ne first]
    intro i short
    have later := apart (i + 1) (by simpa using short)
    rwa [Nat.mul_succ, Nat.add_comm, BitVec.ofNat_add, ← BitVec.add_assoc] at later

theorem words_apart (a : Value) {i j : Nat} (hi : i < 2 ^ 30) (hj : j < 2 ^ 30) (other : i ≠ j) :
    a + BitVec.ofNat 32 (4 * i) ≠ a + BitVec.ofNat 32 (4 * j) := by
  intro same
  have offsets := congrArg BitVec.toNat ((BitVec.add_right_inj a).mp same)
  rw [BitVec.toNat_ofNat, BitVec.toNat_ofNat, Nat.mod_eq_of_lt (by omega),
    Nat.mod_eq_of_lt (by omega)] at offsets
  omega

theorem storeValues_at (vs : List Value) (m : Store) (a : Value) (short : vs.length ≤ 2 ^ 30)
    {i : Nat} {v : Value} (there : vs[i]? = some v) :
    storeValues m a vs (a + BitVec.ofNat 32 (4 * i)) = v := by
  induction vs generalizing m a i with
  | nil => simp at there
  | cons w vs ih =>
    rw [List.length_cons] at short
    have further : ∀ j : Nat, a + BitVec.ofNat 32 (4 * (j + 1)) = a + 4 + BitVec.ofNat 32 (4 * j) := by
      intro j
      rw [Nat.mul_succ, Nat.add_comm, BitVec.ofNat_add, ← BitVec.add_assoc]
      rfl
    cases i with
    | zero =>
      have first : w = v := by simpa using there
      have spared : storeValues (Function.update m a w) (a + 4) vs (a + BitVec.ofNat 32 (4 * 0)) =
          Function.update m a w (a + BitVec.ofNat 32 (4 * 0)) := by
        apply storeValues_elsewhere
        intro j inside
        rw [← further j]
        exact words_apart a (by omega) (by omega) (by omega)
      rw [storeValues, spared]
      simp [first]
    | succ i =>
      rw [storeValues, further i]
      exact ih _ _ (by omega) (by simpa using there)

theorem posted_at (m : Store) (c : Call) {i : Nat} {v : Value} (there : c.message[i]? = some v) :
    posted m c (c.data + BitVec.ofNat 32 (4 * i)) = v := by
  have short := c.short
  exact storeValues_at c.message m c.data (by omega) there

theorem answered_value (m : Store) (c : Call) (reply : List Value) :
    answered (posted m c) c.value reply =
      storeValues (posted m c) c.data (reply.take c.message.length) := by
  have size : posted m c c.data = BitVec.ofNat 32 (4 * c.message.length) := by
    have first := posted_at m c c.size
    simpa using first
  have short := c.short
  have count : (BitVec.ofNat 32 (4 * c.message.length)).toNat / 4 = c.message.length := by
    rw [BitVec.toNat_ofNat, Nat.mod_eq_of_lt (by omega)]
    omega
  unfold answered
  rw [value_data, size, count]

theorem answered_of_replied {c : Call} {m : Store} {log : Log} (replied : Replied c m log) :
    ∃ reply, Answered c m log reply := by
  obtain ⟨reply, replies, memory⟩ := replied
  rw [answered_value] at memory
  have short := c.short
  refine ⟨reply, replies, ?_, ?_⟩
  · intro i v there
    have inside : i < c.message.length := (List.getElem?_eq_some_iff.mp there).1
    rw [memory]
    by_cases given : i < reply.length
    · have word : (reply.take c.message.length)[i]? = some (reply[i]?.getD v) := by
        rw [List.getElem?_take_of_lt inside, List.getElem?_eq_getElem given]
        rfl
      apply storeValues_at _ _ _ _ word
      rw [List.length_take]
      omega
    · have kept : reply[i]?.getD v = v := by
        rw [List.getElem?_eq_none (by omega)]
        rfl
      rw [kept, storeValues_elsewhere]
      · exact posted_at log.before c there
      · intro j taken
        rw [List.length_take] at taken
        exact words_apart c.data (by omega) (by omega) (by omega)
  · intro a outside
    rw [memory, storeValues_elsewhere, posted, storeValues_elsewhere]
    · exact outside
    · intro i taken
      rw [List.length_take] at taken
      exact outside i (by omega)

/-! The two ways in which every load gets what the call waits for. -/

def OnlyProp (s : State) : Prop := ∀ v ∈ s.outbox ++ s.held ++ s.inbox, OnProp v

def Phase.call : Phase → Option Call
  | .idle => none
  | .waitWrite c | .write c | .waitRead c | .read c | .returned c _ => some c

def Own (s : State) : Prop := ∀ c, s.phase.call = some c → c.waiter = .mboxCall

theorem onlyProp_of_sub {s s' : State} (only : OnlyProp s)
    (sub : ∀ v ∈ s'.outbox ++ s'.held ++ s'.inbox, v ∈ s.outbox ++ s.held ++ s.inbox ∨ OnProp v) :
    OnlyProp s' := by
  intro v member
  rcases sub v member with before | prop
  · exact only v before
  · exact prop

theorem accessAt_underway (depth : Nat) (s : State) (stale : Value) (phase : Phase) :
    ∀ v ∈ (accessAt depth s stale phase).outbox ++ (accessAt depth s stale phase).held ++
      (accessAt depth s stale phase).inbox, v ∈ s.outbox ++ s.held ++ s.inbox ∨ OnProp v := by
  intro v member
  cases phase with
  | idle => exact Or.inl member
  | waitWrite c =>
    simp only [accessAt] at member
    split_ifs at member <;> exact Or.inl member
  | write c =>
    have places : v ∈ s.outbox ++ [c.value] ++ s.held ++ s.inbox := member
    by_cases own : v = c.value
    · exact Or.inr (own ▸ value_onProp c)
    · left
      simpa [own] using places
  | waitRead c =>
    simp only [accessAt] at member
    split_ifs at member <;> exact Or.inl member
  | read c =>
    have fewer : ∀ u ∈ (s.load stale).2.inbox, u ∈ s.inbox := by
      intro u mail
      unfold State.load at mail
      cases inbox : s.inbox with
      | nil => simp [inbox] at mail
      | cons w rest =>
        rw [inbox] at mail
        exact List.mem_cons_of_mem w mail
    have outbox : (s.load stale).2.outbox = s.outbox := by
      unfold State.load
      split <;> rfl
    have held : (s.load stale).2.held = s.held := by
      unfold State.load
      split <;> rfl
    have places : v ∈ (s.load stale).2.outbox ++ (s.load stale).2.held ++ (s.load stale).2.inbox := by
      simp only [accessAt] at member
      split at member <;> split_ifs at member <;> exact member
    rw [outbox, held] at places
    left
    rcases List.mem_append.mp places with before | mail
    · exact List.mem_append_left _ before
    · exact List.mem_append_right _ (fewer v mail)
  | returned c ok => exact Or.inl member

theorem onlyProp_step (depth : Nat) {s : State} (only : OnlyProp s) {a : Act}
    (kind : ∀ mail, a ≠ .notify mail) : OnlyProp (step depth s a) := by
  cases a with
  | call c =>
    unfold step
    dsimp only
    split_ifs
    · exact only
    · exact only
  | access stale => exact onlyProp_of_sub only (accessAt_underway depth s stale s.phase)
  | fetch =>
    cases fetched : s.outbox with
    | nil =>
      simp only [step, fetched]
      exact only
    | cons v rest =>
      simp only [step, fetched]
      apply onlyProp_of_sub only
      intro u member
      left
      rw [fetched]
      simp only [List.mem_append, List.mem_cons, List.not_mem_nil, or_false] at member ⊢
      rcases member with (out | kept | own) | mail
      · exact Or.inl (Or.inl (Or.inr out))
      · exact Or.inl (Or.inr kept)
      · exact Or.inl (Or.inl (Or.inl own))
      · exact Or.inr mail
  | answer i reply =>
    cases held : s.held[i]? with
    | none =>
      simp only [step, held]
      exact only
    | some v =>
      simp only [step, held]
      have here : v ∈ s.held := List.mem_of_getElem? held
      apply onlyProp_of_sub only
      intro u member
      left
      simp only [List.mem_append, List.mem_cons, List.not_mem_nil, or_false] at member ⊢
      rcases member with (out | kept) | mail | rfl
      · exact Or.inl (Or.inl out)
      · exact Or.inl (Or.inr (List.mem_of_mem_eraseIdx kept))
      · exact Or.inr mail
      · exact Or.inl (Or.inr here)
  | notify mail => exact absurd rfl (kind mail)

theorem accessAt_call (depth : Nat) (s : State) (stale : Value) :
    (accessAt depth s stale s.phase).phase.call = s.phase.call := by
  cases phase : s.phase with
  | idle => simp [accessAt, phase]
  | waitWrite c =>
    simp only [accessAt]
    split_ifs
    · rw [phase]
    · rfl
  | write c => rfl
  | waitRead c =>
    simp only [accessAt]
    split_ifs
    · rw [phase]
    · rfl
  | read c =>
    have same : (s.load stale).2.phase = s.phase := by
      unfold State.load
      split <;> rfl
    simp only [accessAt]
    split
    · split_ifs <;> rfl
    · split_ifs
      · rw [same, phase]
      · rfl
  | returned c ok => simp [accessAt, phase]

theorem own_step (depth : Nat) {s : State} (own : Own s) {a : Act}
    (kind : ∀ c, a = .call c → c.waiter = .mboxCall) : Own (step depth s a) := by
  intro d underway
  cases a with
  | call c =>
    unfold step at underway
    dsimp only at underway
    split_ifs at underway with free
    · cases underway
      exact kind _ rfl
    · exact own d underway
  | access stale =>
    have same := accessAt_call depth s stale
    exact own d (same ▸ underway)
  | fetch =>
    unfold step at underway
    dsimp only at underway
    split at underway <;> exact own d underway
  | answer i reply =>
    unfold step at underway
    dsimp only at underway
    split at underway <;> exact own d underway
  | notify mail =>
    unfold step at underway
    dsimp only at underway
    split_ifs at underway <;> exact own d underway

theorem heeds_of_onlyProp {s : State} (only : OnlyProp s) : Heeds s :=
  fun _ _ => Or.inr fun v member => only v (List.mem_append_right _ member)

theorem heeds_of_own {s : State} (own : Own s) : Heeds s :=
  fun c reads => Or.inl (own c (by simp [reads, Phase.call]))

theorem run_only (depth : Nat) (as : List Act) (only : ∀ mail, Act.notify mail ∉ as) {s : State}
    (quiet : Quiet s) (log : Log) :
    Inv (run (logged depth) (s, log) as).1 (run (logged depth) (s, log) as).2 ∧
      OnlyProp (run (logged depth) (s, log) as).1 := by
  have start : OnlyProp s := by simp [OnlyProp, quiet.outbox, quiet.held, quiet.inbox]
  have along : Along (logged depth) (fun _ a => ∀ mail, a ≠ .notify mail) (s, log) as := by
    rw [along_forall]
    rintro a member mail rfl
    exact only mail member
  exact @run_along _ _ (logged depth) (fun p => Inv p.1 p.2 ∧ OnlyProp p.1) _
    (fun p a here kind => ⟨inv_step depth here.1 (heeds_of_onlyProp here.2) a,
      onlyProp_step depth here.2 kind⟩) as _ ⟨inv_quiet quiet log, start⟩ along

theorem run_own (depth : Nat) (as : List Act) (own : ∀ c, Act.call c ∈ as → c.waiter = .mboxCall)
    {s : State} (quiet : Quiet s) (log : Log) :
    Inv (run (logged depth) (s, log) as).1 (run (logged depth) (s, log) as).2 := by
  have start : Own s := by simp [Own, quiet.phase, Phase.call]
  have along : Along (logged depth) (fun _ a => ∀ c, a = .call c → c.waiter = .mboxCall)
      (s, log) as := by
    rw [along_forall]
    rintro a member c rfl
    exact own c member
  exact (@run_along _ _ (logged depth) (fun p => Inv p.1 p.2 ∧ Own p.1) _
    (fun p a here kind => ⟨inv_step depth here.1 (heeds_of_own here.2) a,
      own_step depth here.2 kind⟩) as _ ⟨inv_quiet quiet log, start⟩ along).1

theorem run_inv (depth : Nat) (as : List Act) (regular : Regular as) {s : State} (quiet : Quiet s)
    (log : Log) : Inv (run (logged depth) (s, log) as).1 (run (logged depth) (s, log) as).2 := by
  rcases regular with only | own
  · exact (run_only depth as only quiet log).1
  · exact run_own depth as own quiet log

theorem returned_of_inv {p : State × Log} (inv : Inv p.1 p.2) {c : Call} {ok : Bool}
    (phase : p.1.phase = .returned c ok) : ∃ reply, Returned c ok p reply := by
  unfold Inv at inv
  rw [phase] at inv
  obtain ⟨reply, answered⟩ := answered_of_replied inv.2.1
  exact ⟨reply, phase, answered, inv.2.2⟩

/-- A call that has returned was answered: what is in its message is the GPU's reply to it. -/
theorem returned_answered (depth : Nat) (as : List Act) (regular : Regular as) {s : State}
    (quiet : Quiet s) (log : Log) {c : Call} {ok : Bool}
    (phase : (run (logged depth) (s, log) as).1.phase = .returned c ok) :
    ∃ reply, Returned c ok (run (logged depth) (s, log) as) reply :=
  returned_of_inv (run_inv depth as regular quiet log) phase

def atRest : State := ⟨fun _ => 0, [], [], [], .idle⟩

theorem atRest_quiet : Quiet atRest := ⟨rfl, rfl, rfl, rfl⟩

def sampleCall : Call := lfbCall 0x2000 (by decide)

def sampleActs : List Act :=
  [.notify 0x10, .call sampleCall, .access 0, .access 0, .fetch, .answer 0 [140, mboxResponse],
    .access 0, .access 0, .access 0, .access 0]

theorem returned_answered_sample :
    ∃ reply, Returned sampleCall true (run (logged 8) (atRest, ⟨atRest.memory, []⟩) sampleActs)
      reply := by
  have own : ∀ c, Act.call c ∈ sampleActs → c.waiter = .mboxCall := by
    intro c member
    simp [sampleActs] at member
    rw [member]
    rfl
  exact returned_answered 8 sampleActs (Or.inr own) atRest_quiet _ rfl

/-! What the callers take from a reply of full length. -/

theorem answered_at {c : Call} {m : Store} {log : Log} {reply : List Value}
    (answered : Answered c m log reply) (full : c.message.length ≤ reply.length) {i : Nat}
    (inside : i < c.message.length) :
    m (c.data + BitVec.ofNat 32 (4 * i)) = reply.getD i 0 := by
  rw [answered.words i _ (List.getElem?_eq_getElem inside), List.getD_eq_getElem?_getD,
    List.getElem?_eq_getElem (Nat.lt_of_lt_of_le inside full)]
  rfl

theorem serial_taken {data : Value} {aligned : data &&& ~~~0xF = data} {m : Store} {log : Log}
    {reply : List Value} (answered : Answered (serialNumber data aligned) m log reply)
    (full : 8 ≤ reply.length) : serial m data = (reply.getD 5 0, reply.getD 6 0) := by
  have word : ∀ i < 8, m (data + BitVec.ofNat 32 (4 * i)) = reply.getD i 0 :=
    fun i inside => answered_at answered full inside
  exact Prod.ext (word 5 (by decide)) (word 6 (by decide))

theorem memorySplit_taken {data : Value} {aligned : data &&& ~~~0xF = data} {m : Store} {log : Log}
    {reply : List Value} (answered : Answered (getMemorySplit data aligned) m log reply)
    (full : 8 ≤ reply.length) : memorySplit m data = reply.getD 6 0 := by
  have word : ∀ i < 8, m (data + BitVec.ofNat 32 (4 * i)) = reply.getD i 0 :=
    fun i inside => answered_at answered full inside
  exact word 6 (by decide)

/-- The display of a reply, or the one that there was if the reply does not grant one. -/
def granted (reply : List Value) (d : Display) : Display :=
  if reply.getD 1 0 = mboxResponse ∧ reply.getD 20 0 = 32 ∧ reply.getD 28 0 ≠ 0 then
    ⟨reply.getD 5 0, reply.getD 6 0, reply.getD 33 0, reply.getD 28 0 &&& 0x3FFFFFFF⟩
  else d

theorem lfbInit_taken {mbox : Value} {aligned : mbox &&& ~~~0xF = mbox} {ok : Bool}
    {p : State × Log} {reply : List Value} (returned : Returned (lfbCall mbox aligned) ok p reply)
    (full : 35 ≤ reply.length) (d : Display) :
    lfbInit p.1.memory mbox ok d = granted reply d := by
  have word : ∀ i < 35, p.1.memory (mbox + BitVec.ofNat 32 (4 * i)) = reply.getD i 0 :=
    fun i inside => answered_at returned.answered full inside
  have success : ok = true ↔ reply.getD 1 0 = mboxResponse := by
    rw [← word 1 (by decide)]
    exact returned.success rfl
  unfold lfbInit granted
  rw [← word 5 (by decide), ← word 6 (by decide), ← word 20 (by decide), ← word 28 (by decide),
    ← word 33 (by decide)]
  simp only [success]
  rfl

/-- What the callers with a result find in their message is in the reply. -/
structure Taken (c : Call) (ok : Bool) (m : Store) (reply : List Value) : Prop where
  serial : ∀ data aligned, c = serialNumber data aligned →
    serial m data = (reply.getD 5 0, reply.getD 6 0)
  split : ∀ data aligned, c = getMemorySplit data aligned → memorySplit m data = reply.getD 6 0
  display : ∀ mbox aligned d, c = lfbCall mbox aligned → lfbInit m mbox ok d = granted reply d

theorem taken_of_returned {c : Call} {ok : Bool} {p : State × Log} {reply : List Value}
    (returned : Returned c ok p reply) (full : c.message.length ≤ reply.length) :
    Taken c ok p.1.memory reply where
  serial data aligned same := by
    subst same
    exact serial_taken returned.answered full
  split data aligned same := by
    subst same
    exact memorySplit_taken returned.answered full
  display mbox aligned d same := by
    subst same
    exact lfbInit_taken returned full d

/-- A call that has returned hands its caller what the GPU replied to it, if the reply has all the
    words of the message. -/
theorem callers_take (depth : Nat) (as : List Act) (regular : Regular as) {s : State}
    (quiet : Quiet s) (log : Log) {c : Call} {ok : Bool}
    (phase : (run (logged depth) (s, log) as).1.phase = .returned c ok) :
    ∃ reply, (run (logged depth) (s, log) as).2.replies = [(c.value, reply)] ∧
      (c.message.length ≤ reply.length →
        Taken c ok (run (logged depth) (s, log) as).1.memory reply) := by
  obtain ⟨reply, returned⟩ := returned_of_inv (run_inv depth as regular quiet log) phase
  exact ⟨reply, returned.answered.replies, taken_of_returned returned⟩

def splitCall : Call := getMemorySplit 0x1000 (by decide)

def splitActs : List Act :=
  [.call splitCall, .access 0, .access 0, .fetch,
    .answer 0 [32, mboxResponse, 0x10005, 8, 8, 0, 0x3C000000, 0], .access 0, .access 0]

theorem callers_take_split :
    memorySplit (run (logged 8) (atRest, ⟨atRest.memory, []⟩) splitActs).1.memory 0x1000 =
      0x3C000000 := by
  have none : ∀ mail, Act.notify mail ∉ splitActs := by simp [splitActs]
  obtain ⟨reply, replies, taken⟩ :=
    @callers_take 8 splitActs (Or.inl none) atRest atRest_quiet ⟨atRest.memory, []⟩ splitCall true rfl
  have same : [32, mboxResponse, 0x10005, 8, 8, 0, 0x3C000000, 0] = reply :=
    (Prod.ext_iff.mp (List.cons.inj replies).1).2
  subst same
  exact (taken (Nat.le_refl 8)).split 0x1000 (by decide) rfl

end Mailbox
