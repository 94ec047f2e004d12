import MaldOS.Emulated.Announced

/-!
The messages that the cores write to mailbox 0 of core 0. Its register is a set
of bits: it ORs what is written together, and `c_fiq_handler` clears the bits of
what it has read only after the operation of the device.
-/
namespace Messages
open Runs Emulated

/-- Where `c_fiq_handler` is: away, past the test of `Core0_FIQ_Source`, past the load of `data`,
    and past the call for the device. -/
inductive Handler where
  | away
  | entered
  | loaded (data : BitVec 32)
  | served (data : BitVec 32)

structure State where
  register : BitVec 32
  handler : Handler
  devices : System
  /-- The words written by cores, and the words the handler dispatched on, in their order. -/
  written : List (BitVec 32)
  dispatched : List (BitVec 32)

inductive Act where
  | write (word : BitVec 32)
  | handler

def step (s : State) : Act → State
  | .write word => { s with register := s.register ||| word, written := s.written ++ [word] }
  | .handler =>
    match s.handler with
    -- the source has bit 4 set as long as the register is not zero
    | .away => if s.register = 0 then s else { s with handler := .entered }
    | .entered => { s with handler := .loaded s.register }
    | .loaded data => { s with
        handler := .served data
        devices := fiqMailbox s.devices data
        dispatched := s.dispatched ++ [data] }
    | .served data => { s with handler := .away, register := s.register &&& ~~~data }

/-- The words dispatched on are words that were written, each counted once, and the bits of the
    others are in the register. -/
def Delivered (s : State) : Prop :=
  ∃ waiting : List (BitVec 32), (s.dispatched ++ waiting).Perm s.written ∧
    ∀ w ∈ waiting, w &&& s.register = w

/-- So it is however far the handler goes. -/
def Intact (s : State) : Prop := ∀ n, Delivered (run step s (List.replicate n .handler))

/-- The bits that the handler is going to clear. -/
def Handler.held : Handler → BitVec 32
  | .loaded data | .served data => data
  | _ => 0

/-- The register holds nothing but what the handler has loaded, and the word has no bit of that. -/
def Free (s : State) : Act → Prop
  | .write word => word = 0 ∨ s.register = s.handler.held ∧ word &&& s.handler.held = 0
  | .handler => True

structure Quiet (s : State) : Prop where
  register : s.register = 0
  handler : s.handler = .away
  written : s.written = []
  dispatched : s.dispatched = []

/-! Bits. -/

theorem and_full (x : BitVec 32) : x &&& 4294967295#32 = x := BitVec.and_allOnes

theorem and_clear_self (x : BitVec 32) : x &&& ~~~x = 0 := by
  ext i inside
  simp

theorem clear_and_self (x y : BitVec 32) : x &&& ~~~y &&& x = x &&& ~~~y := by
  ext i inside
  simp only [BitVec.getElem_and, BitVec.getElem_not]
  cases x[i] <;> simp

theorem and_or_left {x y : BitVec 32} (within : x &&& y = x) (z : BitVec 32) :
    x &&& (y ||| z) = x := by
  ext i inside
  have here : (x &&& y)[i] = x[i] := by rw [within]
  simp only [BitVec.getElem_and, BitVec.getElem_or] at here ⊢
  revert here
  cases x[i] <;> cases y[i] <;> simp

theorem or_clear {x y : BitVec 32} (apart : y &&& x = 0) : (x ||| y) &&& ~~~x = y := by
  ext i inside
  have here : (y &&& x)[i] = (0 : BitVec 32)[i] := by rw [apart]
  simp only [BitVec.getElem_and, BitVec.getElem_or, BitVec.getElem_not] at here ⊢
  revert here
  cases x[i] <;> cases y[i] <;> simp

theorem apart_of_or_clear {x y : BitVec 32} (kept : y &&& ((x ||| y) &&& ~~~x) = y) :
    y &&& x = 0 := by
  ext i inside
  have here : (y &&& ((x ||| y) &&& ~~~x))[i] = y[i] := by rw [kept]
  simp only [BitVec.getElem_and, BitVec.getElem_or, BitVec.getElem_not] at here ⊢
  revert here
  cases x[i] <;> cases y[i] <;> simp

theorem eq_of_clear {x y : BitVec 32} (within : y &&& x = y) (rest : x &&& ~~~y = 0) : x = y := by
  ext i inside
  have below : (y &&& x)[i] = y[i] := by rw [within]
  have above : (x &&& ~~~y)[i] = (0 : BitVec 32)[i] := by rw [rest]
  simp only [BitVec.getElem_and, BitVec.getElem_not] at below above
  revert below above
  cases x[i] <;> cases y[i] <;> simp

theorem or_clear_ne {x y : BitVec 32} (rest : x &&& ~~~y ≠ 0) (z : BitVec 32) :
    (x ||| z) &&& ~~~y ≠ 0 := by
  intro none
  apply rest
  ext i inside
  have here : ((x ||| z) &&& ~~~y)[i] = (0 : BitVec 32)[i] := by rw [none]
  simp only [BitVec.getElem_and, BitVec.getElem_or, BitVec.getElem_not] at here ⊢
  revert here
  cases x[i] <;> cases y[i] <;> simp

/-! What the handler makes of the register. -/

def Handler.unserved : Handler → List (BitVec 32)
  | .loaded data => [data]
  | _ => []

/-- The bits that stay when the handler clears what it holds. -/
def State.rest (s : State) : BitVec 32 := s.register &&& ~~~s.handler.held

def message (word : BitVec 32) : List (BitVec 32) := if word = 0 then [] else [word]

structure Sound (s : State) : Prop where
  within : s.handler.held &&& s.register = s.handler.held
  awake : s.handler = .entered → s.register ≠ 0
  account : ∃ n, (s.dispatched ++ (s.handler.unserved ++ (message s.rest ++ List.replicate n 0))).Perm
    s.written

theorem quiet_sound {s : State} (quiet : Quiet s) : Sound s := by
  refine ⟨?_, ?_, 0, ?_⟩
  · simp [quiet.handler, Handler.held]
  · simp [quiet.handler]
  · simp [State.rest, message, Handler.unserved, quiet.register, quiet.handler, quiet.written,
      quiet.dispatched]

theorem sound_delivered {s : State} (sound : Sound s) : Delivered s := by
  obtain ⟨n, account⟩ := sound.account
  refine ⟨_, account, ?_⟩
  intro w member
  rw [List.mem_append, List.mem_append] at member
  rcases member with unserved | message | zero
  · cases phase : s.handler with
    | loaded data =>
      have within := sound.within
      rw [phase] at within unserved
      cases List.mem_singleton.mp unserved
      exact within
    | _ =>
      rw [phase] at unserved
      cases unserved
  · unfold Messages.message at message
    split at message
    · cases message
    · cases List.mem_singleton.mp message
      exact clear_and_self _ _
  · cases List.eq_of_mem_replicate zero
    exact BitVec.zero_and

theorem sound_handler {s : State} (sound : Sound s) : Sound (step s .handler) := by
  obtain ⟨n, account⟩ := sound.account
  unfold step
  dsimp only
  cases phase : s.handler with
  | away =>
    dsimp only
    split
    · exact sound
    · refine ⟨by simp [Handler.held], fun _ => ‹_›, n, ?_⟩
      simpa [State.rest, phase, Handler.held, Handler.unserved] using account
  | entered =>
    have filled : ¬ s.register = 0#32 := sound.awake phase
    refine ⟨by simp [Handler.held], by simp, n, ?_⟩
    simpa [State.rest, phase, Handler.held, Handler.unserved, message, filled, and_clear_self,
      and_full] using account
  | loaded data =>
    refine ⟨?_, by simp, n, ?_⟩
    · have within := sound.within
      rw [phase] at within
      exact within
    · simpa [State.rest, phase, Handler.held, Handler.unserved] using account
  | served data =>
    refine ⟨by simp [Handler.held], by simp, n, ?_⟩
    simpa [State.rest, phase, Handler.held, Handler.unserved, and_full] using account

theorem sound_write {s : State} (sound : Sound s) {word : BitVec 32}
    (free : Free s (.write word)) : Sound (step s (.write word)) := by
  obtain ⟨n, account⟩ := sound.account
  refine ⟨and_or_left sound.within word, ?_, ?_⟩
  · intro entered
    have filled := or_clear_ne (y := 0) (by simpa [and_full] using sound.awake entered) word
    simpa [step, and_full] using filled
  · by_cases empty : word = 0
    · subst empty
      refine ⟨n + 1, ?_⟩
      have unchanged : (step s (.write 0)).rest = s.rest := by simp [step, State.rest]
      rw [unchanged, List.replicate_succ']
      simpa [step] using account.append_right [0]
    · obtain ⟨same, apart⟩ := free.resolve_left empty
      have before : s.rest = 0 := by rw [State.rest, same, and_clear_self]
      have after : (step s (.write word)).rest = word := by
        unfold step State.rest
        dsimp only
        rw [same]
        exact or_clear apart
      have moved : (s.dispatched ++ (s.handler.unserved ++ ([word] ++ List.replicate n 0))).Perm
          (s.dispatched ++ (s.handler.unserved ++ List.replicate n 0) ++ [word]) := by
        rw [List.perm_iff_count]
        intro x
        simp only [List.count_append]
        omega
      refine ⟨n, ?_⟩
      rw [after, message, if_neg empty]
      rw [before, message, if_pos rfl] at account
      exact moved.trans (account.append_right [word])

/-! What becomes of a word that is written at another time. -/

theorem handler_settles {s : State} (settles : s.handler ≠ .entered) :
    ∃ n devices, run step s (List.replicate n .handler) =
      ⟨s.rest, .away, devices, s.written, s.dispatched ++ s.handler.unserved⟩ := by
  obtain ⟨register, handler, devices, written, dispatched⟩ := s
  cases handler with
  | away => exact ⟨0, devices, by simp [run, State.rest, Handler.held, Handler.unserved, and_full]⟩
  | entered => exact absurd rfl settles
  | loaded data => exact ⟨2, fiqMailbox devices data, rfl⟩
  | served data => exact ⟨1, devices, by simp [run, step, State.rest, Handler.held, Handler.unserved]⟩

theorem handler_rounds {s : State} (filled : s.rest ≠ 0) :
    ∃ n devices, run step s (List.replicate n .handler) =
      ⟨0, .away, devices, s.written, s.dispatched ++ s.handler.unserved ++ [s.rest]⟩ := by
  have entered : ∀ register devices written dispatched,
      run step ⟨register, .entered, devices, written, dispatched⟩ (List.replicate 3 .handler) =
        ⟨0, .away, fiqMailbox devices register, written, dispatched ++ [register]⟩ := by
    intro register devices written dispatched
    simp [run, step]
  by_cases settles : s.handler ≠ .entered
  · obtain ⟨n, devices, away⟩ := handler_settles settles
    have enters : run step ⟨s.rest, .away, devices, s.written,
        s.dispatched ++ s.handler.unserved⟩ (List.replicate 1 .handler) =
          ⟨s.rest, .entered, devices, s.written, s.dispatched ++ s.handler.unserved⟩ :=
      if_neg filled
    refine ⟨n + (1 + 3), fiqMailbox devices s.rest, ?_⟩
    rw [List.replicate_add, run_append, away, List.replicate_add, run_append, enters, entered]
  · obtain ⟨register, handler, devices, written, dispatched⟩ := s
    cases not_not.mp settles
    refine ⟨3, fiqMailbox devices register, ?_⟩
    rw [entered]
    simp [State.rest, Handler.held, Handler.unserved, and_full]

theorem write_rest (s : State) (word : BitVec 32) :
    (step s (.write word)).rest = (s.register ||| word) &&& ~~~s.handler.held := rfl

theorem countP_message {word : BitVec 32} (full : word ≠ 0) : [word].countP (· ≠ 0) = 1 :=
  List.countP_cons_of_pos (by simpa using full)

theorem write_mixes {s : State} (sound : Sound s) {word : BitVec 32} (full : word ≠ 0)
    (filled : s.rest ≠ 0) : ¬ Intact (step s (.write word)) := by
  intro intact
  obtain ⟨zeros, account⟩ := sound.account
  have mixed : (step s (.write word)).rest ≠ 0 := or_clear_ne filled word
  obtain ⟨n, devices, last⟩ := handler_rounds mixed
  obtain ⟨waiting, delivered, bits⟩ := last ▸ intact n
  have empty : waiting.countP (· ≠ 0) = 0 := by
    rw [List.countP_eq_zero]
    intro w member
    cases BitVec.and_zero.symm.trans (bits w member)
    decide
  have padding : (List.replicate zeros (0 : BitVec 32)).countP (· ≠ 0) = 0 := by
    rw [List.countP_eq_zero]
    intro w member
    cases List.eq_of_mem_replicate member
    decide
  -- two words with bits are written, and one that holds them both is dispatched on
  have sent := account.countP_eq (· ≠ 0)
  have received : (s.dispatched ++ s.handler.unserved ++ [(step s (.write word)).rest] ++
      waiting).countP (· ≠ 0) = (s.written ++ [word]).countP (· ≠ 0) := delivered.countP_eq (· ≠ 0)
  rw [message, if_neg filled] at sent
  simp only [List.countP_append, padding, countP_message filled] at sent
  simp only [List.countP_append, empty, countP_message mixed, countP_message full] at received
  omega

theorem write_cleared {s : State} (sound : Sound s) {word : BitVec 32} (empty : s.rest = 0)
    (shared : word &&& s.handler.held ≠ 0) :
    ¬ Intact (step s (.write word)) := by
  intro intact
  obtain ⟨zeros, account⟩ := sound.account
  have same : s.register = s.handler.held := eq_of_clear sound.within empty
  have settles : s.handler ≠ .entered := by
    intro entered
    rw [entered] at shared
    exact shared (BitVec.and_zero)
  obtain ⟨n, devices, last⟩ := handler_settles (s := step s (.write word)) settles
  obtain ⟨waiting, delivered, bits⟩ := last ▸ intact n
  have member : word ∈ waiting := by
    rw [empty, message, if_pos rfl, List.nil_append, ← List.append_assoc] at account
    have balance : (s.dispatched ++ s.handler.unserved ++ waiting).Perm
        (s.dispatched ++ s.handler.unserved ++ (List.replicate zeros 0 ++ [word])) := by
      rw [← List.append_assoc _ _ [word]]
      exact delivered.trans (account.symm.append_right [word])
    have left := (List.perm_append_left_iff _).mp balance
    exact left.mem_iff.mpr (by simp)
  have kept := bits word member
  dsimp only at kept
  rw [write_rest, same] at kept
  exact shared (apart_of_or_clear kept)

theorem intact_step_iff {s : State} (sound : Sound s) (a : Act) :
    Intact (step s a) ↔ Free s a := by
  have lasting : ∀ {t : State}, Sound t → Intact t := by
    intro t sound n
    have kept : Sound (run step t (List.replicate n .handler)) := by
      have along : Along step (fun _ a => a = Act.handler) t (List.replicate n .handler) :=
        (along_forall step _ t _).mpr fun a member => List.eq_of_mem_replicate member
      have each : ∀ s a, Sound s → a = .handler → Sound (step s a) := by
        rintro s a sound rfl
        exact sound_handler sound
      exact run_along each _ sound along
    exact sound_delivered kept
  constructor
  · intro intact
    cases a with
    | handler => trivial
    | write word =>
      by_cases full : word = 0
      · exact Or.inl full
      · by_cases empty : s.rest = 0
        · refine Or.inr ⟨eq_of_clear sound.within empty, ?_⟩
          by_contra shared
          exact write_cleared sound empty shared intact
        · exact absurd intact (write_mixes sound full empty)
  · intro free
    cases a with
    | handler => exact lasting (sound_handler sound)
    | write word => exact lasting (sound_write sound free)

/-- Every message is delivered intact exactly if each is written when the handler has loaded all
    that was written before, and shares no bit with what the handler is about to clear. -/
theorem intact_iff {s : State} (quiet : Quiet s) (as : List Act) :
    Along step (fun s a => Intact (step s a)) s as ↔ Along step Free s as := by
  have kept : ∀ s a, Sound s → Intact (step s a) → Sound (step s a) := by
    intro s a sound intact
    have free := (intact_step_iff sound a).mp intact
    cases a with
    | handler => exact sound_handler sound
    | write word => exact sound_write sound free
  exact along_same (fun _ a sound => intact_step_iff sound a) kept as (quiet_sound quiet)

def bare : State := ⟨0, .away, bareSystem, [], []⟩

theorem bare_quiet : Quiet bare := ⟨rfl, rfl, rfl, rfl⟩

/-- Two messages, the second one while the handler serves the first. -/
theorem messages_delivered :
    Along step (fun s a => Intact (step s a)) bare
      [.write 0x81004, .handler, .handler, .handler, .write 0x60008, .handler] := by
  rw [intact_iff bare_quiet]
  simp [Along, Free, step, bare, Handler.held]

/-- A message to printer 0 and one to tape 1 come out as one word. A message that a core writes when
    it sees the answer to the one before is cleared together with that one. -/
theorem messages_mixed :
    ¬ Delivered (run step bare [.write 0x81000, .write 0x82005, .handler, .handler, .handler]) ∧
      ¬ Delivered (run step bare
        [.write 0x81000, .handler, .handler, .handler, .write 0x81000, .handler]) := by
  constructor
  · rintro ⟨waiting, delivered, -⟩
    have member : (0x83005 : BitVec 32) ∈ [0x81000, 0x82005] := by
      refine delivered.subset ?_
      simp [run, step, bare]
    simp at member
  · rintro ⟨waiting, delivered, bits⟩
    have second : waiting.Perm [0x81000] := (List.perm_cons 0x81000).mp delivered
    have lost := bits 0x81000 (second.mem_iff.mpr (by simp))
    simp [run, step, bare] at lost

end Messages
