import MaldOS.Hal.EmmcBlocks

/-!
What `sd_transferblock` has done when it reports a number of bytes, and what the
card was asked for.
-/
namespace Emmc
open Polling

/-- The registers that the card gets with a command, and the bytes on it at which the blocks
    begin that it was asked for. -/
structure Card where
  arg : Word
  size : Word
  addressed : List Nat

/-- The blocks of a command, from block number or byte address `arg` on. -/
def blocksOf (ccs : Bool) (code arg size : Word) : List Nat :=
  let first := if ccs then 512 * arg.toNat else arg.toNat
  if code = cmdReadSingle ∨ code = cmdWriteSingle then [first]
  else if code = cmdReadMulti ∨ code = cmdWriteMulti then
    (List.range (size >>> 16).toNat).map fun k => first + 512 * k
  else []

def Card.takes (ccs : Bool) (card : Card) : Event → Card
  | .write .arg1 value => { card with arg := value }
  | .write .blksizecnt value => { card with size := value }
  | .write .cmdtm code =>
    { card with addressed := card.addressed ++ blocksOf ccs code card.arg card.size }
  | _ => card

def Card.sees (ccs : Bool) (card : Card) (l : List Event) : Card := l.foldl (Card.takes ccs) card

structure Transferred (lba : Word) (n : Nat) (rw : ReadWrite) (ccs : Bool) (buf : Nat → Word)
    (l : List Event) : Prop where
  words : exchanges l = (List.range (128 * n)).map fun i => (i, buf i)
  ready : ∀ c < n, ∃ before first second after, Signalled (ready rw) first second ∧
    l = before ++ .read .interrupt first :: .read .interrupt second ::
      .write .interrupt (ready rw) :: .exchange (128 * c) (buf (128 * c)) :: after
  addressed : ∀ card : Card, (card.sees ccs l).addressed =
    card.addressed ++ (List.range n).map fun k => 512 * (lba.toNat + k)

@[simp] theorem sees_append (ccs : Bool) (card : Card) (l m : List Event) :
    card.sees ccs (l ++ m) = (card.sees ccs l).sees ccs m := List.foldl_append

theorem takes_addressed {ccs : Bool} {e : Event}
    (none : ∀ code, command e = some code → ∀ arg size, blocksOf ccs code arg size = [])
    (card : Card) : (card.takes ccs e).addressed = card.addressed := by
  cases e with
  | write r value =>
    cases r with
    | cmdtm =>
      change card.addressed ++ blocksOf ccs value card.arg card.size = _
      rw [none value rfl, List.append_nil]
    | _ => rfl
  | _ => rfl

theorem sees_none {ccs : Bool} {l : List Event}
    (none : ∀ code ∈ commands l, ∀ arg size, blocksOf ccs code arg size = []) (card : Card) :
    (card.sees ccs l).addressed = card.addressed := by
  induction l generalizing card with
  | nil => rfl
  | cons e l ih =>
    have later : ∀ code ∈ commands l, ∀ arg size, blocksOf ccs code arg size = [] :=
      fun code member => none code (List.mem_filterMap.mpr
        (let ⟨f, within, writes⟩ := List.mem_filterMap.mp member
         ⟨f, List.mem_cons_of_mem _ within, writes⟩))
    have first : ∀ code, command e = some code → ∀ arg size, blocksOf ccs code arg size = [] :=
      fun code writes => none code (List.mem_filterMap.mpr ⟨e, List.mem_cons_self, writes⟩)
    exact (ih later _).trans (takes_addressed first card)

theorem sees_idle {ccs : Bool} {l : List Event} (idle : AllIdle l) (card : Card) :
    card.sees ccs l = card := by
  induction l with
  | nil => rfl
  | cons e l ih =>
    have later := ih fun f member => idle f (List.mem_cons_of_mem _ member)
    have head : Idle e := idle e List.mem_cons_self
    cases e with
    | write r value =>
      have interrupt : r = .interrupt := head
      subst interrupt
      exact later
    | exchange _ _ => exact absurd head id
    | _ => exact later

theorem sees_done {ccs : Bool} {code arg : Word} {l : List Event} (done : Done code arg l)
    (card : Card) : card.sees ccs l =
      { card with arg := arg, addressed := card.addressed ++ blocksOf ccs code arg card.size } := by
  obtain ⟨_, value, ⟨before, after, idle, idleAfter, rfl⟩, rfl⟩ := done
  rw [sees_append, sees_append, sees_idle idle]
  change (Card.sees ccs _ after).sees ccs [.read .resp0 value] = _
  rw [sees_idle idleAfter]
  rfl

theorem sees_signal {ccs : Bool} {mask : Word} {l : List Event} (signal : Signal mask l)
    (card : Card) : card.sees ccs l = card := by
  obtain ⟨idle, _, _, quiet, _, rfl⟩ := signal
  rw [sees_append, sees_idle quiet]
  rfl

theorem sees_words {ccs : Bool} (c : Nat) (buf : Nat → Word) (n : Nat) (card : Card) :
    card.sees ccs (words c buf n) = card := by
  unfold words
  induction n with
  | zero => rfl
  | succ n ih =>
    rw [List.range_succ, List.map_append, sees_append, ih]
    rfl

theorem blocksOf_single (ccs : Bool) (rw : ReadWrite) (arg size : Word) :
    blocksOf ccs (cmdSingle rw) arg size = [if ccs then 512 * arg.toNat else arg.toNat] := by
  unfold blocksOf
  cases rw
  · exact if_pos (.inl rfl)
  · exact if_pos (.inr rfl)

theorem blocksOf_multi (rw : ReadWrite) (arg size : Word) :
    blocksOf true (cmdMulti rw) arg size =
      (List.range (size >>> 16).toNat).map fun k => 512 * arg.toNat + 512 * k := by
  unfold blocksOf
  cases rw
  · exact (if_neg (by decide)).trans (if_pos (.inl rfl))
  · exact (if_neg (by decide)).trans (if_pos (.inr rfl))

/-! The blocks of the loop. -/

theorem exchanges_words (c : Nat) (buf : Nat → Word) (n : Nat) :
    exchanges (words c buf n) = (List.range' (128 * c) n).map fun i => (i, buf i) := by
  unfold words exchanges
  rw [List.range'_eq_map_range, List.filterMap_map, List.map_map]
  exact List.filterMap_eq_map ▸ rfl

theorem rounds_words {ccs : Bool} {lba : Word} {rw : ReadWrite} {buf : Nat → Word}
    {c done : Nat} {l : List Event} (rounds : Rounds ccs lba rw buf c done l) :
    exchanges l = (List.range' (128 * c) (128 * done)).map fun i => (i, buf i) := by
  induction rounds with
  | nil => rfl
  | @cons c done asked _ later ask signal _ ih =>
    have none : exchanges asked = [] := by
      unfold Asked at ask
      split_ifs at ask
      · rw [ask]
        rfl
      · exact (done_log ask).2
    have joined : List.range' (128 * c) 128 ++ List.range' (128 * (c + 1)) (128 * done) =
        List.range' (128 * c) (128 * (done + 1)) := by
      rw [show 128 * (c + 1) = 128 * c + 1 * 128 by omega, List.range'_append,
        Nat.add_comm 128, Nat.mul_succ]
    rw [exchanges_append, exchanges_append, exchanges_append, none, (signal_log signal).2,
      exchanges_words, ih, ← joined, List.map_append]
    rfl

theorem rounds_ready {ccs : Bool} {lba : Word} {rw : ReadWrite} {buf : Nat → Word}
    {c done : Nat} {l : List Event} (rounds : Rounds ccs lba rw buf c done l) :
    ∀ k, c ≤ k → k < c + done → ∃ before first second after, Signalled (ready rw) first second ∧
      l = before ++ .read .interrupt first :: .read .interrupt second ::
        .write .interrupt (ready rw) :: .exchange (128 * k) (buf (128 * k)) :: after := by
  induction rounds with
  | nil => exact fun k from_ below => absurd below (by omega)
  | @cons c done asked signal later ask signals _ ih =>
    intro k from_ below
    by_cases here : k = c
    · obtain ⟨idle, first, second, _, signalled, rfl⟩ := signals
      have head : words c buf 128 = .exchange (128 * c) (buf (128 * c)) :: (words c buf 128).tail := by
        rfl
      refine ⟨asked ++ idle, first, second, (words c buf 128).tail ++ later, signalled, ?_⟩
      rw [here, head]
      simp
    · obtain ⟨before, first, second, after, signalled, rfl⟩ := ih k (by omega) (by omega)
      refine ⟨asked ++ (signal ++ (words c buf 128 ++ before)), first, second, after, signalled, ?_⟩
      simp

theorem rounds_addressed {ccs : Bool} {lba : Word} {rw : ReadWrite} {buf : Nat → Word}
    {c done : Nat} {l : List Event} (rounds : Rounds ccs lba rw buf c done l) (off : ccs = false)
    (card : Card) : (card.sees ccs l).addressed = card.addressed ++
      (List.range' c done).map fun k => ((lba + BitVec.ofNat 32 k) * 512).toNat := by
  induction rounds generalizing card with
  | nil => exact (List.append_nil _).symm
  | @cons c done asked signal later ask signals _ ih =>
    subst off
    have asks : Done (cmdSingle rw) ((lba + BitVec.ofNat 32 c) * 512) asked := ask
    rw [sees_append, sees_append, sees_append, sees_done asks, sees_signal signals, sees_words,
      ih, blocksOf_single, List.range'_succ]
    simp

/-! The whole of a transfer. -/

theorem blocks_toNat (num : Word) : (blocks num).toNat = max num.toNat 1 := by
  unfold blocks
  split_ifs with none
  · have zero : num.toNat < 1 := none
    rw [Nat.max_eq_right (Nat.le_of_lt zero)]
    rfl
  · have some : ¬ num.toNat < 1 := none
    rw [Nat.max_eq_left (Nat.le_of_not_lt some)]

/-- A transfer that started: its blocks, what was logged of one that was cut short and of the
    command behind them. -/
theorem transfer_log {lba num : Word} {rw : ReadWrite} {s t : Host} (buf : Nat → Word)
    (start : startTransfer lba (blocks num) rw s = (true, t)) : ∃ done m rest tail,
    (sdTransferblock lba buf num rw s).2.2.log = t.log ++ (m ++ (rest ++ tail)) ∧
    Rounds t.ccs lba rw (sdTransferblock lba buf num rw s).2.1 0 done m ∧
    done ≤ (blocks num).toNat ∧ exchanges rest = [] ∧ exchanges tail = [] ∧
    (∀ i, 128 * done ≤ i → (sdTransferblock lba buf num rw s).2.1 i = buf i) ∧
    ((sdTransferblock lba buf num rw s).1 = 0 ∨
      (sdTransferblock lba buf num rw s).1 = blocks num * 512 ∧ done = (blocks num).toNat ∧
        rest = [] ∧ ∀ code ∈ commands tail, code = cmdStopTrans) := by
  obtain ⟨done, m, rest, looped⟩ := blockLoop_traced lba rw (blocks num).toNat 0 buf t
  have others (i : Nat) (beyond : 128 * done ≤ i) := looped.others i (.inr (by omega))
  have logged := looped.log
  have rounds := looped.rounds
  have complete := looped.complete
  rcases loop : blockLoop lba rw (blocks num).toNat 0 (buf, t) with ⟨ok, buf', u⟩
  rw [loop] at others logged rounds complete
  cases ok with
  | false =>
    rw [transfer_broken start loop]
    exact ⟨done, m, rest, [], by rwa [List.append_nil], rounds, looped.within, looped.cut.1, rfl,
      others, .inl rfl⟩
  | true =>
    obtain ⟨all, none⟩ := complete rfl
    obtain ⟨tail, loggedTail, silent, codes, _⟩ := stopTransfer_traced (blocks num) u
    rw [transfer_complete start loop]
    refine ⟨done, m, rest, tail, ?_, rounds, looped.within, looped.cut.1, silent, others, ?_⟩
    · dsimp only at logged ⊢
      rw [loggedTail, logged, List.append_assoc, List.append_assoc]
    · dsimp only
      split_ifs
      · exact .inl rfl
      · exact .inr ⟨rfl, all, none, codes⟩

theorem size_blocks {num : Word} (small : num.toNat < 65536) :
    ((num <<< 16 ||| 512) >>> 16).toNat = num.toNat := by
  have shifted : num.toNat * 65536 < 2 ^ 32 := by omega
  have joined : num.toNat * 2 ^ 16 ||| 512 = num.toNat * 2 ^ 16 + 512 := by
    rw [← Nat.shiftLeft_eq]
    exact (Nat.shiftLeft_add_eq_or_of_lt (by decide) _).symm
  simp only [BitVec.toNat_ushiftRight, BitVec.toNat_or, BitVec.toNat_shiftLeft, Nat.shiftLeft_eq]
  rw [Nat.mod_eq_of_lt shifted]
  change (num.toNat * 2 ^ 16 ||| 512) >>> 16 = _
  rw [joined, Nat.shiftRight_eq_div_pow]
  omega

theorem blocksOf_start {num : Word} (rw : ReadWrite) (lba : Word) (small : num.toNat < 65536) :
    blocksOf true (cmdStart num rw) lba (num <<< 16 ||| 512) =
      (List.range num.toNat).map fun k => 512 * (lba.toNat + k) := by
  unfold cmdStart
  split_ifs with one
  · rw [blocksOf_single, one]
    rfl
  · rw [blocksOf_multi, size_blocks small]
    exact List.map_congr_left fun k _ => (Nat.mul_add _ _ _).symm

theorem byte_address {lba : Word} {k : Nat} (inCard : lba.toNat + k < 2 ^ 23) :
    ((lba + BitVec.ofNat 32 k) * 512).toNat = 512 * (lba.toNat + k) := by
  rw [BitVec.toNat_mul, BitVec.toNat_add, BitVec.toNat_ofNat]
  change (lba.toNat + k % 2 ^ 32) % 2 ^ 32 * 512 % 2 ^ 32 = _
  omega

theorem silent_sees {ccs : Bool} {l : List Event} (silent : commands l = []) (card : Card) :
    (card.sees ccs l).addressed = card.addressed :=
  sees_none (by rw [silent]; exact nofun) card

theorem blocksOf_none (ccs : Bool) {code : Word} (other : code = cmdSetBlockcnt ∨ code = cmdStopTrans)
    (arg size : Word) : blocksOf ccs code arg size = [] := by
  unfold blocksOf
  rcases other with rfl | rfl <;> exact (if_neg (by decide)).trans (if_neg (by decide))

theorem blocks_small {num : Word} (small : num.toNat < 65536) : (blocks num).toNat < 65536 := by
  rw [blocks_toNat]
  omega

theorem bytes_toNat {num : Word} (small : num.toNat < 65536) :
    (blocks num * 512).toNat = (blocks num).toNat * 512 := by
  have less := blocks_small small
  rw [BitVec.toNat_mul]
  change (blocks num).toNat * 512 % 2 ^ 32 = _
  omega

theorem transferred {lba num : Word} {rw : ReadWrite} {ccs : Bool} {buf : Nat → Word}
    {pre m tail : List Event} (before : exchanges pre = [])
    (rounds : Rounds ccs lba rw buf 0 (blocks num).toNat m) (behind : exchanges tail = [])
    (codes : ∀ code ∈ commands tail, code = cmdStopTrans)
    (asked : ∀ card : Card, ((card.sees ccs pre).sees ccs m).addressed =
      card.addressed ++ (List.range (blocks num).toNat).map fun k => 512 * (lba.toNat + k)) :
    Transferred lba (blocks num).toNat rw ccs buf (pre ++ (m ++ tail)) := by
  constructor
  · rw [exchanges_append, exchanges_append, before, behind, rounds_words rounds,
      List.range_eq_range', List.append_nil]
    rfl
  · intro c below
    obtain ⟨front, first, second, after, signalled, split⟩ :=
      rounds_ready rounds c (Nat.zero_le c) (by omega)
    refine ⟨pre ++ front, first, second, after ++ tail, signalled, ?_⟩
    rw [split]
    simp
  · intro card
    rw [sees_append, sees_append, ← asked]
    exact sees_none (fun code member => blocksOf_none ccs (.inr (codes code member))) _

theorem start_log {lba num : Word} {rw : ReadWrite} {s : Host} {p : Bool × Host}
    (begins : Start lba num rw s p) :
    ∃ l, p.2.log = s.log ++ l ∧ exchanges l = [] ∧ Keeps s p.2 := by
  cases begins with
  | unasked logged noWords _ keeps => exact ⟨_, logged, noWords, keeps⟩
  | failed logged noWords _ given keeps =>
    refine ⟨_, logged, ?_, keeps⟩
    rw [exchanges_append, noWords]
    exact (given_log given).2
  | started _ logged noWords _ done keeps =>
    refine ⟨_, logged, ?_, keeps⟩
    rw [exchanges_append, noWords]
    exact (done_log done).2
  | bytewise _ quiet logged keeps =>
    refine ⟨_, logged, ?_, keeps⟩
    rw [exchanges_append, exchanges_idle quiet]
    rfl

theorem start_asks {lba num : Word} {rw : ReadWrite} {s t : Host} {buf : Nat → Word}
    {pre m : List Event} (begins : Start lba (blocks num) rw s (true, t))
    (logged : t.log = s.log ++ pre) (small : num.toNat < 65536)
    (inCard : s.ccs = false → lba.toNat + num.toNat < 2 ^ 23)
    (rounds : Rounds s.ccs lba rw buf 0 (blocks num).toNat m) (card : Card) :
    ((card.sees s.ccs pre).sees s.ccs m).addressed = card.addressed ++
      (List.range (blocks num).toNat).map fun k => 512 * (lba.toNat + k) := by
  cases begins with
  | @started _ head l ccs loggedHead _ told done _ =>
    obtain rfl := List.append_cancel_left (logged.symm.trans loggedHead)
    have silent : commands m = [] := by
      refine List.eq_nil_iff_forall_not_mem.mpr fun code member => ?_
      have off := (rounds_commands rounds code member).1
      rw [ccs] at off
      cases off
    have same := @sees_none true head
      (fun code member => blocksOf_none true (.inl (told_codes told code member))) card
    rw [silent_sees silent, sees_append, ccs]
    change (((card.sees true head).takes true _).sees true l).addressed = _
    rw [sees_done done, ← blocksOf_start rw lba (blocks_small small), ← same]
    rfl
  | @bytewise _ idle off quiet loggedIdle _ =>
    obtain rfl := List.append_cancel_left (logged.symm.trans loggedIdle)
    rw [rounds_addressed rounds off, sees_append, sees_idle quiet]
    change card.addressed ++ _ = _
    rw [← List.range_eq_range']
    congr 1
    refine List.map_congr_left fun k member => byte_address ?_
    have below := List.mem_range.mp member
    have within := inCard off
    rw [blocks_toNat] at below
    omega

/-- `sd_transferblock` reports 0 or all of the bytes, and these only after the whole of the
    transfer; it never comes to a word behind its blocks. -/
theorem sdTransferblock_all_or_nothing {lba num : Word} {s : Host} (buf : Nat → Word)
    (rw : ReadWrite) (small : num.toNat < 65536)
    (inCard : s.ccs = false → lba.toNat + num.toNat < 2 ^ 23) :
    let n := max num.toNat 1
    let out := sdTransferblock lba buf num rw s
    let l := callLog lba buf num rw s
    (out.1 = 0 ∨ out.1.toNat = n * 512 ∧ Transferred lba n rw s.ccs out.2.1 l) ∧
      (∀ e ∈ exchanges l, e.1 < 128 * n) ∧ ∀ i, 128 * n ≤ i → out.2.1 i = buf i := by
  dsimp only
  have begins := startTransfer_start lba (blocks num) rw s
  unfold callLog
  rw [← blocks_toNat]
  rcases start : startTransfer lba (blocks num) rw s with ⟨goesOn, t⟩
  rw [start] at begins
  obtain ⟨pre, loggedPre, noWords, keeps⟩ := start_log begins
  dsimp only at loggedPre keeps
  cases goesOn with
  | false =>
    rw [transfer_unstarted buf start, loggedPre, List.drop_left, noWords]
    exact ⟨.inl rfl, nofun, fun _ _ => rfl⟩
  | true =>
    obtain ⟨done, m, rest, tail, logged, rounds, within, cut, behind, others, result⟩ :=
      transfer_log buf start
    rw [keeps.ccs] at rounds
    rw [logged, loggedPre, List.append_assoc, List.drop_left]
    refine ⟨?_, fun e member => ?_, fun i beyond => others i (by omega)⟩
    · rcases result with none | ⟨all, rfl, rfl, codes⟩
      · exact .inl none
      · refine .inr ⟨by rw [all, bytes_toNat small], ?_⟩
        exact transferred noWords rounds behind codes
          fun card => start_asks begins loggedPre small inCard rounds card
    · rw [exchanges_append, exchanges_append, exchanges_append, noWords, cut, behind,
        rounds_words rounds, List.nil_append, List.append_nil, List.append_nil] at member
      obtain ⟨i, range, rfl⟩ := List.mem_map.mp member
      have bounds := List.mem_range'_1.mp range
      dsimp only
      omega

def Event.interrupt : Event → Option Word
  | .read .interrupt value => some value
  | _ => none

def cardSignalling (sdScr0 : BitVec 64) (interrupt : Nat → Word) : Host where
  answers := fun r n => if r = .interrupt then interrupt n else 0
  reads := fun _ => 0
  log := []
  sdScr0 := sdScr0
  sdScr1 := 0
  sdRca := 0
  sdErr := 0
  sdHv := 0

/-- Two blocks of a byte-addressed card. -/
theorem sdTransferblock_two_blocks :
    let s := cardSignalling 0 fun _ => intCmdDone ||| intReadRdy
    let out := sdTransferblock 7 (fun _ => 0) 2 .sdReadblock s
    out.1.toNat = 2 * 512 ∧
      Transferred 7 2 .sdReadblock s.ccs out.2.1 (callLog 7 (fun _ => 0) 2 .sdReadblock s) := by
  have moved := @sdTransferblock_all_or_nothing 7 2
    (cardSignalling 0 fun _ => intCmdDone ||| intReadRdy) (fun _ => 0) .sdReadblock
    (by decide) (fun _ => by decide)
  have reports : (sdTransferblock 7 (fun _ => 0) 2 .sdReadblock
      (cardSignalling 0 fun _ => intCmdDone ||| intReadRdy)).1 ≠ 0 := by decide +kernel
  exact moved.1.resolve_left reports

/-- INTERRUPT shows an error, and then nothing: the block is taken without its interrupt. -/
theorem sdTransferblock_unready :
    let s := cardSignalling scrSuppCcs fun n =>
      if n < 5 then intCmdDone else if n = 5 then 0x00200000 else 0
    (sdTransferblock 0 (fun _ => 0) 1 .sdReadblock s).1 = 512 ∧
      ∀ value, .read .interrupt value ∈ callLog 0 (fun _ => 0) 1 .sdReadblock s →
        value &&& intReadRdy = 0 := by
  dsimp only
  refine ⟨by decide +kernel, fun value member => ?_⟩
  have never : ∀ e ∈ callLog 0 (fun _ => 0) 1 .sdReadblock (cardSignalling scrSuppCcs fun n =>
      if n < 5 then intCmdDone else if n = 5 then 0x00200000 else 0),
      e.interrupt.all (fun shown => shown &&& intReadRdy = 0) := by
    decide +kernel
  exact of_decide_eq_true (never _ member)

end Emmc
