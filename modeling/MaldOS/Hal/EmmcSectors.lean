import MaldOS.Hal.EmmcMedium

/-!
`sd_transferblock` at the registers does what `Sd.sdTransferblock` says it does to
the sectors, for any client that goes by the results it has seen so far.
-/
namespace Emmc
open Arch Polling Slices ByteMemory Runs

/-! What a transfer leaves as it was. -/

theorem exchangeBlock_writes (c : Nat) (p : (Nat → Word) × Host) :
    (exchangeBlock .sdWriteblock c p).1 = p.1 := by
  unfold exchangeBlock
  have each : ∀ (ds : List Nat) (p : (Nat → Word) × Host),
      (ds.foldl (fun p d => exchange .sdWriteblock p (128 * c + d)) p).1 = p.1 := by
    intro ds
    induction ds with
    | nil => exact fun _ => rfl
    | cons d ds ih => exact fun p => ih _
  exact each _ p

theorem blockLoop_writes (lba : Word) (left c : Nat) (p : (Nat → Word) × Host) :
    (blockLoop lba .sdWriteblock left c p).2.1 = p.1 := by
  induction left generalizing c p with
  | zero => rfl
  | succ left ih =>
    unfold blockLoop
    dsimp only
    split_ifs
    · rfl
    · rfl
    · rw [ih, exchangeBlock_writes]

theorem transfer_writes (lba : Word) (buf : Nat → Word) (num : Word) (s : Host) :
    (sdTransferblock lba buf num .sdWriteblock s).2.1 = buf := by
  rcases start : startTransfer lba (blocks num) .sdWriteblock s with ⟨goesOn, t⟩
  cases goesOn with
  | false => rw [transfer_unstarted buf start]
  | true =>
    have same := blockLoop_writes lba (blocks num).toNat 0 (buf, t)
    rcases loop : blockLoop lba .sdWriteblock (blocks num).toNat 0 (buf, t) with ⟨ok, buf', u⟩
    rw [loop] at same
    cases ok with
    | false =>
      rw [transfer_broken start loop]
      exact same
    | true =>
      rw [transfer_complete start loop]
      exact same

theorem stopTransfer_keeps (num : Word) (s : Host) : Keeps s (stopTransfer num s) := by
  unfold stopTransfer
  split_ifs
  · exact sdCmd_keeps _ _ s
  · exact Keeps.refl s

theorem transfer_keeps (lba : Word) (buf : Nat → Word) (num : Word) (rw : ReadWrite) (s : Host) :
    Keeps s (sdTransferblock lba buf num rw s).2.2 := by
  have begins := startTransfer_start lba (blocks num) rw s
  rcases start : startTransfer lba (blocks num) rw s with ⟨goesOn, t⟩
  rw [start] at begins
  obtain ⟨_, _, _, keeps⟩ := start_log begins
  cases goesOn with
  | false =>
    rw [transfer_unstarted buf start]
    exact keeps
  | true =>
    obtain ⟨_, _, _, looped⟩ := blockLoop_traced lba rw (blocks num).toNat 0 buf t
    have kept := looped.keeps
    rcases loop : blockLoop lba rw (blocks num).toNat 0 (buf, t) with ⟨ok, buf', u⟩
    rw [loop] at kept
    cases ok with
    | false =>
      rw [transfer_broken start loop]
      exact keeps.trans kept
    | true =>
      rw [transfer_complete start loop]
      exact (keeps.trans kept).trans (stopTransfer_keeps _ _)

/-! What a transfer moves. -/

theorem start_due {lba num : Word} {rw : ReadWrite} {s t : Host} {pre : List Event}
    (begins : Start lba (blocks num) rw s (true, t)) (logged : t.log = s.log ++ pre)
    (small : num.toNat < 65536) (m : Medium) :
    Due s.ccs lba rw 0 (blocks num).toNat (m.after s.ccs pre) := by
  intro on
  cases begins with
  | @started _ head l ccs loggedHead _ _ done _ =>
    obtain rfl := List.append_cancel_left (logged.symm.trans loggedHead)
    have last := @after_done true _ _ _ done
      ((m.after true head).takes true (.write .blksizecnt (blocks num <<< 16 ||| 512)))
    have whole : m.after true (head ++ .write .blksizecnt (blocks num <<< 16 ||| 512) :: l) =
        ((m.after true head).takes true (.write .blksizecnt (blocks num <<< 16 ||| 512))).after
          true l := run_append _ m _ _
    rw [on, whole, last]
    refine ⟨start_writes (blocks num) rw, (blocks num).toNat, le_rfl, ?_⟩
    change (blocksOf true _ lba (blocks num <<< 16 ||| 512)).flatMap _ = _
    rw [blocksOf_start rw lba (blocks_small small), List.flatMap_map, List.range_eq_range']
    rfl
  | bytewise off => exact absurd (off.symm.trans on) Bool.false_ne_true

/-- A transfer moves its first blocks, and all of them if it reports so. -/
structure Moved (lba : Word) (buf : Nat → Word) (num : Word) (rw : ReadWrite) (s : Host)
    (m : Medium) (done : Nat) : Prop where
  within : done ≤ (blocks num).toNat
  moves : Moves s.ccs rw.writes (512 * lba.toNat) (512 * done)
    (bytesOf (sdTransferblock lba buf num rw s).2.1) m (callLog lba buf num rw s)
  others : ∀ i, 128 * done ≤ i → (sdTransferblock lba buf num rw s).2.1 i = buf i
  log : (sdTransferblock lba buf num rw s).2.2.log = s.log ++ callLog lba buf num rw s
  result : (sdTransferblock lba buf num rw s).1 = 0 ∨
    (sdTransferblock lba buf num rw s).1 = blocks num * 512 ∧ done = (blocks num).toNat

theorem transfer_moved {lba num : Word} {s : Host} (buf : Nat → Word) (rw : ReadWrite)
    (small : num.toNat < 65536) (inCard : s.ccs = false → lba.toNat + num.toNat < 2 ^ 23)
    (m : Medium) : ∃ done, Moved lba buf num rw s m done := by
  have begins := startTransfer_start lba (blocks num) rw s
  rcases start : startTransfer lba (blocks num) rw s with ⟨goesOn, t⟩
  rw [start] at begins
  obtain ⟨pre, loggedPre, noWords, keeps⟩ := start_log begins
  dsimp only at loggedPre keeps
  cases goesOn with
  | false =>
    have whole : callLog lba buf num rw s = pre := by
      unfold callLog
      rw [transfer_unstarted buf start, loggedPre, List.drop_left]
    refine ⟨0, Nat.zero_le _, ?_, ?_, ?_, ?_⟩
    · rw [whole]
      exact moves_silent noWords
    · rw [transfer_unstarted buf start]
      exact fun _ _ => rfl
    · rw [whole, transfer_unstarted buf start]
      exact loggedPre
    · rw [transfer_unstarted buf start]
      exact Or.inl rfl
  | true =>
    obtain ⟨done, l, rest, tail, logged, rounds, within, cut, behind, others, result⟩ :=
      transfer_log buf start
    rw [loggedPre, List.append_assoc] at logged
    rw [keeps.ccs] at rounds
    have whole : callLog lba buf num rw s = pre ++ (l ++ (rest ++ tail)) := by
      unfold callLog
      rw [logged, List.drop_left]
    have due : Due s.ccs lba rw 0 done (m.after s.ccs pre) := by
      intro on
      obtain ⟨writing, left, enough, all⟩ := start_due begins loggedPre small m on
      exact ⟨writing, left, Nat.le_trans within enough, all⟩
    have moved := rounds_moved rounds due fun off => by
      have below := inCard off
      rw [blocks_toNat] at within
      omega
    have behindAll : exchanges (rest ++ tail) = [] := by
      rw [exchanges_append, cut, behind]
      rfl
    refine ⟨done, within, ?_, others, ?_, ?_⟩
    · rw [whole]
      apply moves_front noWords
      apply moves_behind _ behindAll
      simpa using moved
    · rw [whole]
      exact logged
    · rcases result with none | ⟨all, most, -, -⟩
      · exact Or.inl none
      · exact Or.inr ⟨all, most⟩

/-! The two levels. -/

structure Request where
  lba : Word
  num : Word
  buf : Nat → Word
  rw : ReadWrite

abbrev Reply := Int × (Nat → Byte)

def ReadWrite.level : ReadWrite → Sd.ReadWrite
  | .sdReadblock => .sdReadblock
  | .sdWriteblock => .sdWriteblock

def Request.atHost (q : Request) (s : Host) : Reply × Host :=
  let (r, buf, s) := sdTransferblock q.lba q.buf q.num q.rw s
  (((r.toNat : Int), bytesOf buf), s)

def Request.buffer (q : Request) : Buffer Byte := ⟨512 * (blocks q.num).toNat, bytesOf q.buf, false⟩

def Request.atCard (q : Request) (c : Sd.Card) : Reply × Sd.Card :=
  let (r, buffer, c) := Sd.sdTransferblock c q.lba.toNat q.buffer q.num.toNat q.rw.level
  ((r, buffer.get), c)

/-- `n` transfers, each as the client asks for it after the replies it has `seen`. -/
def transfers {S : Type} (ask : Request → S → Reply × S) (client : List Reply → Request) :
    Nat → List Reply → S → List Reply × S
  | 0, seen, s => (seen, s)
  | n + 1, seen, s =>
    let (reply, s) := ask (client seen) s
    transfers ask client n (seen ++ [reply]) s

structure Fits (ccs : Bool) (q : Request) : Prop where
  small : q.num.toNat < 65536
  inCard : ccs = false → q.lba.toNat + q.num.toNat < 2 ^ 23

theorem level_blocks (num : Word) :
    (if u32 num.toNat < 1 then 1 else u32 num.toNat) = (blocks num).toNat := by
  have same : u32 num.toNat = num.toNat := Nat.mod_eq_of_lt num.isLt
  rw [same, blocks_toNat]
  split_ifs <;> omega

theorem bytesOf_others {buf buf' : Nat → Word} {n : Nat} (others : ∀ i, 128 * n ≤ i → buf' i = buf i)
    {i : Nat} (beyond : 512 * n ≤ i) : bytesOf buf' i = bytesOf buf i := by
  unfold bytesOf
  rw [others (i / 4) (by omega)]

def faultOf (r : Word) (done : Nat) : Option Nat := if r = 0 then some done else none

theorem outcome_moved {num r : Word} {done : Nat} (small : num.toNat < 65536)
    (within : done ≤ (blocks num).toNat)
    (result : r = 0 ∨ r = blocks num * 512 ∧ done = (blocks num).toNat) {c : Sd.Card}
    (fault : c.fault c.issued = faultOf r done) :
    Sd.outcome c (blocks num).toNat = (done, decide (r ≠ 0)) ∧
      (r ≠ 0 → r.toNat = (blocks num).toNat * 512) := by
  unfold Sd.outcome
  rw [fault]
  unfold faultOf
  by_cases none : r = 0
  · subst none
    exact ⟨Prod.ext (Nat.min_eq_left within) rfl, fun wrong => absurd rfl wrong⟩
  · obtain ⟨all, most⟩ := result.resolve_left none
    rw [if_neg none]
    refine ⟨Prod.ext most.symm (decide_eq_true none).symm, fun _ => ?_⟩
    rw [all, bytes_toNat small]

theorem transfer_refines {q : Request} {s : Host} (fits : Fits s.ccs q) {m : Medium}
    (served : Served s.ccs m (callLog q.lba q.buf q.num q.rw s)) :
    ∃ fault : Option Nat, ∀ c : Sd.Card, c.bytes = m.bytes → c.fault c.issued = fault →
      (q.atCard c).1 = (q.atHost s).1 ∧
      (q.atCard c).2 = { c with
        bytes := (m.after s.ccs (callLog q.lba q.buf q.num q.rw s)).bytes, issued := c.issued + 1 } := by
  obtain ⟨lba, num, buf, rw_⟩ := q
  obtain ⟨done, moved⟩ := transfer_moved buf rw_ fits.small fits.inCard m
  refine ⟨faultOf (sdTransferblock lba buf num rw_ s).1 done, ?_⟩
  intro c bytes fault
  obtain ⟨outcome, count⟩ := outcome_moved fits.small moved.within moved.result fault
  have unit : u32 lba.toNat = lba.toNat := Nat.mod_eq_of_lt lba.isLt
  have number : (if decide ((sdTransferblock lba buf num rw_ s).1 ≠ 0) = true then
      ((blocks num).toNat : Int) * 512 else 0) = (sdTransferblock lba buf num rw_ s).1.toNat := by
    by_cases none : (sdTransferblock lba buf num rw_ s).1 = 0
    · rw [none]
      rfl
    · rw [if_pos (decide_eq_true none), count none]
      push_cast
      rfl
  unfold Request.atCard Request.atHost Sd.sdTransferblock
  dsimp only
  rw [level_blocks, outcome, unit]
  cases rw_ with
  | sdReadblock =>
    have kept := moved.moves.kept rfl
    have given := moved.moves.given rfl served
    refine ⟨Prod.ext number ?_, ?_⟩
    · dsimp only [ReadWrite.level]
      rw [put_get]
      funext i
      by_cases inside : i < done * 512
      · rw [blit_front _ _ inside, bytes, given i (by omega), Nat.mul_comm lba.toNat]
      · rw [blit_outside (by omega)]
        exact (bytesOf_others moved.others (by omega)).symm
    · dsimp only [ReadWrite.level]
      rw [kept, ← bytes]
  | sdWriteblock =>
    have stored := moved.moves.stored rfl
    have same := transfer_writes lba buf num s
    refine ⟨Prod.ext number ?_, ?_⟩
    · dsimp only [ReadWrite.level]
      rw [touch_get, same]
      rfl
    · dsimp only [ReadWrite.level]
      rw [stored, same, bytes, Nat.mul_comm lba.toNat, Nat.mul_comm done]
      rfl

def transferLog (client : List Reply → Request) (n : Nat) (seen : List Reply) (s : Host) :
    List Event := (transfers Request.atHost client n seen s).2.log.drop s.log.length

theorem atHost_log {q : Request} {s : Host} (fits : Fits s.ccs q) :
    (q.atHost s).2.log = s.log ++ callLog q.lba q.buf q.num q.rw s ∧ (q.atHost s).2.ccs = s.ccs := by
  obtain ⟨done, moved⟩ := transfer_moved q.buf q.rw fits.small fits.inCard ⟨fun _ => 0, 0, 0, [], false⟩
  exact ⟨moved.log, (transfer_keeps q.lba q.buf q.num q.rw s).ccs⟩

theorem transfers_log (client : List Reply → Request) (n : Nat) (seen : List Reply) {s : Host}
    (fits : ∀ seen, Fits s.ccs (client seen)) :
    (transfers Request.atHost client n seen s).2.log = s.log ++ transferLog client n seen s := by
  have later : ∀ (n : Nat) (seen : List Reply) (s : Host), (∀ seen, Fits s.ccs (client seen)) →
      ∃ l, (transfers Request.atHost client n seen s).2.log = s.log ++ l := by
    intro n
    induction n with
    | zero => exact fun _ s _ => ⟨[], (List.append_nil _).symm⟩
    | succ n ih =>
      intro seen s fits
      obtain ⟨logged, ccs⟩ := atHost_log (fits seen)
      obtain ⟨l, rest⟩ := ih (seen ++ [((client seen).atHost s).1]) ((client seen).atHost s).2
        (ccs.symm ▸ fits)
      refine ⟨callLog (client seen).lba (client seen).buf (client seen).num (client seen).rw s ++ l,
        ?_⟩
      rw [← List.append_assoc, ← logged]
      exact rest
  obtain ⟨l, logged⟩ := later n seen s fits
  unfold transferLog
  rw [logged, List.drop_left]

theorem transferLog_succ (client : List Reply → Request) (n : Nat) (seen : List Reply) {s : Host}
    (fits : ∀ seen, Fits s.ccs (client seen)) :
    transferLog client (n + 1) seen s =
      callLog (client seen).lba (client seen).buf (client seen).num (client seen).rw s ++
        transferLog client n (seen ++ [((client seen).atHost s).1]) ((client seen).atHost s).2 := by
  obtain ⟨logged, ccs⟩ := atHost_log (fits seen)
  have whole := transfers_log client (n + 1) seen fits
  have rest := transfers_log client n (seen ++ [((client seen).atHost s).1]) (ccs.symm ▸ fits)
  rw [logged, List.append_assoc] at rest
  exact List.append_cancel_left (whole.symm.trans rest)

def before (fault : Option Nat) (faults : Nat → Option Nat) : Nat → Option Nat
  | 0 => fault
  | k + 1 => faults k

/-- However a client goes on from what it has seen, the registers and a card behind them do what
    the sectors do with faults at the transfers that report none of their bytes. -/
theorem transfers_refine (client : List Reply → Request) (n : Nat) (seen : List Reply) {s : Host}
    (fits : ∀ seen, Fits s.ccs (client seen)) {m : Medium}
    (served : Served s.ccs m (transferLog client n seen s)) :
    ∃ faults : Nat → Option Nat, ∀ c : Sd.Card, c.bytes = m.bytes →
      (∀ k, c.fault (c.issued + k) = faults k) →
      (transfers Request.atCard client n seen c).1 = (transfers Request.atHost client n seen s).1 ∧
      (transfers Request.atCard client n seen c).2.bytes =
        (m.after s.ccs (transferLog client n seen s)).bytes := by
  induction n generalizing seen s m with
  | zero =>
    have none : transferLog client 0 seen s = [] := List.drop_length
    refine ⟨fun _ => Option.none, ?_⟩
    intro c bytes _
    rw [none]
    exact ⟨rfl, bytes⟩
  | succ n ih =>
    rw [transferLog_succ client n seen fits] at served ⊢
    obtain ⟨now, later⟩ := (along_append _ _ m _ _).mp served
    obtain ⟨logged, ccs⟩ := atHost_log (fits seen)
    obtain ⟨fault, one⟩ := transfer_refines (fits seen) now
    rw [← ccs] at later
    obtain ⟨faults, rest⟩ := ih (seen ++ [((client seen).atHost s).1]) (ccs.symm ▸ fits) later
    refine ⟨before fault faults, ?_⟩
    intro c bytes agree
    obtain ⟨reply, card⟩ := one c bytes (agree 0)
    have next := rest ((client seen).atCard c).2 (by rw [card, ccs]) (by
      intro k
      rw [card]
      have further := agree (k + 1)
      rwa [show c.issued + (k + 1) = c.issued + 1 + k by omega] at further)
    have first : transfers Request.atCard client (n + 1) seen c =
        transfers Request.atCard client n (seen ++ [((client seen).atHost s).1])
          ((client seen).atCard c).2 := by
      rw [← reply]
      rfl
    rw [ccs] at next
    rw [first, Medium.after, run_append]
    exact next

def sampleClient (seen : List Reply) : Request :=
  if seen.length = 0 then ⟨7, 1, fun _ => 5, .sdReadblock⟩ else ⟨8, 1, fun _ => 5, .sdWriteblock⟩

def blankMedium : Medium := ⟨fun _ => 0, 0, 0, [], false⟩

def readyCard : Host := cardSignalling 0 fun _ => intCmdDone ||| intReadRdy ||| intWriteRdy

theorem transfers_refine_sample :
    ∃ faults : Nat → Option Nat, ∀ c : Sd.Card, c.bytes = blankMedium.bytes →
      (∀ k, c.fault (c.issued + k) = faults k) →
      (transfers Request.atCard sampleClient 2 [] c).1 =
        (transfers Request.atHost sampleClient 2 [] readyCard).1 ∧
      (transfers Request.atCard sampleClient 2 [] c).2.bytes =
        (blankMedium.after readyCard.ccs (transferLog sampleClient 2 [] readyCard)).bytes := by
  apply transfers_refine
  · intro seen
    unfold sampleClient
    split_ifs
    · exact ⟨by decide, fun _ => by decide⟩
    · exact ⟨by decide, fun _ => by decide⟩
  · decide +kernel

end Emmc
