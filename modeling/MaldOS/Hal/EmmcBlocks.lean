import MaldOS.Hal.EmmcCommands
import Mathlib.Data.List.Range

/-!
The log of a transfer: how it begins and what each block adds to it.
-/
namespace Emmc
open Polling

def command : Event → Option Word
  | .write .cmdtm code => some code
  | _ => none

def commands (l : List Event) : List Word := l.filterMap command

def exchanged : Event → Option (Nat × Word)
  | .exchange index value => some (index, value)
  | _ => none

def exchanges (l : List Event) : List (Nat × Word) := l.filterMap exchanged

@[simp] theorem commands_append (l m : List Event) :
    commands (l ++ m) = commands l ++ commands m := List.filterMap_append

@[simp] theorem exchanges_append (l m : List Event) :
    exchanges (l ++ m) = exchanges l ++ exchanges m := List.filterMap_append

theorem idle_command {e : Event} (idle : Idle e) : command e = none := by
  cases e with
  | write r value =>
    have interrupt : r = .interrupt := idle
    rw [interrupt]
    rfl
  | _ => rfl

theorem idle_exchanged {e : Event} (idle : Idle e) : exchanged e = none := by
  cases e with
  | exchange _ _ => exact absurd idle id
  | _ => rfl

theorem commands_idle {l : List Event} (idle : AllIdle l) : commands l = [] :=
  List.filterMap_eq_nil_iff.mpr fun e member => idle_command (idle e member)

theorem exchanges_idle {l : List Event} (idle : AllIdle l) : exchanges l = [] :=
  List.filterMap_eq_nil_iff.mpr fun e member => idle_exchanged (idle e member)

theorem given_log {code arg : Word} {l : List Event} (given : Given code arg l) :
    commands l = [code] ∧ exchanges l = [] := by
  obtain ⟨before, after, idle, idleAfter, rfl⟩ := given
  constructor
  · rw [commands_append, commands_idle idle]
    exact congrArg (code :: ·) (commands_idle idleAfter)
  · rw [exchanges_append, exchanges_idle idle]
    exact exchanges_idle (l := after) idleAfter

theorem done_log {code arg : Word} {l : List Event} (done : Done code arg l) :
    commands l = [code] ∧ exchanges l = [] := by
  obtain ⟨begun, value, given, rfl⟩ := done
  obtain ⟨codes, words⟩ := given_log given
  constructor
  · rw [commands_append, codes]
    rfl
  · rw [exchanges_append, words]
    rfl

theorem signal_log {mask : Word} {l : List Event} (signal : Signal mask l) :
    commands l = [] ∧ exchanges l = [] := by
  obtain ⟨idle, _, _, quiet, _, rfl⟩ := signal
  constructor
  · rw [commands_append, commands_idle quiet]
    rfl
  · rw [exchanges_append, exchanges_idle quiet]
    rfl

/-! The words of a block. -/

def words (c : Nat) (buf : Nat → Word) (n : Nat) : List Event :=
  (List.range n).map fun d => .exchange (128 * c + d) (buf (128 * c + d))

theorem exchange_spec (rw : ReadWrite) (p : (Nat → Word) × Host) (index : Nat) :
    (exchange rw p index).2.log = p.2.log ++ [.exchange index ((exchange rw p index).1 index)] ∧
      (∀ i, i ≠ index → (exchange rw p index).1 i = p.1 i) ∧ Keeps p.2 (exchange rw p index).2 := by
  cases rw with
  | sdReadblock =>
    refine ⟨?_, fun i other => Function.update_of_ne other _ _, rfl, rfl, rfl⟩
    unfold exchange
    dsimp only
    rw [Function.update_self]
  | sdWriteblock => exact ⟨rfl, fun _ _ => rfl, rfl, rfl, rfl⟩

theorem exchanged_prefix (rw : ReadWrite) (c : Nat) (p : (Nat → Word) × Host) (n : Nat) :
    let q := (List.range n).foldl (fun p d => exchange rw p (128 * c + d)) p
    q.2.log = p.2.log ++ words c q.1 n ∧
      (∀ i, i < 128 * c ∨ 128 * c + n ≤ i → q.1 i = p.1 i) ∧ Keeps p.2 q.2 := by
  induction n with
  | zero => exact ⟨(List.append_nil _).symm, fun _ _ => rfl, rfl, rfl, rfl⟩
  | succ n ih =>
    obtain ⟨logged, others, keeps⟩ := ih
    rw [List.range_succ, List.foldl_append]
    generalize (List.range n).foldl (fun p d => exchange rw p (128 * c + d)) p = q at logged others keeps
    obtain ⟨last, untouched, kept⟩ := exchange_spec rw q (128 * c + n)
    dsimp only [List.foldl_cons, List.foldl_nil]
    refine ⟨?_, fun i outside => ?_, keeps.trans kept⟩
    · have earlier : words c q.1 n = words c (exchange rw q (128 * c + n)).1 n := by
        refine List.map_congr_left fun d below => ?_
        rw [untouched _ (by have := List.mem_range.mp below; omega)]
      rw [last, logged, earlier, List.append_assoc]
      unfold words
      rw [List.range_succ, List.map_append]
      rfl
    · rw [untouched i (by omega), others i (by omega)]

theorem exchangeBlock_spec (rw : ReadWrite) (c : Nat) (p : (Nat → Word) × Host) :
    (exchangeBlock rw c p).2.log = p.2.log ++ words c (exchangeBlock rw c p).1 128 ∧
      (∀ i, i < 128 * c ∨ 128 * c + 128 ≤ i → (exchangeBlock rw c p).1 i = p.1 i) ∧
      Keeps p.2 (exchangeBlock rw c p).2 := by
  unfold exchangeBlock
  exact exchanged_prefix rw c p 128

/-! The loop over the blocks. -/

def Asked (ccs : Bool) (lba : Word) (rw : ReadWrite) (c : Nat) (l : List Event) : Prop :=
  if ccs then l = [] else Done (cmdSingle rw) ((lba + BitVec.ofNat 32 c) * 512) l

/-- The log of `done` blocks from number `c` on. The buffer is that at the end. -/
inductive Rounds (ccs : Bool) (lba : Word) (rw : ReadWrite) (buf : Nat → Word) :
    Nat → Nat → List Event → Prop
  | nil (c : Nat) : Rounds ccs lba rw buf c 0 []
  | cons {c done : Nat} {asked signal later : List Event} : Asked ccs lba rw c asked →
      Signal (ready rw) signal → Rounds ccs lba rw buf (c + 1) done later →
      Rounds ccs lba rw buf c (done + 1) (asked ++ (signal ++ (words c buf 128 ++ later)))

/-- What is logged of a block that does not come to its words. -/
def CutShort (ccs : Bool) (rw : ReadWrite) (l : List Event) : Prop :=
  exchanges l = [] ∧ ∀ code ∈ commands l, ccs = false ∧ code = cmdSingle rw

/-- The loop in a state `s`: so many blocks are `done`, and it gives `result`. -/
structure Looped (lba : Word) (rw : ReadWrite) (left c : Nat) (buf : Nat → Word) (s : Host)
    (result : Bool × (Nat → Word) × Host) (done : Nat) (l rest : List Event) : Prop where
  log : result.2.2.log = s.log ++ (l ++ rest)
  rounds : Rounds s.ccs lba rw result.2.1 c done l
  others : ∀ i, i < 128 * c ∨ 128 * (c + done) ≤ i → result.2.1 i = buf i
  cut : CutShort s.ccs rw rest
  within : done ≤ left
  complete : result.1 = true → done = left ∧ rest = []
  keeps : Keeps s result.2.2

theorem Keeps.refl (s : Host) : Keeps s s := ⟨rfl, rfl, rfl⟩

theorem Keeps.ccs {s t : Host} (keeps : Keeps s t) : t.ccs = s.ccs := by
  unfold Host.ccs
  rw [keeps.sdScr0]

theorem Keeps.setBlkcnt {s t : Host} (keeps : Keeps s t) : t.setBlkcnt = s.setBlkcnt := by
  unfold Host.setBlkcnt
  rw [keeps.sdScr0]

theorem cutShort_idle {l : List Event} (ccs : Bool) (rw : ReadWrite) (idle : AllIdle l) :
    CutShort ccs rw l := by
  refine ⟨exchanges_idle idle, fun code member => ?_⟩
  rw [commands_idle idle] at member
  cases member

theorem cutShort_append {ccs : Bool} {rw : ReadWrite} {l m : List Event}
    (one : CutShort ccs rw l) (other : CutShort ccs rw m) : CutShort ccs rw (l ++ m) := by
  refine ⟨?_, fun code member => ?_⟩
  · rw [exchanges_append, one.1, other.1]
    rfl
  · rw [commands_append] at member
    exact (List.mem_append.mp member).elim (one.2 code) (other.2 code)

theorem single_ordinary (rw : ReadWrite) : Ordinary (cmdSingle rw) := by cases rw <;> decide

theorem cutShort_single {rw : ReadWrite} {l : List Event} (codes : commands l = [cmdSingle rw])
    (none : exchanges l = []) : CutShort false rw l := by
  refine ⟨none, fun code member => ⟨rfl, ?_⟩⟩
  rw [codes] at member
  exact List.mem_singleton.mp member

theorem askBlock_traced (lba : Word) (rw : ReadWrite) (c : Nat) (s : Host) :
    Keeps s (askBlock lba rw c s) ∧ ∃ l, (askBlock lba rw c s).log = s.log ++ l ∧
      CutShort s.ccs rw l ∧ (s.ccs = true ∨ (askBlock lba rw c s).sdErr = 0 → Asked s.ccs lba rw c l) := by
  unfold askBlock
  by_cases ccs : s.ccs = true
  · rw [if_pos ccs]
    refine ⟨Keeps.refl s, [], (List.append_nil _).symm, ⟨rfl, nofun⟩, fun _ => ?_⟩
    unfold Asked
    rw [if_pos ccs]
  · rw [if_neg ccs]
    refine ⟨sdCmd_keeps _ _ s, ?_⟩
    have off : s.ccs = false := Bool.eq_false_iff.mpr ccs
    rw [off]
    cases sdCmd_traced (single_ordinary rw) ((lba + BitVec.ofNat 32 c) * 512) s with
    | @refused l _ idle logged fails =>
      refine ⟨l, logged, cutShort_idle _ rw idle, fun right => ?_⟩
      exact absurd (right.resolve_left (by simp)) fails
    | @failed l _ given logged fails =>
      obtain ⟨codes, none⟩ := given_log given
      refine ⟨l, logged, cutShort_single codes none, fun right => ?_⟩
      exact absurd (right.resolve_left (by simp)) fails
    | @done l _ done logged _ =>
      obtain ⟨codes, none⟩ := done_log done
      exact ⟨l, logged, cutShort_single codes none, fun _ => done⟩

theorem blockLoop_traced (lba : Word) (rw : ReadWrite) (left c : Nat) (buf : Nat → Word)
    (s : Host) : ∃ done l rest,
      Looped lba rw left c buf s (blockLoop lba rw left c (buf, s)) done l rest := by
  induction left generalizing c buf s with
  | zero =>
    exact ⟨0, [], [], (List.append_nil _).symm, .nil c, fun _ _ => rfl, ⟨rfl, nofun⟩,
      Nat.le_refl 0, fun _ => ⟨rfl, rfl⟩, Keeps.refl s⟩
  | succ left ih =>
    obtain ⟨kept, asked, loggedAsked, cut, accepted⟩ := askBlock_traced lba rw c s
    have waited := sdInt_quiet (ready rw) (askBlock lba rw c s)
    rw [blockLoop]
    dsimp only
    generalize askBlock lba rw c s = u at kept loggedAsked accepted waited ⊢
    by_cases refused : (!u.ccs) = true ∧ u.sdErr ≠ 0
    · rw [if_pos refused]
      exact ⟨0, [], asked, loggedAsked, .nil c, fun _ _ => rfl, cut, Nat.zero_le _, nofun, kept⟩
    · rw [if_neg refused]
      by_cases unready : (sdInt (ready rw) u).1 ≠ 0
      · obtain ⟨idle, logged, quiet⟩ := waited.log
        rw [if_pos unready]
        refine ⟨0, [], asked ++ idle, ?_, .nil c, fun _ _ => rfl,
          cutShort_append cut (cutShort_idle _ rw quiet), Nat.zero_le _, nofun,
          kept.trans (waited.keeps.trans (setErr_keeps _ _))⟩
        change (sdInt (ready rw) u).2.log = _
        rw [logged, loggedAsked, List.append_assoc]
        rfl
      · obtain ⟨signal, found, loggedSignal⟩ := sdInt_signal (not_not.mp unready)
        rw [if_neg unready]
        generalize (sdInt (ready rw) u).2 = v at waited loggedSignal ⊢
        obtain ⟨loggedWords, others, keptWords⟩ := exchangeBlock_spec rw c (buf, v)
        generalize exchangeBlock rw c (buf, v) = q at loggedWords others keptWords ⊢
        have keeps : Keeps s q.2 := kept.trans (waited.keeps.trans keptWords)
        have right : s.ccs = true ∨ u.sdErr = 0 := by
          by_contra wrong
          obtain ⟨off, fails⟩ := not_or.mp wrong
          refine refused ⟨?_, fails⟩
          rw [kept.ccs]
          simpa using off
        obtain ⟨done, l, rest, loop⟩ := ih (c + 1) q.1 q.2
        have same : words c q.1 128 = words c (blockLoop lba rw left (c + 1) q).2.1 128 := by
          refine List.map_congr_left fun d below => ?_
          have within := List.mem_range.mp below
          rw [← loop.others _ (by omega)]
        refine ⟨done + 1,
          asked ++ (signal ++ (words c (blockLoop lba rw left (c + 1) q).2.1 128 ++ l)), rest,
          ?_, .cons (accepted right) found ?_, fun i outside => ?_, ?_,
          Nat.succ_le_succ loop.within, fun ok => ?_, keeps.trans loop.keeps⟩
        · rw [loop.log, loggedWords, loggedSignal, loggedAsked, same]
          simp only [List.append_assoc]
        · rw [← keeps.ccs]
          exact loop.rounds
        · rw [loop.others i (by omega), others i (by omega)]
        · rw [← keeps.ccs]
          exact loop.cut
        · obtain ⟨all, none⟩ := loop.complete ok
          exact ⟨congrArg (· + 1) all, none⟩

theorem words_commands (c : Nat) (buf : Nat → Word) (n : Nat) : commands (words c buf n) = [] := by
  refine List.filterMap_eq_nil_iff.mpr fun e member => ?_
  obtain ⟨d, _, rfl⟩ := List.mem_map.mp member
  rfl

theorem rounds_commands {ccs : Bool} {lba : Word} {rw : ReadWrite} {buf : Nat → Word}
    {c done : Nat} {l : List Event} (rounds : Rounds ccs lba rw buf c done l) :
    ∀ code ∈ commands l, ccs = false ∧ code = cmdSingle rw := by
  induction rounds with
  | nil => exact nofun
  | cons asked signal _ ih =>
    intro code member
    simp only [commands_append, (signal_log signal).1, words_commands, List.nil_append,
      List.mem_append] at member
    rcases member with first | later
    · unfold Asked at asked
      split_ifs at asked with on
      · rw [asked] at first
        cases first
      · rw [(done_log asked).1] at first
        exact ⟨by simpa using on, List.mem_singleton.mp first⟩
    · exact ih code later

theorem looped_commands {lba : Word} {rw : ReadWrite} {left c : Nat} {buf : Nat → Word} {s : Host}
    {result : Bool × (Nat → Word) × Host} {done : Nat} {l rest : List Event}
    (loop : Looped lba rw left c buf s result done l rest) :
    ∀ code ∈ commands (l ++ rest), s.ccs = false ∧ code = cmdSingle rw := by
  intro code member
  rw [commands_append] at member
  exact (List.mem_append.mp member).elim (rounds_commands loop.rounds code) (loop.cut.2 code)

/-! The start of a transfer. -/

def cmdStart (num : Word) (rw : ReadWrite) : Word :=
  if num = 1 then cmdSingle rw else cmdMulti rw

theorem start_ordinary (num : Word) (rw : ReadWrite) : Ordinary (cmdStart num rw) := by
  unfold cmdStart
  split_ifs <;> cases rw <;> decide

inductive Start (lba num : Word) (rw : ReadWrite) (s : Host) : Bool × Host → Prop
  | unasked {t : Host} {l : List Event} : t.log = s.log ++ l → exchanges l = [] →
      (∀ code ∈ commands l, code = cmdSetBlockcnt) → Keeps s t → Start lba num rw s (false, t)
  | failed {t : Host} {head l : List Event} : t.log = s.log ++ (head ++ l) →
      exchanges head = [] → (∀ code ∈ commands head, code = cmdSetBlockcnt) →
      Given (cmdStart num rw) lba l → Keeps s t → Start lba num rw s (false, t)
  | started {t : Host} {head l : List Event} : s.ccs = true →
      t.log = s.log ++ (head ++ .write .blksizecnt (num <<< 16 ||| 512) :: l) →
      exchanges head = [] → commands head = (if counted num s then [cmdSetBlockcnt] else []) →
      Done (cmdStart num rw) lba l → Keeps s t → Start lba num rw s (true, t)
  | bytewise {t : Host} {idle : List Event} : s.ccs = false → AllIdle idle →
      t.log = s.log ++ (idle ++ [.write .blksizecnt (1 <<< 16 ||| 512)]) → Keeps s t →
      Start lba num rw s (true, t)

theorem told_codes {head : List Event} {counts : Bool}
    (told : commands head = if counts then [cmdSetBlockcnt] else []) :
    ∀ code ∈ commands head, code = cmdSetBlockcnt := by
  intro code member
  rw [told] at member
  split_ifs at member
  · exact List.mem_singleton.mp member
  · cases member

theorem count_traced (num : Word) (s : Host) :
    let t := if counted num s then (sdCmd cmdSetBlockcnt num s).2 else s
    Keeps s t ∧ ∃ l, t.log = s.log ++ l ∧ exchanges l = [] ∧
      (∀ code ∈ commands l, code = cmdSetBlockcnt) ∧
      (counted num s = false ∨ t.sdErr = 0 →
        commands l = if counted num s then [cmdSetBlockcnt] else []) := by
  cases count : counted num s with
  | false =>
    exact ⟨Keeps.refl s, [], (List.append_nil _).symm, rfl, nofun, fun _ => rfl⟩
  | true =>
    refine ⟨sdCmd_keeps _ _ s, ?_⟩
    simp only [if_true, Bool.true_eq_false, false_or]
    cases sdCmd_traced (show Ordinary cmdSetBlockcnt by decide) num s with
    | @refused l _ idle logged fails =>
      refine ⟨l, logged, exchanges_idle idle, fun code member => ?_, fun right => absurd right fails⟩
      rw [commands_idle idle] at member
      cases member
    | @failed l _ given logged fails =>
      obtain ⟨codes, none⟩ := given_log given
      refine ⟨l, logged, none, fun code member => ?_, fun right => absurd right fails⟩
      rw [codes] at member
      exact List.mem_singleton.mp member
    | @done l _ done logged _ =>
      obtain ⟨codes, none⟩ := done_log done
      refine ⟨l, logged, none, fun code member => ?_, fun _ => codes⟩
      rw [codes] at member
      exact List.mem_singleton.mp member

theorem startCommand_start {lba num : Word} {rw : ReadWrite} {s t : Host} {head : List Event}
    (ccs : s.ccs = true) (keeps : Keeps s t) (logged : t.log = s.log ++ head)
    (noWords : exchanges head = [])
    (told : commands head = if counted num s then [cmdSetBlockcnt] else [])
    (codes : ∀ code ∈ commands head, code = cmdSetBlockcnt) :
    let u := (sdCmd (cmdStart num rw) lba (t.write .blksizecnt (num <<< 16 ||| 512))).2
    Start lba num rw s (u.sdErr = 0, u) := by
  have kept : Keeps s (sdCmd (cmdStart num rw) lba (t.write .blksizecnt (num <<< 16 ||| 512))).2 :=
    keeps.trans ((write_keeps _ _ _).trans (sdCmd_keeps _ _ _))
  have sized : (t.write .blksizecnt (num <<< 16 ||| 512)).log =
      s.log ++ (head ++ [.write .blksizecnt (num <<< 16 ||| 512)]) := by
    change t.log ++ _ = _
    rw [logged, List.append_assoc]
  have none : exchanges (head ++ [.write .blksizecnt (num <<< 16 ||| 512)]) = [] := by
    rw [exchanges_append, noWords]
    rfl
  have same : commands (head ++ [.write .blksizecnt (num <<< 16 ||| 512)]) = commands head := by
    rw [commands_append]
    exact List.append_nil _
  dsimp only
  cases sdCmd_traced (start_ordinary num rw) lba (t.write .blksizecnt (num <<< 16 ||| 512)) with
  | @refused l _ idle loggedLast fails =>
    rw [decide_eq_false fails]
    refine .unasked (l := (head ++ [.write .blksizecnt (num <<< 16 ||| 512)]) ++ l) ?_ ?_ ?_ kept
    · rw [loggedLast, sized, List.append_assoc]
    · rw [exchanges_append, none, exchanges_idle idle]
      rfl
    · rw [commands_append, same, commands_idle idle, List.append_nil]
      exact codes
  | @failed l _ given loggedLast fails =>
    rw [decide_eq_false fails]
    have whole : (sdCmd (cmdStart num rw) lba (t.write .blksizecnt (num <<< 16 ||| 512))).2.log =
        s.log ++ ((head ++ [.write .blksizecnt (num <<< 16 ||| 512)]) ++ l) := by
      rw [loggedLast, sized, List.append_assoc]
    refine .failed whole none ?_ given kept
    rw [same]
    exact codes
  | @done l _ done loggedLast clear =>
    rw [decide_eq_true clear]
    refine .started ccs ?_ noWords told done kept
    rw [loggedLast, sized]
    simp

theorem startTransfer_start (lba num : Word) (rw : ReadWrite) (s : Host) :
    Start lba num rw s (startTransfer lba num rw s) := by
  have waited := sdStatus_quiet srDatInhibit s
  obtain ⟨idle, loggedIdle, quiet⟩ := waited.log
  unfold startTransfer
  dsimp only
  by_cases busy : (sdStatus srDatInhibit s).1 ≠ 0
  · rw [if_pos busy]
    refine .unasked loggedIdle (exchanges_idle quiet) (fun code member => ?_)
      (waited.keeps.trans (setErr_keeps _ _))
    rw [commands_idle quiet] at member
    cases member
  · rw [if_neg busy]
    generalize (sdStatus srDatInhibit s).2 = u at waited loggedIdle ⊢
    by_cases ccs : u.ccs = true
    · rw [if_pos ccs]
      obtain ⟨keptCount, count, loggedCount, none, codes, told⟩ := count_traced num u
      generalize (if counted num u = true then (sdCmd cmdSetBlockcnt num u).2 else u) = v
        at keptCount loggedCount told ⊢
      have keeps : Keeps s v := waited.keeps.trans keptCount
      have logged : v.log = s.log ++ (idle ++ count) := by
        rw [loggedCount, loggedIdle, List.append_assoc]
      have noWords : exchanges (idle ++ count) = [] := by
        rw [exchanges_append, exchanges_idle quiet, none]
        rfl
      have codesHead : commands (idle ++ count) = commands count := by
        rw [commands_append, commands_idle quiet]
        rfl
      by_cases broken : counted num u = true ∧ v.sdErr ≠ 0
      · rw [if_pos broken]
        exact .unasked logged noWords (by rwa [codesHead]) keeps
      · rw [if_neg broken]
        have right : counted num u = false ∨ v.sdErr = 0 := by
          by_contra wrong
          obtain ⟨on, fails⟩ := not_or.mp wrong
          exact broken ⟨by simpa using on, fails⟩
        have same : counted num u = counted num s := by
          unfold counted
          rw [waited.keeps.setBlkcnt]
        exact startCommand_start (by rw [← waited.keeps.ccs]; exact ccs) keeps logged noWords
          (by rw [codesHead, told right, same]) (by rwa [codesHead])
    · rw [if_neg ccs]
      refine .bytewise ?_ quiet ?_ (waited.keeps.trans (write_keeps _ _ _))
      · rw [← waited.keeps.ccs]
        exact Bool.eq_false_iff.mpr ccs
      · change u.log ++ _ = _
        rw [loggedIdle, List.append_assoc]

/-! The end of a transfer. -/

theorem stop_traced (s : Host) : ∃ l, (sdCmd cmdStopTrans 0 s).2.log = s.log ++ l ∧
    exchanges l = [] ∧ (∀ code ∈ commands l, code = cmdStopTrans) ∧
    (cmdStopTrans ∈ commands l ↔ (sdStatus srCmdInhibit (s.setErr sdOk)).1 = 0) := by
  cases sdCmd_traced (show Ordinary cmdStopTrans by decide) 0 s with
  | @refused l busy idle logged _ =>
    refine ⟨l, logged, exchanges_idle idle, ?_, ?_⟩
    · rw [commands_idle idle]
      exact nofun
    · rw [commands_idle idle]
      exact ⟨nofun, fun free => absurd free busy⟩
  | @failed l free given logged _ =>
    obtain ⟨codes, none⟩ := given_log given
    exact ⟨l, logged, none, by rw [codes]; exact fun code => List.mem_singleton.mp,
      by rw [codes]; exact iff_of_true List.mem_cons_self free⟩
  | @done l free done logged _ =>
    obtain ⟨codes, none⟩ := done_log done
    exact ⟨l, logged, none, by rw [codes]; exact fun code => List.mem_singleton.mp,
      by rw [codes]; exact iff_of_true List.mem_cons_self free⟩

theorem stopTransfer_traced (num : Word) (s : Host) : ∃ l,
    (stopTransfer num s).log = s.log ++ l ∧ exchanges l = [] ∧
    (∀ code ∈ commands l, code = cmdStopTrans) ∧
    (num > 1 → s.ccs = true → s.setBlkcnt = false →
      (cmdStopTrans ∈ commands l ↔ (sdStatus srCmdInhibit (s.setErr sdOk)).1 = 0)) := by
  unfold stopTransfer
  by_cases stop : num > 1 ∧ (!s.setBlkcnt) = true ∧ s.ccs = true
  · rw [if_pos stop]
    obtain ⟨l, logged, none, codes, stops⟩ := stop_traced s
    exact ⟨l, logged, none, codes, fun _ _ _ => stops⟩
  · rw [if_neg stop]
    refine ⟨[], (List.append_nil _).symm, rfl, nofun, fun several ccs none => ?_⟩
    exact absurd ⟨several, by rw [none]; rfl, ccs⟩ stop

/-! The three ways out of `sd_transferblock`. -/

def callLog (lba : Word) (buf : Nat → Word) (num : Word) (rw : ReadWrite) (s : Host) :
    List Event :=
  (sdTransferblock lba buf num rw s).2.2.log.drop s.log.length

theorem transfer_unstarted {lba num : Word} {rw : ReadWrite} {s t : Host} (buf : Nat → Word)
    (start : startTransfer lba (blocks num) rw s = (false, t)) :
    sdTransferblock lba buf num rw s = (0, buf, t) := by
  unfold sdTransferblock
  dsimp only
  rw [start]
  rfl

theorem transfer_broken {lba num : Word} {rw : ReadWrite} {s t u : Host} {buf buf' : Nat → Word}
    (start : startTransfer lba (blocks num) rw s = (true, t))
    (loop : blockLoop lba rw (blocks num).toNat 0 (buf, t) = (false, buf', u)) :
    sdTransferblock lba buf num rw s = (0, buf', u) := by
  unfold sdTransferblock
  dsimp only
  rw [start]
  dsimp only
  rw [loop]
  rfl

theorem transfer_complete {lba num : Word} {rw : ReadWrite} {s t u : Host} {buf buf' : Nat → Word}
    (start : startTransfer lba (blocks num) rw s = (true, t))
    (loop : blockLoop lba rw (blocks num).toNat 0 (buf, t) = (true, buf', u)) :
    sdTransferblock lba buf num rw s =
      (if (stopTransfer (blocks num) u).sdErr ≠ 0 then 0 else blocks num * 512, buf',
        stopTransfer (blocks num) u) := by
  unfold sdTransferblock
  dsimp only
  rw [start]
  dsimp only
  rw [loop]
  rfl

end Emmc
