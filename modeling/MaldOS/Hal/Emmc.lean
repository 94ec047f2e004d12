import MaldOS.Library.Polling
import Mathlib.Logic.Function.Basic

/-!
`sd.c` down to the registers of the controller. What a read of a register gives
is not known: each register has a sequence of values for the reads to come. The
pins and the log are left out.
-/
namespace Emmc
open Polling

abbrev Word : Type := BitVec 32

/-- The members of `EMMCREG` that are used. -/
inductive Reg where
  | blksizecnt | arg1 | cmdtm | resp0 | resp1 | resp2 | resp3 | data | status
  | control0 | control1 | interrupt | irptMask | irptEn | slotisrVer
  deriving DecidableEq

/-- An access to a register, an exchange of a word of the caller's buffer with DATA, or a
    `wait_msec`. -/
inductive Event where
  | read (r : Reg) (value : Word)
  | write (r : Reg) (value : Word)
  | exchange (index : Nat) (value : Word)
  | wait (msec : Nat)
  deriving DecidableEq

/-- The controller, with all that was done to it, and the globals of the module. -/
structure Host where
  answers : Reg → Nat → Word
  reads : Reg → Nat
  log : List Event
  sdScr0 : BitVec 64
  sdScr1 : BitVec 64
  sdRca : BitVec 64
  sdErr : BitVec 64
  sdHv : BitVec 64

def Host.next (s : Host) (r : Reg) : Word := s.answers r (s.reads r)

def Host.read (s : Host) (r : Reg) : Word × Host :=
  (s.next r, { s with
    reads := Function.update s.reads r (s.reads r + 1), log := s.log ++ [.read r (s.next r)] })

def Host.write (s : Host) (r : Reg) (value : Word) : Host :=
  { s with log := s.log ++ [.write r value] }

def Host.wait (s : Host) (msec : Nat) : Host := { s with log := s.log ++ [.wait msec] }

/-- `r = f(r)` -/
def Host.modify (s : Host) (r : Reg) (f : Word → Word) : Host :=
  let (value, s) := s.read r
  s.write r (f value)

def Host.setErr (s : Host) (err : Word) : Host := { s with sdErr := err.signExtend 64 }

abbrev sdOk : Word := 0

abbrev sdTimeout : Word := -1

abbrev sdError : Word := -2

abbrev cmdNeedApp : Word := 0x80000000

abbrev cmdRspns48 : Word := 0x00020000

abbrev cmdErrorsMask : Word := 0xfff9c004

abbrev cmdRcaMask : Word := 0xffff0000

abbrev cmdGoIdle : Word := 0x00000000

abbrev cmdAllSendCid : Word := 0x02010000

abbrev cmdSendRelAddr : Word := 0x03020000

abbrev cmdCardSelect : Word := 0x07030000

abbrev cmdSendIfCond : Word := 0x08020000

abbrev cmdStopTrans : Word := 0x0C030000

abbrev cmdReadSingle : Word := 0x11220010

abbrev cmdReadMulti : Word := 0x12220032

abbrev cmdWriteSingle : Word := 0x18220000

abbrev cmdWriteMulti : Word := 0x19220022

abbrev cmdSetBlockcnt : Word := 0x17020000

abbrev cmdAppCmd : Word := 0x37000000

abbrev cmdSetBusWidth : Word := 0x06020000 ||| cmdNeedApp

abbrev cmdSendOpCond : Word := 0x29020000 ||| cmdNeedApp

abbrev cmdSendScr : Word := 0x33220010 ||| cmdNeedApp

abbrev srReadAvailable : Word := 0x00000800

abbrev srDatInhibit : Word := 0x00000002

abbrev srCmdInhibit : Word := 0x00000001

abbrev srAppCmd : Word := 0x00000020

abbrev intDataTimeout : Word := 0x00100000

abbrev intCmdTimeout : Word := 0x00010000

abbrev intReadRdy : Word := 0x00000020

abbrev intWriteRdy : Word := 0x00000010

abbrev intCmdDone : Word := 0x00000001

abbrev intErrorMask : Word := 0x017E8000

abbrev c0HctlDwitdh : Word := 0x00000002

abbrev c1SrstHc : Word := 0x01000000

abbrev c1TounitMax : Word := 0x000e0000

abbrev c1ClkEn : Word := 0x00000004

abbrev c1ClkStable : Word := 0x00000002

abbrev c1ClkIntlen : Word := 0x00000001

abbrev hostSpecNum : Word := 0x00ff0000

abbrev hostSpecV2 : BitVec 64 := 1

abbrev scrSdBusWidth4 : BitVec 64 := 0x00000400

abbrev scrSuppSetBlkcnt : BitVec 64 := 0x02000000

abbrev scrSuppCcs : BitVec 64 := 0x00000001

abbrev acmd41Voltage : Word := 0x00ff8000

abbrev acmd41CmdComplete : Word := 0x80000000

abbrev acmd41CmdCcs : Word := 0x40000000

abbrev acmd41ArgHc : Word := 0x51ff8000

def tests (r : Reg) (mask : Word) (s : Host) : Bool × Host :=
  let (value, s) := s.read r
  (value &&& mask ≠ 0, s)

/-- The condition of the loop of `sd_status`; its second operand is read only if need be. -/
def statusGoesOn (mask : Word) (s : Host) : Bool × Host :=
  let (inhibited, s) := tests .status mask s
  if inhibited then
    let (fails, s) := tests .interrupt intErrorMask s
    (!fails, s)
  else (false, s)

def sdStatus (mask : Word) (s : Host) : Word × Host :=
  let (cnt, s) := poll (statusGoesOn mask) (·.wait 1) 500000 s
  if cnt ≤ 0 then (sdError, s)
  else
    let (fails, s) := tests .interrupt intErrorMask s
    (if fails then sdError else sdOk, s)

def intGoesOn (mask : Word) (s : Host) : Bool × Host :=
  let (found, s) := tests .interrupt (mask ||| intErrorMask) s
  (!found, s)

def sdInt (mask : Word) (s : Host) : Word × Host :=
  let (cnt, s) := poll (intGoesOn mask) (·.wait 1) 2000 s
  let (r, s) := s.read .interrupt
  if cnt ≤ 0 ∨ r &&& intCmdTimeout ≠ 0 ∨ r &&& intDataTimeout ≠ 0 then
    (sdTimeout, s.write .interrupt r)
  else if r &&& intErrorMask ≠ 0 then (sdError, s.write .interrupt r)
  else (0, s.write .interrupt mask)

/-- What `sd_cmd` makes of a command that was done. -/
def answer (code arg : Word) (s : Host) : Word × Host :=
  let (r, s) := s.read .resp0
  if code = cmdGoIdle ∨ code = cmdAppCmd then (0, s)
  else if code = cmdAppCmd ||| cmdRspns48 then (r &&& srAppCmd, s)
  else if code = cmdSendOpCond then (r, s)
  else if code = cmdSendIfCond then (if r = arg then sdOk else sdError, s)
  else if code = cmdAllSendCid then
    let (r3, s) := s.read .resp3
    let (r2, s) := s.read .resp2
    let (r1, s) := s.read .resp1
    (r ||| r3 ||| r2 ||| r1, s)
  else if code = cmdSendRelAddr then
    let err := (r &&& 0x1fff ||| (r &&& 0x2000) <<< 6 ||| (r &&& 0x4000) <<< 8 |||
      (r &&& 0x8000) <<< 8) &&& cmdErrorsMask
    (r &&& cmdRcaMask, { s with sdErr := err.setWidth 64 })
  else (r &&& cmdErrorsMask, s)

/-- The part of `sd_cmd` that writes the command and waits before the first look at it. -/
def sendCode (code arg : Word) (s : Host) : Host :=
  let s := s.modify .interrupt id
  let s := (s.write .arg1 arg).write .cmdtm code
  if code = cmdSendOpCond then s.wait 1000
  else if code = cmdSendIfCond ∨ code = cmdAppCmd then s.wait 100 else s

/-- `sd_cmd` from the point where the flag for an application command is off the code. -/
def sdCmdPlain (code arg : Word) (s : Host) : Word × Host :=
  let (busy, s) := sdStatus srCmdInhibit s
  if busy ≠ 0 then (0, s.setErr sdTimeout)
  else
    let (r, s) := sdInt intCmdDone (sendCode code arg s)
    if r ≠ 0 then (0, s.setErr r)
    else answer code arg s

def sdAppCmd (s : Host) : Word × Host :=
  let flag : Word := if s.sdRca ≠ 0 then cmdRspns48 else 0
  sdCmdPlain (cmdAppCmd ||| flag) (s.sdRca.setWidth 32) (s.setErr sdOk)

def sdCmd (code arg : Word) (s : Host) : Word × Host :=
  let s := s.setErr sdOk
  if code &&& cmdNeedApp ≠ 0 then
    let (r, s) := sdAppCmd s
    if s.sdRca ≠ 0 ∧ r = 0 then (0, s.setErr sdError)
    else sdCmdPlain (code &&& ~~~cmdNeedApp) arg s
  else sdCmdPlain code arg s

/-- The shift of the divisor by `sd_clk`, which looks for the highest bit of `x`. -/
def clkShift (x : Word) : Word :=
  if x = 0 then 0
  else
    let (x, s) := if x &&& 0xffff0000 = 0 then (x <<< 16, (32 : Word) - 16) else (x, 32)
    let (x, s) := if x &&& 0xff000000 = 0 then (x <<< 8, s - 8) else (x, s)
    let (x, s) := if x &&& 0xf0000000 = 0 then (x <<< 4, s - 4) else (x, s)
    let (x, s) := if x &&& 0xc0000000 = 0 then (x <<< 2, s - 2) else (x, s)
    let s := if x &&& 0x80000000 = 0 then s - 1 else s
    let s := if s > 0 then s - 1 else s
    if s > 7 then 7 else s

def clkDivisor (c : Word) (hv : BitVec 64) : Word :=
  let d := if hv > hostSpecV2 then c else (1 : Word) <<< (clkShift (c - 1))
  let d := if d ≤ 2 then 2 else d
  let h := if hv > hostSpecV2 then (d &&& 0x300) >>> 2 else 0
  (d &&& 0x0ff) <<< 8 ||| h

/-- `!(EMMC->CONTROL1 & C1_CLK_STABLE)` -/
def clkUnstable (s : Host) : Bool × Host :=
  let (stable, s) := tests .control1 c1ClkStable s
  (!stable, s)

def sdClk (f : Word) (s : Host) : Word × Host :=
  let (cnt, s) := poll (tests .status (srCmdInhibit ||| srDatInhibit)) (·.wait 1) 100000 s
  if cnt ≤ 0 then (sdError, s)
  else
    let s := (s.modify .control1 (· &&& ~~~c1ClkEn)).wait 10
    let d := clkDivisor (41666666 / f) s.sdHv
    let s := (s.modify .control1 (· &&& 0xffff003f ||| d)).wait 10
    let s := (s.modify .control1 (· ||| c1ClkEn)).wait 10
    let (cnt, s) := poll clkUnstable (·.wait 10) 10000 s
    if cnt ≤ 0 then (sdError, s) else (sdOk, s)

/-! `sd_transferblock`. -/

inductive ReadWrite where
  | sdReadblock
  | sdWriteblock
  deriving DecidableEq

/-- A step of the innermost loop: a word of the buffer is read from DATA or written to it. -/
def exchange (rw : ReadWrite) (p : (Nat → Word) × Host) (index : Nat) : (Nat → Word) × Host :=
  let (buf, s) := p
  match rw with
  | .sdReadblock =>
    let value := s.next .data
    (Function.update buf index value, { s with
      reads := Function.update s.reads .data (s.reads .data + 1)
      log := s.log ++ [.exchange index value] })
  | .sdWriteblock => (buf, { s with log := s.log ++ [.exchange index (buf index)] })

def exchangeBlock (rw : ReadWrite) (c : Nat) (p : (Nat → Word) × Host) : (Nat → Word) × Host :=
  (List.range 128).foldl (fun p d => exchange rw p (128 * c + d)) p

def Host.ccs (s : Host) : Bool := s.sdScr0 &&& scrSuppCcs ≠ 0

def Host.setBlkcnt (s : Host) : Bool := s.sdScr0 &&& scrSuppSetBlkcnt ≠ 0

def cmdSingle (rw : ReadWrite) : Word :=
  if rw = .sdReadblock then cmdReadSingle else cmdWriteSingle

def cmdMulti (rw : ReadWrite) : Word :=
  if rw = .sdReadblock then cmdReadMulti else cmdWriteMulti

def ready (rw : ReadWrite) : Word := if rw = .sdReadblock then intReadRdy else intWriteRdy

/-- The command for block number `c`, which a card that takes block numbers does not need. -/
def askBlock (lba : Word) (rw : ReadWrite) (c : Nat) (s : Host) : Host :=
  if s.ccs then s else (sdCmd (cmdSingle rw) ((lba + BitVec.ofNat 32 c) * 512) s).2

/-- The loop over the blocks, from number `c` on with `left` to come; false where it returns. -/
def blockLoop (lba : Word) (rw : ReadWrite) :
    Nat → Nat → (Nat → Word) × Host → Bool × (Nat → Word) × Host
  | 0, _, p => (true, p)
  | left + 1, c, (buf, s) =>
    let s := askBlock lba rw c s
    if !s.ccs ∧ s.sdErr ≠ 0 then (false, buf, s)
    else
      let (r, s) := sdInt (ready rw) s
      if r ≠ 0 then (false, buf, s.setErr r)
      else blockLoop lba rw left (c + 1) (exchangeBlock rw c (buf, s))

/-- Whether the card is told the number of blocks beforehand. -/
def counted (num : Word) (s : Host) : Bool := num > 1 && s.setBlkcnt

/-- The part of `sd_transferblock` before its loop; false where it returns. -/
def startTransfer (lba : Word) (num : Word) (rw : ReadWrite) (s : Host) : Bool × Host :=
  let (busy, s) := sdStatus srDatInhibit s
  if busy ≠ 0 then (false, s.setErr sdTimeout)
  else if s.ccs then
    let count := counted num s
    let s := if count then (sdCmd cmdSetBlockcnt num s).2 else s
    if count ∧ s.sdErr ≠ 0 then (false, s)
    else
      let s := s.write .blksizecnt (num <<< 16 ||| 512)
      let (_, s) := sdCmd (if num = 1 then cmdSingle rw else cmdMulti rw) lba s
      (s.sdErr = 0, s)
  else (true, s.write .blksizecnt (1 <<< 16 ||| 512))

def blocks (num : Word) : Word := if num < 1 then 1 else num

def stopTransfer (num : Word) (s : Host) : Host :=
  if num > 1 ∧ !s.setBlkcnt ∧ s.ccs then (sdCmd cmdStopTrans 0 s).2 else s

def sdTransferblock (lba : Word) (buf : Nat → Word) (num : Word) (rw : ReadWrite) (s : Host) :
    Word × (Nat → Word) × Host :=
  let num := blocks num
  let (started, s) := startTransfer lba num rw s
  if !started then (0, buf, s)
  else
    let (done, buf, s) := blockLoop lba rw num.toNat 0 (buf, s)
    if !done then (0, buf, s)
    else
      let s := stopTransfer num s
      (if s.sdErr ≠ 0 then 0 else num * 512, buf, s)

/-! `sd_init`. Where it returns early, its parts give the result and the state. -/

/-- `if (sd_err) return sd_err;` -/
def unlessErr (s : Host) : Except (Word × Host) Host :=
  if s.sdErr ≠ 0 then .error (s.sdErr.setWidth 32, s) else .ok s

/-- `if ((r = ..)) return r;` -/
def unlessResult (p : Word × Host) : Except (Word × Host) Host :=
  if p.1 ≠ 0 then .error p else .ok p.2

/-- `if (..) return SD_TIMEOUT;` -/
def unlessTimeout (p : Word × Host) : Except (Word × Host) Host :=
  if p.1 ≠ 0 then .error (sdTimeout, p.2) else .ok p.2

def resetController (s : Host) : Except (Word × Host) Host :=
  let (version, s) := s.read .slotisrVer
  let s := { s with sdHv := ((version &&& hostSpecNum) >>> 16).setWidth 64 }
  let s := (s.write .control0 0).modify .control1 (· ||| c1SrstHc)
  let (cnt, s) := poll (tests .control1 c1SrstHc) (·.wait 10) 10000 (s.wait 10)
  if cnt ≤ 0 then .error (sdError, s)
  else do
    let s := (s.modify .control1 (· ||| (c1ClkIntlen ||| c1TounitMax))).wait 10
    let s ← unlessResult (sdClk 400000 s)
    let s := (s.write .irptEn 0xffffffff).write .irptMask 0xffffffff
    .ok { s with sdScr0 := 0, sdScr1 := 0, sdRca := 0, sdErr := 0 }

def wakeCard (s : Host) : Except (Word × Host) Host := do
  let s ← unlessErr (sdCmd cmdGoIdle 0 s).2
  unlessErr (sdCmd cmdSendIfCond 0x000001AA s).2

/-- The loop over CMD_SEND_OP_COND, with `cnt` and `r` on the way in and on the way out. -/
def opCondLoop : Nat → Word → Host → Except (Word × Host) (Int × Word × Host)
  | 0, r, s => .ok (if r &&& acmd41CmdComplete ≠ 0 then 0 else -1, r, s)
  | left + 1, r, s =>
    if r &&& acmd41CmdComplete ≠ 0 then .ok (left + 1, r, s)
    else
      let (r, s) := sdCmd cmdSendOpCond acmd41ArgHc s
      if s.sdErr ≠ sdTimeout.signExtend 64 ∧ s.sdErr ≠ 0 then .error (s.sdErr.setWidth 32, s)
      else opCondLoop left r s

/-- What is made of the loop's `cnt` and `r`; it finds out about `ccs`. -/
def judgeOpCond (p : Int × Word × Host) : Except (Word × Host) (BitVec 64 × Host) :=
  let (cnt, r, s) := p
  if r &&& acmd41CmdComplete = 0 ∨ cnt = 0 then .error (sdTimeout, s)
  else if r &&& acmd41Voltage = 0 then .error (sdError, s)
  else .ok (if r &&& acmd41CmdCcs ≠ 0 then scrSuppCcs else 0, s)

def opCond (s : Host) : Except (Word × Host) (BitVec 64 × Host) := do
  let p ← opCondLoop 6 0 s
  judgeOpCond p

def selectCard (s : Host) : Except (Word × Host) Host := do
  let (_, s) := sdCmd cmdAllSendCid 0 s
  let (rca, s) := sdCmd cmdSendRelAddr 0 s
  let s ← unlessErr { s with sdRca := rca.signExtend 64 }
  let s ← unlessResult (sdClk 25000000 s)
  let s ← unlessErr (sdCmd cmdCardSelect (s.sdRca.setWidth 32) s).2
  let s ← unlessTimeout (sdStatus srDatInhibit s)
  let s ← unlessErr (sdCmd cmdSendScr 0 (s.write .blksizecnt (1 <<< 16 ||| 8))).2
  unlessTimeout (sdInt intReadRdy s)

/-- `sd_init` up to the loop that reads `sd_scr`. -/
def beforeScr (s : Host) : Except (Word × Host) (BitVec 64 × Host) := do
  let s ← resetController s
  let s ← wakeCard s
  let (ccs, s) ← opCond s
  let s ← selectCard s
  .ok (ccs, s)

/-- `sd_scr[r] = value` -/
def Host.setScr (s : Host) (r : Nat) (value : Word) : Host :=
  if r = 0 then { s with sdScr0 := value.setWidth 64 } else { s with sdScr1 := value.setWidth 64 }

/-- The loop that reads `sd_scr`; `none` when `fuel` rounds do not end it. -/
def scrLoop (cnt : Nat) : Nat → Nat → Host → Option (Nat × Host)
  | 0, _, _ => none
  | fuel + 1, r, s =>
    if r < 2 ∧ cnt ≠ 0 then
      let (available, s) := tests .status srReadAvailable s
      if available then
        let (value, s) := s.read .data
        scrLoop cnt fuel (r + 1) (s.setScr r value)
      else scrLoop cnt fuel r (s.wait 1)
    else some (r, s)

def afterScr (ccs : BitVec 64) (r : Nat) (s : Host) : Word × Host :=
  let finish (s : Host) : Word × Host :=
    (sdOk, { s with sdScr0 := s.sdScr0 &&& ~~~scrSuppCcs ||| ccs })
  if r ≠ 2 then (sdTimeout, s)
  else if s.sdScr0 &&& scrSdBusWidth4 ≠ 0 then
    let (_, s) := sdCmd cmdSetBusWidth ((s.sdRca ||| 2).setWidth 32) s
    if s.sdErr ≠ 0 then (s.sdErr.setWidth 32, s)
    else finish (s.modify .control0 (· ||| c0HctlDwitdh))
  else finish s

def sdInit (fuel : Nat) (s : Host) : Option (Word × Host) :=
  match beforeScr s with
  | .error e => some e
  | .ok (ccs, s) => (scrLoop 100000 fuel 0 s).map fun (r, s) => afterScr ccs r s

end Emmc
