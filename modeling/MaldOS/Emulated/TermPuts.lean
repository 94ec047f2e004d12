import MaldOS.Emulated.CarriedOut
import MaldOS.Emulated.Terminals
import MaldOS.Library.Rounds

/-!
A client of a printer: `term_puts` of the example application, which asks the
printer for its status, has it print a character, polls its own block until that
is done, and acknowledges. The rest of the system goes on between its steps.
-/
namespace TermPuts
open Arch ByteMemory Registers ArmTimers EmulatedTimers Emulated Runs Rounds

/-- Where the client is: at the test of `term_puts`; in the loop on `mailbox` after
    READ_REGISTERS, past it, in the loop on `mailbox` after PRINT_CHAR, in the one on the status,
    in the loop on `mailbox` after the acknowledgement; past the end of the string, or back because
    the printer was not ready. -/
inductive Place where
  | puts
  | readWait
  | judge
  | printWait
  | busyWait
  | ackWait
  | finished
  | refused
  deriving DecidableEq

/-- `left` is what `str` points to. -/
structure Client where
  place : Place
  left : List Byte

/-- `tp->status & TERM_STATUS_MASK` -/
def printStatus (r : DevReg) : BitVec 32 := r.status &&& 0xFF

section
variable (i : Fin maxDevices) (block : BitVec 64)

/-- The client up to its next look at its block. -/
def clientStep (s : System) (c : Client) : System × Client :=
  let print0Reg := loadReg s.ram block
  match c.place with
  | .puts =>
    if c.left = [] then (s, { c with place := .finished })
    else (step s (.request (.printer, i) block ⟨0, readRegisters, 0, 0, 0⟩),
      { c with place := .readWait })
  | .readWait => if print0Reg.mailbox = 0 then (s, c) else (s, { c with place := .judge })
  | .judge =>
    if printStatus print0Reg ≠ deviceReady then (s, { c with place := .refused })
    else (step s (.request (.printer, i) block { print0Reg with
      mailbox := 0, command := printChar, data0 := (c.left.headD 0).setWidth 32 }),
      { c with place := .printWait })
  | .printWait => if print0Reg.mailbox = 0 then (s, c) else (s, { c with place := .busyWait })
  | .busyWait =>
    if printStatus print0Reg = deviceBusy then (s, c)
    else (step s (.request (.printer, i) block { print0Reg with mailbox := 0, command := Registers.ack }),
      { c with place := .ackWait })
  | .ackWait =>
    if print0Reg.mailbox = 0 then (s, c) else (s, { place := .puts, left := c.left.tail })
  | .finished => (s, c)
  | .refused => (s, c)

/-- The character that the action hands to `printer_send` of the printer. -/
def handed (s : System) : Act → List Byte
  | .expire _ =>
    match s.queue.entries with
    | [] => []
    | r :: _ =>
      if r.time < getTOD s.clock ∧ owner r = some (.printer, i) ∧ Busy s (.printer, i) ∧
          (s.regs (.printer, i)).command = printChar then
        [(s.regs (.printer, i)).data0.setWidth 8]
      else []
  | _ => []

/-- The system, the client, and what `printer_send` of the printer was given since the client
    began. -/
structure World where
  sys : System
  client : Client
  sent : List Byte

inductive Move where
  | client
  | other (a : Act)

def move (w : World) : Move → World
  | .client => { w with sys := (clientStep i block w.sys w.client).1
                        client := (clientStep i block w.sys w.client).2 }
  | .other a => ⟨step w.sys a, w.client, w.sent ++ handed i w.sys a⟩

/-- Nobody else sends messages to the printer or writes to the block of the client. -/
def Private (w : World) : Move → Prop
  | .client => True
  | .other a => (∀ b r, a ≠ .request (.printer, i) b r) ∧
      (¬ Ends (.printer, i) w.sys a → loadReg (step w.sys a).ram block = loadReg w.sys.ram block)

def Free (w : World) : Move → Prop
  | .client => ¬ Busy w.sys (.printer, i)
  | .other _ => False

instance (w : World) : ∀ m, Decidable (Free i w m)
  | .client => inferInstanceAs (Decidable (¬ _))
  | .other _ => inferInstanceAs (Decidable False)

/-! The printer between the steps of the client. -/

def Idle (s : System) : Prop := (s.regs (.printer, i)).status = deviceReady

def Told (s : System) : Prop :=
  loadReg s.ram block = s.regs (.printer, i) ∧ (s.regs (.printer, i)).mailbox = 1

structure Printing (s : System) (c : Byte) : Prop where
  busy : Busy s (.printer, i)
  command : (s.regs (.printer, i)).command = printChar
  data0 : (s.regs (.printer, i)).data0 = c.setWidth 32
  block : s.block (.printer, i) = block

end

section
variable {i : Fin maxDevices} {block : BitVec 64}

theorem idle_free {s : System} (idle : Idle i s) : ¬ Busy s (.printer, i) := by
  unfold Busy
  rw [idle]
  decide

theorem told_answer {s : System} (mark : (s.regs (.printer, i)).mailbox = 1) :
    Told i block (s.answer (.printer, i) block) :=
  ⟨loadReg_storeReg _ _ _, mark⟩

theorem request_idle {s : System} (idle : Idle i s) (given : block ≠ 0) (r : DevReg) :
    ∃ t : System, t.ports (.printer, i) = ⟨s.block (.printer, i),
        { s.regs (.printer, i) with mailbox := 1 }⟩ ∧
      (getCommand r.command = readRegisters →
        step s (.request (.printer, i) block r) = t.answer (.printer, i) block) ∧
      (getCommand r.command = Registers.ack → ∃ lines, step s (.request (.printer, i) block r) =
        ({ t.setRegs (.printer, i) fun r => { r with command := Registers.ack, status := deviceReady } with
          lines := lines }).answer (.printer, i) block) ∧
      (getCommand r.command = printChar → step s (.request (.printer, i) block r) =
        setDeviceTimer ((t.setPort (.printer, i) ⟨block, { t.regs (.printer, i) with
          status := deviceBusy, command := printChar, data0 := r.data0 }⟩).answer
            (.printer, i) block) 8 .printer i) := by
  obtain ⟨f, filled⟩ : ∃ f, f = { s with ram := storeReg s.ram block r } := ⟨_, rfl⟩
  have message : loadReg f.ram block = r := by
    rw [filled]
    exact loadReg_storeReg s.ram block r
  have run : step s (.request (.printer, i) block r) = emulatedPrinterMailbox f i block := by
    rw [filled]
    rfl
  obtain ⟨t, marked, quiet, port, ram, -⟩ := marked_spec f (.printer, i)
  have regs : t.regs (.printer, i) = { f.regs (.printer, i) with mailbox := 1 } :=
    congrArg Port.internalRegisters port
  have status : (f.regs (.printer, i)).status = deviceReady := by
    rw [filled]
    exact idle
  have there : ¬ ((f.regs (.printer, i)).status = deviceNotInstalled ∧
      r.command ≠ readRegisters) := by
    rw [status]
    rintro ⟨wrong, _⟩
    exact absurd wrong (by decide)
  have free : (f.regs (.printer, i)).status ≠ deviceBusy := by
    rw [status]
    decide
  have before : f.ports = s.ports := by rw [filled]
  refine ⟨t, by rw [port, System.block, System.regs, before]; rfl, ?_, ?_, ?_⟩
  · intro isRead
    rw [run]
    unfold emulatedPrinterMailbox
    simp only [← marked, message, if_neg given, if_neg there, isRead]
    rfl
  · intro isAck
    refine ⟨(t.clearLine DeviceClass.printer.line i).lines, ?_⟩
    rw [run]
    unfold emulatedPrinterMailbox
    simp only [← marked, message, if_neg given, if_neg there, isAck, regs, if_pos free]
    rfl
  · intro isPrint
    rw [run]
    unfold emulatedPrinterMailbox
    simp only [← marked, message, if_neg given, if_neg there, isPrint, regs, if_pos free]
    rfl

theorem read_answers {s : System} (idle : Idle i s) (given : block ≠ 0) {r : DevReg}
    (isRead : r.command = readRegisters) :
    Idle i (step s (.request (.printer, i) block r)) ∧
      Told i block (step s (.request (.printer, i) block r)) := by
  obtain ⟨t, port, read, -, -⟩ := request_idle idle given r
  have regs : t.regs (.printer, i) = { s.regs (.printer, i) with mailbox := 1 } :=
    congrArg Port.internalRegisters port
  rw [read (by rw [isRead]; decide)]
  constructor
  · show (t.regs (.printer, i)).status = deviceReady
    rw [regs]
    exact idle
  · apply told_answer
    rw [regs]

theorem ack_answers {s : System} (idle : Idle i s) (given : block ≠ 0) {r : DevReg}
    (isAck : r.command = Registers.ack) :
    Idle i (step s (.request (.printer, i) block r)) ∧
      Told i block (step s (.request (.printer, i) block r)) := by
  obtain ⟨t, port, -, acked, -⟩ := request_idle idle given r
  obtain ⟨lines, run⟩ := acked (by rw [isAck]; decide)
  rw [run]
  constructor
  · simp [Idle, System.regs, System.answer]
  · apply told_answer
    simp [System.regs, port]

theorem print_accepted {s : System} (idle : Idle i s) (given : block ≠ 0) {r : DevReg} {c : Byte}
    (isPrint : r.command = printChar) (data0 : r.data0 = c.setWidth 32) :
    Printing i block (step s (.request (.printer, i) block r)) c ∧
      Told i block (step s (.request (.printer, i) block r)) := by
  obtain ⟨t, port, -, -, print⟩ := request_idle idle given r
  have regs : t.regs (.printer, i) = { s.regs (.printer, i) with mailbox := 1 } :=
    congrArg Port.internalRegisters port
  rw [print (by rw [isPrint]; decide)]
  obtain ⟨virtualTimer, armed⟩ := setDeviceTimer_eq ((t.setPort (.printer, i) ⟨block,
    { t.regs (.printer, i) with
      status := deviceBusy, command := printChar, data0 := r.data0 }⟩).answer (.printer, i) block)
    8 .printer i
  rw [armed]
  constructor
  · constructor
    · simp [Busy, System.regs, System.answer]
    · simp [System.regs, System.answer]
    · simpa [System.regs, System.answer] using data0
    · simp [System.block, System.answer]
  · have told := @told_answer i block (t.setPort (.printer, i) ⟨block,
      { t.regs (.printer, i) with
        status := deviceBusy, command := printChar, data0 := r.data0 }⟩) (by
          simp [System.regs, port])
    exact ⟨told.1, told.2⟩

theorem printing_completes {s : System} {c : Byte} (printing : Printing i block s c)
    (expires : Expires s (.printer, i)) (next : Timer) :
    Idle i (step s (.expire next)) ∧
      loadReg (step s (.expire next)).ram block = (step s (.expire next)).regs (.printer, i) ∧
      ((step s (.expire next)).regs (.printer, i)).mailbox = (s.regs (.printer, i)).mailbox := by
  obtain ⟨q, run⟩ := expire_own expires next
  have low : (s.regs (.printer, i)).data0.setWidth 8 = c := by
    rw [printing.data0]
    simp
  obtain ⟨t, drawn⟩ : ∃ t, t = send { s with queue := q } (i, c) := ⟨_, rfl⟩
  have ports : t.ports = s.ports := by
    rw [drawn]
    exact (printerSend_worked { s with queue := q } i c).2
  have done : step s (.expire next) =
      (((t.setRegs (.printer, i) fun r => { r with status := deviceReady }).raiseLine
        DeviceClass.printer.line i).setPrinter i
          { t.printers i with executingCommand := reset }).finish (.printer, i) := by
    have busy : ({ s with queue := q }.regs (.printer, i)).status = deviceBusy := printing.busy
    have command : ({ s with queue := q }.regs (.printer, i)).command = printChar :=
      printing.command
    have data0 : ({ s with queue := q }.regs (.printer, i)).data0.setWidth 8 = c := low
    rw [step, run, drawn]
    simp only [manage, manageEmulatedPrinter, if_pos busy, if_pos command, data0]
    rfl
  have before : t.ports (.printer, i) = ⟨block, s.regs (.printer, i)⟩ := by
    rw [ports, ← printing.block]
    rfl
  obtain ⟨u, reports⟩ : ∃ u, u = ((t.setRegs (.printer, i) fun r =>
    { r with status := deviceReady }).raiseLine DeviceClass.printer.line i).setPrinter i
      { t.printers i with executingCommand := reset } := ⟨_, rfl⟩
  have port : u.ports (.printer, i) =
      ⟨block, { s.regs (.printer, i) with status := deviceReady }⟩ := by
    rw [reports]
    simp [System.setPrinter, System.block, System.regs, before]
  have regs : (u.finish (.printer, i)).regs (.printer, i) =
      { s.regs (.printer, i) with status := deviceReady } := by
    simp [System.finish, System.regs, port]
  have copied : (u.finish (.printer, i)).ram =
      storeReg u.ram block { s.regs (.printer, i) with status := deviceReady } := by
    simp only [System.finish, System.setPort, System.answer, System.block, System.regs, port]
  rw [done, ← reports]
  refine ⟨?_, ?_, ?_⟩
  · rw [Idle, regs]
  · rw [copied, regs]
    exact loadReg_storeReg _ _ _
  · rw [regs]

/-! What the rest of the system does meanwhile. -/

theorem handed_ends {s : System} {a : Act} (some : handed i s a ≠ []) :
    Ends (.printer, i) s a ∧ Busy s (.printer, i) ∧
      (s.regs (.printer, i)).command = printChar ∧
      handed i s a = [(s.regs (.printer, i)).data0.setWidth 8] := by
  cases a with
  | expire next =>
    unfold handed at some ⊢
    cases entries : s.queue.entries with
    | nil => simp [entries] at some
    | cons r rest =>
      simp only [entries] at some ⊢
      split_ifs at some with due
      · exact ⟨⟨⟨next, rfl⟩, r, rest, entries, due.1, due.2.1⟩, due.2.2.1, due.2.2.2, if_pos due⟩
      · exact absurd rfl some
  | _ => exact absurd rfl some

theorem handed_printing {s : System} {c : Byte} {a : Act} (printing : Printing i block s c)
    (ends : Ends (.printer, i) s a) : handed i s a = [c] := by
  obtain ⟨⟨next, rfl⟩, r, rest, entries, past, own⟩ := ends
  unfold handed
  simp only [entries, past, own, printing.busy, printing.command, printing.data0, and_self,
    ↓reduceIte]
  simp

theorem other_idle {s : System} {a : Act} (idle : Idle i s)
    (foreign : ∀ b r, a ≠ .request (.printer, i) b r)
    (spared : ¬ Ends (.printer, i) s a → loadReg (step s a).ram block = loadReg s.ram block) :
    (step s a).regs (.printer, i) = s.regs (.printer, i) ∧
      loadReg (step s a).ram block = loadReg s.ram block ∧ handed i s a = [] := by
  have none : handed i s a = [] := by
    by_contra some
    exact idle_free idle (handed_ends some).2.1
  by_cases ends : Ends (.printer, i) s a
  · obtain ⟨⟨next, rfl⟩, expires⟩ := ends
    obtain ⟨q, same | ⟨busy, -⟩⟩ := expire_outcome expires next
    · rw [same]
      exact ⟨rfl, rfl, none⟩
    · exact absurd busy (idle_free idle)
  · refine ⟨?_, spared ends, none⟩
    have apart : ¬ Concerns s a (.printer, i) := by
      rintro (⟨b, r, request, _⟩ | expires)
      · exact foreign b r request
      · exact ends expires
    rw [System.regs, (step_untouched apart).port]
    rfl

theorem other_printing {s : System} {a : Act} {c : Byte} (printing : Printing i block s c)
    (told : Told i block s) (foreign : ∀ b r, a ≠ .request (.printer, i) b r)
    (spared : ¬ Ends (.printer, i) s a → loadReg (step s a).ram block = loadReg s.ram block) :
    Told i block (step s a) ∧ (Printing i block (step s a) c ∧ handed i s a = [] ∨
      Idle i (step s a) ∧ handed i s a = [c]) := by
  by_cases ends : Ends (.printer, i) s a
  · have drawn := handed_printing printing ends
    obtain ⟨⟨next, rfl⟩, expires⟩ := ends
    obtain ⟨idle, copied, mark⟩ := printing_completes printing expires next
    exact ⟨⟨copied, mark.trans told.2⟩, Or.inr ⟨idle, drawn⟩⟩
  · have apart : ¬ Concerns s a (.printer, i) := by
      rintro (⟨b, r, request, _⟩ | expires)
      · exact foreign b r request
      · exact ends expires
    have port := (step_untouched apart).port
    have none : handed i s a = [] := by
      by_contra some
      exact ends (handed_ends some).1
    refine ⟨⟨?_, ?_⟩, Or.inl ⟨⟨?_, ?_, ?_, ?_⟩, none⟩⟩
    · rw [spared ends, System.regs, port]
      exact told.1
    · rw [System.regs, port]
      exact told.2
    · rw [Busy, System.regs, port]
      exact printing.busy
    · rw [System.regs, port]
      exact printing.command
    · rw [System.regs, port]
      exact printing.data0
    · rw [System.block, port]
      exact printing.block

end

def Fine (i : Fin maxDevices) (block : BitVec 64) (str : List Byte) (w : World) : Prop :=
  match w.client.place with
  | .puts => Idle i w.sys ∧ w.sent ++ w.client.left = str
  | .readWait | .judge =>
    Idle i w.sys ∧ Told i block w.sys ∧ w.client.left ≠ [] ∧ w.sent ++ w.client.left = str
  | .printWait | .busyWait => Told i block w.sys ∧ ∃ c cs, w.client.left = c :: cs ∧
      (Printing i block w.sys c ∧ w.sent ++ c :: cs = str ∨
        Idle i w.sys ∧ w.sent ++ cs = str)
  | .ackWait => Idle i w.sys ∧ Told i block w.sys ∧
      ∃ c cs, w.client.left = c :: cs ∧ w.sent ++ cs = str
  | .finished => Idle i w.sys ∧ w.sent = str
  | .refused => False

/-- How many steps the client has left to take while its printer is not at work. -/
def weight (c : Client) : Nat :=
  match c.place with
  | .puts => 6 * c.left.length + 1
  | .readWait => 6 * c.left.length
  | .judge => 6 * c.left.length - 1
  | .printWait => 6 * c.left.length - 2
  | .busyWait => 6 * c.left.length - 3
  | .ackWait => 6 * c.left.length - 4
  | .finished => 0
  | .refused => 0

section
variable {i : Fin maxDevices} {block : BitVec 64} {str : List Byte}

theorem other_working {sys : System} {left sent : List Byte} {a : Act}
    (working : Told i block sys ∧ ∃ c cs, left = c :: cs ∧
      (Printing i block sys c ∧ sent ++ c :: cs = str ∨ Idle i sys ∧ sent ++ cs = str))
    (foreign : ∀ b r, a ≠ .request (.printer, i) b r)
    (spared : ¬ Ends (.printer, i) sys a →
      loadReg (step sys a).ram block = loadReg sys.ram block) :
    Told i block (step sys a) ∧ ∃ c cs, left = c :: cs ∧
      (Printing i block (step sys a) c ∧ (sent ++ handed i sys a) ++ c :: cs = str ∨
        Idle i (step sys a) ∧ (sent ++ handed i sys a) ++ cs = str) := by
  obtain ⟨told, c, cs, same, ⟨printing, so⟩ | ⟨idle, so⟩⟩ := working
  · obtain ⟨told', ⟨still, none⟩ | ⟨idle, drawn⟩⟩ := other_printing printing told foreign spared
    · exact ⟨told', c, cs, same, Or.inl ⟨still, by rw [none, List.append_nil]; exact so⟩⟩
    · refine ⟨told', c, cs, same, Or.inr ⟨idle, ?_⟩⟩
      rw [drawn, List.append_assoc]
      exact so
  · obtain ⟨regs, kept, none⟩ := other_idle idle foreign spared
    refine ⟨?_, c, cs, same, Or.inr ⟨?_, ?_⟩⟩
    · rw [Told, regs, kept]
      exact told
    · rw [Idle, regs]
      exact idle
    · rw [none, List.append_nil]
      exact so

theorem other_fine {w : World} (fine : Fine i block str w) {a : Act}
    (unseen : Private i block w (.other a)) : Fine i block str (move i block w (.other a)) := by
  obtain ⟨sys, ⟨place, left⟩, sent⟩ := w
  obtain ⟨foreign, spared⟩ := unseen
  dsimp only [move] at *
  have quiet : Idle i sys → Idle i (step sys a) ∧ handed i sys a = [] ∧
      (Told i block sys → Told i block (step sys a)) := by
    intro idle
    obtain ⟨regs, kept, none⟩ := other_idle idle foreign spared
    refine ⟨by rw [Idle, regs]; exact idle, none, ?_⟩
    intro told
    rw [Told, regs, kept]
    exact told
  unfold Fine at fine ⊢
  cases place with
  | puts =>
    obtain ⟨idle, so⟩ := fine
    obtain ⟨after, none, -⟩ := quiet idle
    exact ⟨after, by rw [none, List.append_nil]; exact so⟩
  | readWait =>
    obtain ⟨idle, told, more, so⟩ := fine
    obtain ⟨after, none, kept⟩ := quiet idle
    exact ⟨after, kept told, more, by rw [none, List.append_nil]; exact so⟩
  | judge =>
    obtain ⟨idle, told, more, so⟩ := fine
    obtain ⟨after, none, kept⟩ := quiet idle
    exact ⟨after, kept told, more, by rw [none, List.append_nil]; exact so⟩
  | printWait => exact other_working fine foreign spared
  | busyWait => exact other_working fine foreign spared
  | ackWait =>
    obtain ⟨idle, told, c, cs, same, so⟩ := fine
    obtain ⟨after, none, kept⟩ := quiet idle
    exact ⟨after, kept told, c, cs, same, by rw [none, List.append_nil]; exact so⟩
  | finished =>
    obtain ⟨idle, so⟩ := fine
    obtain ⟨after, none, -⟩ := quiet idle
    exact ⟨after, by rw [none, List.append_nil]; exact so⟩
  | refused => exact fine

theorem client_fine {w : World} (given : block ≠ 0) (fine : Fine i block str w) :
    Fine i block str (move i block w .client) ∧
      weight (move i block w .client).client ≤ weight w.client ∧
      (¬ Busy w.sys (.printer, i) → weight w.client = 0 ∨
        weight (move i block w .client).client < weight w.client) := by
  obtain ⟨sys, ⟨place, left⟩, sent⟩ := w
  have marked : Told i block sys → (loadReg sys.ram block).mailbox ≠ 0 := by
    intro told
    rw [told.1, told.2]
    decide
  have positive : ∀ {c : Byte} {cs : List Byte}, left = c :: cs → 0 < left.length := by
    rintro c cs rfl
    exact Nat.succ_pos _
  dsimp only [move]
  unfold Fine at fine
  dsimp only at fine
  cases place with
  | puts =>
    obtain ⟨idle, so⟩ := fine
    by_cases spent : left = []
    · simp only [clientStep, if_pos spent, weight]
      refine ⟨⟨idle, ?_⟩, by omega, fun _ => Or.inr (by omega)⟩
      simpa [spent] using so
    · simp only [clientStep, if_neg spent, weight]
      obtain ⟨after, told⟩ := @read_answers i block sys idle given ⟨0, readRegisters, 0, 0, 0⟩ rfl
      exact ⟨⟨after, told, spent, so⟩, by omega, fun _ => Or.inr (by omega)⟩
  | readWait =>
    obtain ⟨idle, told, more, so⟩ := fine
    have some := List.length_pos_iff.mpr more
    simp only [clientStep, if_neg (marked told), weight]
    exact ⟨⟨idle, told, more, so⟩, by omega, fun _ => Or.inr (by omega)⟩
  | judge =>
    obtain ⟨idle, told, more, so⟩ := fine
    have some := List.length_pos_iff.mpr more
    have ready : printStatus (loadReg sys.ram block) = deviceReady := by
      rw [printStatus, told.1, idle]
      decide
    simp only [clientStep, ready, ne_eq, not_true_eq_false, ↓reduceIte, weight]
    obtain ⟨c, cs, rfl⟩ := List.exists_cons_of_ne_nil more
    obtain ⟨printing, told'⟩ := @print_accepted i block sys idle given
      { loadReg sys.ram block with mailbox := 0, command := printChar, data0 := c.setWidth 32 } c
      rfl rfl
    exact ⟨⟨told', c, cs, rfl, Or.inl ⟨printing, so⟩⟩, by omega, fun _ => Or.inr (by omega)⟩
  | printWait =>
    have working := fine
    obtain ⟨told, c, cs, same, -⟩ := fine
    have some := positive same
    simp only [clientStep, if_neg (marked told), weight]
    exact ⟨working, by omega, fun _ => Or.inr (by omega)⟩
  | busyWait =>
    have working := fine
    obtain ⟨told, c, cs, same, ⟨printing, so⟩ | ⟨idle, so⟩⟩ := fine
    · have busy : printStatus (loadReg sys.ram block) = deviceBusy := by
        rw [printStatus, told.1, printing.busy]
        decide
      simp only [clientStep, if_pos busy]
      exact ⟨working, Nat.le_refl _, fun free => absurd printing.busy free⟩
    · have some := positive same
      have ready : ¬ printStatus (loadReg sys.ram block) = deviceBusy := by
        rw [printStatus, told.1, idle]
        decide
      simp only [clientStep, if_neg ready, weight]
      obtain ⟨after, told'⟩ := @ack_answers i block sys idle given
        { loadReg sys.ram block with mailbox := 0, command := Registers.ack } rfl
      exact ⟨⟨after, told', c, cs, same, so⟩, by omega, fun _ => Or.inr (by omega)⟩
  | ackWait =>
    obtain ⟨idle, told, c, cs, rfl, so⟩ := fine
    simp only [clientStep, if_neg (marked told), weight, List.tail_cons, List.length_cons]
    exact ⟨⟨idle, so⟩, by omega, fun _ => Or.inr (by omega)⟩
  | finished => exact ⟨fine, Nat.le_refl _, fun _ => Or.inl rfl⟩
  | refused => exact absurd fine id

theorem move_fine {w : World} (given : block ≠ 0) (fine : Fine i block str w) {m : Move}
    (unseen : Private i block w m) :
    Fine i block str (move i block w m) ∧
      weight (move i block w m).client ≤ weight w.client ∧
      (Free i w m → weight w.client = 0 ∨
        weight (move i block w m).client < weight w.client) := by
  cases m with
  | client => exact client_fine given fine
  | other a => exact ⟨other_fine fine unseen, Nat.le_refl _, fun free => absurd free id⟩

end

theorem fine_starts {i : Fin maxDevices} {block : BitVec 64} {str : List Byte} {w : World}
    (fine : Fine i block str w) : w.sent <+: str := by
  obtain ⟨sys, ⟨place, left⟩, sent⟩ := w
  unfold Fine at fine
  dsimp only at fine ⊢
  cases place with
  | puts => exact ⟨left, fine.2⟩
  | readWait => exact ⟨left, fine.2.2.2⟩
  | judge => exact ⟨left, fine.2.2.2⟩
  | printWait =>
    obtain ⟨-, c, cs, -, ⟨-, so⟩ | ⟨-, so⟩⟩ := fine
    · exact ⟨c :: cs, so⟩
    · exact ⟨cs, so⟩
  | busyWait =>
    obtain ⟨-, c, cs, -, ⟨-, so⟩ | ⟨-, so⟩⟩ := fine
    · exact ⟨c :: cs, so⟩
    · exact ⟨cs, so⟩
  | ackWait =>
    obtain ⟨-, -, c, cs, -, so⟩ := fine
    exact ⟨cs, so⟩
  | finished => exact ⟨[], by rw [List.append_nil]; exact fine.2⟩
  | refused => exact absurd fine id

theorem fine_over {i : Fin maxDevices} {block : BitVec 64} {str : List Byte} {w : World}
    (fine : Fine i block str w) (spent : weight w.client = 0) : w.client.place = .finished := by
  obtain ⟨sys, ⟨place, left⟩, sent⟩ := w
  unfold Fine at fine
  dsimp only at fine ⊢
  have some : left ≠ [] → 0 < left.length := List.length_pos_iff.mpr
  cases place with
  | puts => simp [weight] at spent
  | readWait =>
    have more := some fine.2.2.1
    simp only [weight] at spent
    omega
  | judge =>
    have more := some fine.2.2.1
    simp only [weight] at spent
    omega
  | printWait =>
    obtain ⟨-, c, cs, rfl, -⟩ := fine
    simp only [weight, List.length_cons] at spent
    omega
  | busyWait =>
    obtain ⟨-, c, cs, rfl, -⟩ := fine
    simp only [weight, List.length_cons] at spent
    omega
  | ackWait =>
    obtain ⟨-, -, c, cs, rfl, -⟩ := fine
    simp only [weight, List.length_cons] at spent
    omega
  | finished => rfl
  | refused => exact absurd fine id

def started (s : System) (str : List Byte) : World := ⟨s, ⟨.puts, str⟩, []⟩

theorem started_fine {i : Fin maxDevices} {block : BitVec 64} {s : System} (ready : Idle i s)
    (str : List Byte) : Fine i block str (started s str) := ⟨ready, rfl⟩

theorem tick_private {i : Fin maxDevices} {block : BitVec 64} (w : World) (count : Nat) :
    Private i block w (.other (.tick count)) := ⟨by simp, fun _ => rfl⟩

theorem expire_private {i : Fin maxDevices} {block : BitVec 64} {w : World} {next : Timer}
    (ends : Ends (.printer, i) w.sys (.expire next)) : Private i block w (.other (.expire next)) :=
  ⟨by simp, fun early => absurd ends early⟩

end TermPuts
