import MaldOS.Emulated.Apart
import MaldOS.Emulated.Terminals

/-!
What every action of the system does to the screen: the completion of a
PRINT_CHAR sends one character to the terminal of its printer, and nothing else
draws anything or moves a cursor.
-/
namespace Emulated
open Arch ByteMemory Registers ArmTimers EmulatedTimers Runs

def System.view (s : System) : List (Int × Int × Byte) × (Fin maxDevices → Int × Int) :=
  (s.screen, fun i => (s.printers i).coordinates)

theorem view_ite {c : Prop} [Decidable c] {s s' : System}
    {v : List (Int × Int × Byte) × (Fin maxDevices → Int × Int)} (yes : s.view = v)
    (no : s'.view = v) : (if c then s else s').view = v := by
  split_ifs
  · exact yes
  · exact no

theorem view_snd {c : Prop} [Decidable c] {r r' : BitVec 32 × System}
    {v : List (Int × Int × Byte) × (Fin maxDevices → Int × Int)} (yes : r.2.view = v)
    (no : r'.2.view = v) : (if c then r else r').2.view = v := by
  split_ifs
  · exact yes
  · exact no

theorem setDeviceTimer_view (s : System) (microseconds : Nat) (type : TimerType)
    (i : Fin maxDevices) : (setDeviceTimer s microseconds type i).view = s.view := by
  obtain ⟨virtualTimer, armed⟩ := setDeviceTimer_eq s microseconds type i
  rw [armed]
  rfl

theorem startDisk_view (s : System) (i : Fin maxDevices) (registers : BitVec 64) (message : DevReg)
    (timetodest : Nat) : (s.startDisk i registers message timetodest).view = s.view := by
  unfold System.startDisk
  exact setDeviceTimer_view _ _ _ _

theorem startTape_view (s : System) (i : Fin maxDevices) (registers : BitVec 64)
    (command data0 : BitVec 32) : (s.startTape i registers command data0).view = s.view := by
  unfold System.startTape
  exact setDeviceTimer_view _ _ _ _

theorem updateTapeHead_view (s : System) (i : Fin maxDevices) :
    (updateTapeHead s i).2.view = s.view := by
  unfold updateTapeHead
  dsimp only
  split_ifs <;> rfl

theorem printerMailbox_view (s : System) (i : Fin maxDevices) (registers : BitVec 64) :
    (emulatedPrinterMailbox s i registers).view = s.view := by
  unfold emulatedPrinterMailbox
  apply view_ite rfl
  apply view_ite rfl
  apply view_ite rfl
  apply view_ite
  · exact view_ite rfl rfl
  apply view_ite rfl
  apply view_ite
  · exact view_ite (setDeviceTimer_view _ _ _ _) rfl
  · rfl

theorem diskMailbox_view (s : System) (i : Fin maxDevices) (registers : BitVec 64) :
    (emulatedDiskMailbox s i registers).view = s.view := by
  unfold emulatedDiskMailbox
  apply view_ite rfl
  apply view_ite rfl
  apply view_ite rfl
  apply view_ite
  · exact view_ite rfl rfl
  apply view_ite rfl
  apply view_ite
  · exact view_ite (view_ite rfl (startDisk_view _ _ _ _ _)) rfl
  apply view_ite
  · exact view_ite (view_ite rfl (startDisk_view _ _ _ _ _)) rfl
  · rfl

theorem tapeMailbox_view (s : System) (i : Fin maxDevices) (registers : BitVec 64) :
    (emulatedTapeMailbox s i registers).view = s.view := by
  unfold emulatedTapeMailbox
  apply view_ite rfl
  apply view_ite rfl
  apply view_ite
  · exact updateTapeHead_view _ i
  apply view_ite
  · exact view_ite rfl rfl
  apply view_ite rfl
  apply view_ite
  · exact view_ite (startTape_view _ _ _ _ _) rfl
  apply view_ite
  · exact view_ite (startTape_view _ _ _ _ _) rfl
  apply view_ite
  · exact view_ite (view_ite rfl (startTape_view _ _ _ _ _)) rfl
  · rfl

theorem mailbox_view (s : System) (dev : Dev) (registers : BitVec 64) :
    (mailbox s dev registers).view = s.view := by
  obtain ⟨c, i⟩ := dev
  cases c with
  | printer => exact printerMailbox_view s i registers
  | tape => exact tapeMailbox_view s i registers
  | disk => exact diskMailbox_view s i registers

theorem tapeNextBlock_view (s : System) (i : Fin maxDevices) :
    (tapeNextBlock s i).2.view = s.view := by
  unfold tapeNextBlock
  split_ifs
  · rfl
  · exact updateTapeHead_view _ i

theorem tapePrevBlock_view (s : System) (i : Fin maxDevices) :
    (tapePrevBlock s i).2.view = s.view := by
  unfold tapePrevBlock
  split_ifs
  · exact updateTapeHead_view _ i
  · rfl

theorem readTapeBlock_view (s : System) (i : Fin maxDevices) (buffer : BitVec 64) :
    (readTapeBlock s i buffer).2.view = s.view := by
  unfold readTapeBlock
  dsimp only
  split_ifs <;> rfl

theorem readDiskBlock_view (s : System) (i : Fin maxDevices) (buffer : BitVec 64) :
    (readDiskBlock s i buffer).2.view = s.view := by
  unfold readDiskBlock
  dsimp only
  split_ifs <;> rfl

theorem writeDiskBlock_view (s : System) (i : Fin maxDevices) (buffer : BitVec 64) :
    (writeDiskBlock s i buffer).2.view = s.view := by
  unfold writeDiskBlock
  dsimp only
  split_ifs <;> rfl

/-- The character of the command in flight, if it is one of a printer. -/
def inFlight (s : System) (dev : Dev) : List Sent :=
  match dev with
  | (.printer, i) => [(i, (s.regs (.printer, i)).data0.setWidth 8)]
  | _ => []

theorem perform_view (s : System) (dev : Dev) :
    (perform s dev).2.view = (run send s (inFlight s dev)).view := by
  obtain ⟨c, i⟩ := dev
  cases c with
  | printer =>
    show System.view _ = (send s (i, (s.regs (.printer, i)).data0.setWidth 8)).view
    unfold perform
    dsimp only
    refine Prod.ext rfl (funext fun j => ?_)
    by_cases own : j = i
    · subst own
      simp [System.view, System.setPrinter, send]
    · simp [System.view, System.setPrinter, send, own]
  | tape =>
    apply view_snd
    · exact tapeNextBlock_view s i
    apply view_snd
    · exact tapePrevBlock_view s i
    apply view_snd
    · exact readTapeBlock_view s i _
    · exact (updateTapeHead_view _ i).trans (readTapeBlock_view s i _)
  | disk =>
    apply view_snd
    · rfl
    apply view_snd
    · exact readDiskBlock_view _ i _
    · exact writeDiskBlock_view _ i _

theorem completed_view {s s' : System} {dev : Dev} (completed : Completed dev s s') :
    s'.view = (run send s (inFlight s dev)).view := by
  rw [← perform_view]
  exact Prod.ext completed.screen (funext fun j => by
    simp only [System.view, completed.printers])

theorem manage_view (s : System) (dev : Dev) :
    (manage s dev).view = s.view ∨ Busy s dev ∧ Delayed dev.1 (s.regs dev).command ∧
      (manage s dev).view = (run send s (inFlight s dev)).view := by
  rcases manage_cases s dev with same | ⟨busy, delayed, completed⟩
  · rw [same]
    exact Or.inl rfl
  · exact Or.inr ⟨busy, delayed, completed_view completed⟩

theorem aside_view (s : System) {a : Act} (other : ¬ a.Serving) : (step s a).view = s.view := by
  cases a with
  | request dev block r => exact absurd trivial other
  | expire next => exact absurd trivial other
  | rearm res next =>
    show (rearm s (getTOD s.clock) res next).view = s.view
    unfold rearm
    generalize (if res = 0 then _ else disableVirtualCounter s.virtualTimer) = armed
    dsimp only
    split_ifs <;> rfl
  | clean => rfl
  | irq core source =>
    show (cIrqHandler s core source).view = s.view
    unfold cIrqHandler irqTimer
    dsimp only
    split_ifs <;> rfl
  | timer core microseconds =>
    show (setTIMER s core microseconds).view = s.view
    unfold setTIMER
    dsimp only
    split_ifs <;> rfl
  | tick count => rfl
  | write ram mask => rfl

/-- An action draws nothing, or completes a PRINT_CHAR and sends its character. -/
theorem step_view (s : System) (a : Act) :
    (step s a).view = s.view ∨ ∃ i, Ends (.printer, i) s a ∧ Busy s (.printer, i) ∧
      (s.regs (.printer, i)).command = printChar ∧
      (step s a).view = (send s (i, (s.regs (.printer, i)).data0.setWidth 8)).view := by
  by_cases serving : a.Serving
  · cases a with
    | request dev block r =>
      exact Or.inl (mailbox_view { s with ram := storeReg s.ram block r } dev block)
    | expire next =>
      rcases expire_cases s next with ⟨same, _⟩ | ⟨r, q, head, past, run⟩
      · rw [step, same]
        exact Or.inl rfl
      · rw [step, run]
        cases own : owner r with
        | none =>
          left
          simp only [manageTimer, own]
          rfl
        | some dev =>
          rw [manageTimer_owner own]
          rcases manage_view { s with queue := q } dev with same | ⟨busy, delayed, drawn⟩
          · exact Or.inl same
          · obtain ⟨c, i⟩ := dev
            cases c with
            | printer =>
              right
              exact ⟨i, ⟨⟨next, rfl⟩, r, _, head, past, own⟩, busy, delayed, drawn⟩
            | tape => exact Or.inl drawn
            | disk => exact Or.inl drawn
    | _ => exact absurd serving id
  · exact Or.inl (aside_view s serving)

end Emulated
