import MaldOS.Arch

/-!
`timers.c`: the counter read as microseconds, and the two timers of a core. The
virtual counter has no offset to the physical one, so both are read as `count`.
-/
namespace ArmTimers
open Arch

/-- A timer register: when enabled, it raises its interrupt at `expiry` at the latest. -/
structure ArmTimer where
  enabled : Bool
  expiry : Nat
  deriving DecidableEq

structure Counter where
  frequency : Nat
  count : Nat

def getarmclkfrq (c : Counter) : Nat := u32 c.frequency

def getTOD (c : Counter) : Nat := u64 (c.count * 1000 * 1000) / getarmclkfrq c

/-- `CNTP_TVAL` and `CNTV_TVAL` are signed: a value with bit 31 set lies in the past. -/
def writeTimerValue (c : Counter) (t : ArmTimer) (val : Nat) : ArmTimer :=
  { t with expiry := (c.count + i32 val).toNat }

/-- What `set_physical_timer` and `set_virtual_timer` both do; their argument is an
    `unsigned int`, and the callers drop the result. -/
def setTimer (c : Counter) (t : ArmTimer) (timer : Nat) : Int × ArmTimer :=
  let tmp1 := getarmclkfrq c
  let value := u64 (tmp1 * u32 timer) / 1000000
  if value > 0xFFFFFFFF then (-1, t)
  else (0, { writeTimerValue c t value with enabled := true })

def setPhysicalTimer (c : Counter) (t : ArmTimer) (timer : Nat) : ArmTimer := (setTimer c t timer).2

def setVirtualTimer (c : Counter) (t : ArmTimer) (timer : Nat) : ArmTimer := (setTimer c t timer).2

def disablePhysicalCounter (t : ArmTimer) : ArmTimer := { t with enabled := false }

def disableVirtualCounter (t : ArmTimer) : ArmTimer := { t with enabled := false }

def Refused (c : Counter) (timer : Nat) : Prop :=
  getarmclkfrq c * u32 timer / 1000000 > 0xFFFFFFFF

def InTime (c : Counter) (t : ArmTimer) (microseconds : Nat) : Prop :=
  t.enabled = true ∧ (t.expiry - c.count) * 1000000 ≤ getarmclkfrq c * microseconds

theorem tick_product (c : Counter) (timer : Nat) :
    u64 (getarmclkfrq c * u32 timer) = getarmclkfrq c * u32 timer := by
  apply u64_of_lt
  have frequency := u32_lt c.frequency
  have interval := u32_lt timer
  unfold getarmclkfrq
  calc u32 c.frequency * u32 timer
      ≤ (2 ^ 32 - 1) * (2 ^ 32 - 1) := Nat.mul_le_mul (by omega) (by omega)
    _ < 2 ^ 64 := by decide

theorem setTimer_refused {c : Counter} {timer : Nat} (refused : Refused c timer) (t : ArmTimer) :
    (setTimer c t timer).2 = t := by
  unfold Refused at refused
  simp only [setTimer, tick_product, if_pos refused]

/-- An accepted interval is cut to 31 bits and to whole ticks, and so never ends late. -/
theorem setTimer_inTime {c : Counter} {timer : Nat} (taken : ¬ Refused c timer) (t : ArmTimer) :
    InTime c (setTimer c t timer).2 timer := by
  unfold Refused at taken
  have cut : u32 timer ≤ timer := Nat.mod_le _ _
  have scaled := Nat.mul_le_mul_left (getarmclkfrq c) cut
  have early := i32_le (getarmclkfrq c * u32 timer / 1000000)
  simp only [setTimer, tick_product, if_neg taken, writeTimerValue, InTime, true_and]
  omega

theorem setTimer_inTime_iff (c : Counter) (t : ArmTimer) (timer : Nat) :
    InTime c (setTimer c t timer).2 timer ↔ ¬ Refused c timer ∨ InTime c t timer := by
  by_cases refused : Refused c timer
  · rw [setTimer_refused refused]
    simp [refused]
  · simp [refused, setTimer_inTime refused]

/-- The register of a timer that fires after all of an interval. -/
def wholeInterval (c : Counter) (timer : Nat) : ArmTimer :=
  ⟨true, c.count + getarmclkfrq c * timer / 1000000⟩

/-- The register takes the interval, or is set to its end already. -/
def FitsRegister (c : Counter) (t : ArmTimer) (timer : Nat) : Prop :=
  getarmclkfrq c * timer / 1000000 < 2 ^ 31 ∧ (timer < 2 ^ 32 ∨ getarmclkfrq c = 0) ∨
    Refused c timer ∧ t = wholeInterval c timer

theorem ticks_cut_iff (f timer : Nat) :
    f * u32 timer / 1000000 = f * timer / 1000000 ↔ timer < 2 ^ 32 ∨ f = 0 := by
  constructor
  · intro same
    by_contra neither
    obtain ⟨long, running⟩ := not_or.mp neither
    have lost : u32 timer + 2 ^ 32 ≤ timer := by
      unfold u32
      omega
    have scaled := Nat.mul_le_mul_left f lost
    have tick : 2 ^ 32 ≤ f * 2 ^ 32 := Nat.le_mul_of_pos_left _ (Nat.pos_of_ne_zero running)
    rw [Nat.mul_add] at scaled
    omega
  · rintro (short | rfl)
    · rw [u32_of_lt short]
    · rw [Nat.zero_mul, Nat.zero_mul]

theorem setTimer_whole_iff (c : Counter) (t : ArmTimer) (timer : Nat) :
    (setTimer c t timer).2 = wholeInterval c timer ↔ FitsRegister c t timer := by
  unfold FitsRegister
  by_cases refused : Refused c timer
  · have long : ¬ (getarmclkfrq c * timer / 1000000 < 2 ^ 31 ∧
        (timer < 2 ^ 32 ∨ getarmclkfrq c = 0)) := by
      rintro ⟨short, whole⟩
      rw [← ticks_cut_iff] at whole
      unfold Refused at refused
      omega
    rw [setTimer_refused refused, or_iff_right long, and_iff_right refused]
  · have taken : ¬ getarmclkfrq c * u32 timer / 1000000 > 0xFFFFFFFF := refused
    have cut := ticks_cut_iff (getarmclkfrq c) timer
    have fewer : getarmclkfrq c * u32 timer / 1000000 ≤ getarmclkfrq c * timer / 1000000 :=
      Nat.div_le_div_right (Nat.mul_le_mul_left _ (Nat.mod_le _ _))
    simp only [setTimer, tick_product, if_neg taken, writeTimerValue, wholeInterval,
      ArmTimer.mk.injEq, true_and, refused, false_and, or_false]
    rw [← cut]
    by_cases low : getarmclkfrq c * u32 timer / 1000000 < 2 ^ 31
    · rw [i32_of_lt low]
      omega
    · have past := i32_neg (Nat.le_of_not_lt low) (by omega)
      omega

end ArmTimers
