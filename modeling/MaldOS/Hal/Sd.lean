import MaldOS.Arch
import MaldOS.Library.ByteMemory
import MaldOS.Library.Slices

/-!
The card as `sd_transferblock` shows it to its callers: a row of 512-byte
sectors, and for each transfer to come the number of blocks after which it will
be given up, if it is not to succeed.
-/
namespace Sd
open Arch ByteMemory Slices

inductive ReadWrite where
  | sdReadblock
  | sdWriteblock
  deriving DecidableEq

structure Card where
  bytes : Nat → Byte
  fault : Nat → Option Nat
  issued : Nat

def Sound (c : Card) : Prop := ∀ n, c.issued ≤ n → c.fault n = none

/-- Blocks moved by the next transfer of `num` blocks, and whether it succeeds. -/
def outcome (c : Card) (num : Nat) : Nat × Bool :=
  match c.fault c.issued with
  | none => (num, true)
  | some k => (min k num, false)

def sdTransferblock (c : Card) (lba : Nat) (buffer : Buffer Byte) (num : Nat)
    (readwrite : ReadWrite) : Int × Buffer Byte × Card :=
  let lba := u32 lba
  let num := if u32 num < 1 then 1 else u32 num
  let (moved, ok) := outcome c num
  let r : Int := if ok then num * 512 else 0
  match readwrite with
  | .sdReadblock =>
    (r, buffer.put 0 (fun i => c.bytes (lba * 512 + i)) (moved * 512),
      { c with issued := c.issued + 1 })
  | .sdWriteblock =>
    (r, buffer.touch 0 (moved * 512),
      { c with bytes := blit c.bytes (lba * 512) buffer.get (moved * 512), issued := c.issued + 1 })

theorem read_good {c : Card} (good : c.fault c.issued = none) (lba : Nat) (buffer : Buffer Byte)
    {num : Nat} (some : 0 < num) (small : num < 2 ^ 32) :
    sdTransferblock c lba buffer num .sdReadblock =
      ((num : Int) * 512, buffer.put 0 (fun i => c.bytes (u32 lba * 512 + i)) (num * 512),
        { c with issued := c.issued + 1 }) := by
  have one : ¬ num < 1 := by omega
  simp [sdTransferblock, u32_of_lt small, one, outcome, good]

theorem read_failed {c : Card} {k : Nat} (fails : c.fault c.issued = some k) (lba : Nat)
    (buffer : Buffer Byte) (num : Nat) : (sdTransferblock c lba buffer num .sdReadblock).1 = 0 := by
  simp [sdTransferblock, outcome, fails]

theorem block_moved (c : Card) {num : Nat} (blocks : 0 < num) :
    (outcome c num).1 = 0 ↔ c.fault c.issued = some 0 := by
  unfold outcome
  cases c.fault c.issued with
  | none => simp [blocks.ne']
  | some k => simp [blocks.ne']

theorem block_read (c : Card) (lba : Nat) (buffer : Buffer Byte) (num : Nat) {i : Nat}
    (inside : i < 512) :
    (sdTransferblock c lba buffer num .sdReadblock).2.1.get i =
      if c.fault c.issued = some 0 then buffer.get i else c.bytes (u32 lba * 512 + i) := by
  unfold sdTransferblock
  generalize count : (if u32 num < 1 then 1 else u32 num) = blocks
  have some : 0 < blocks := by
    split_ifs at count <;> omega
  have moved := block_moved c some
  dsimp only
  rw [put_get]
  split_ifs with lost
  · rw [moved.mpr lost, Nat.zero_mul, blit_nothing]
  · have first : (outcome c blocks).1 ≠ 0 := fun none => lost (moved.mp none)
    rw [blit_front _ _ (by omega)]

theorem sound_outcome {c : Card} (sound : Sound c) (num : Nat) : outcome c num = (num, true) := by
  simp [outcome, sound c.issued le_rfl]

theorem read_sound {c : Card} (sound : Sound c) (lba : Nat) (buffer : Buffer Byte) {num : Nat}
    (some : 0 < num) (small : num < 2 ^ 32) :
    sdTransferblock c lba buffer num .sdReadblock =
      ((num : Int) * 512, buffer.put 0 (fun i => c.bytes (u32 lba * 512 + i)) (num * 512),
        { c with issued := c.issued + 1 }) := read_good (sound c.issued le_rfl) lba buffer some small

theorem write_sound {c : Card} (sound : Sound c) (lba : Nat) (buffer : Buffer Byte) {num : Nat}
    (some : 0 < num) (small : num < 2 ^ 32) :
    sdTransferblock c lba buffer num .sdWriteblock =
      ((num : Int) * 512, buffer.touch 0 (num * 512),
        { c with
          bytes := blit c.bytes (u32 lba * 512) buffer.get (num * 512), issued := c.issued + 1 }) := by
  have one : ¬ num < 1 := by omega
  simp [sdTransferblock, u32_of_lt small, one, sound_outcome sound]

theorem sound_later {c c' : Card} (sound : Sound c) (same : c'.fault = c.fault)
    (later : c.issued ≤ c'.issued) : Sound c' := by
  intro n bound
  rw [same]
  exact sound n (by omega)

end Sd
