import Mathlib.Data.List.GetD
import Mathlib.Data.List.OfFn
import Mathlib.Algebra.Group.Nat.Defs

/-!
Byte-addressed memory with a wrapping address space of `w` bits, and the
little-endian words stored in it. Ranges are taken modulo `2 ^ w`, so nothing
here assumes that an object does not straddle the top of the address space.
-/
namespace ByteMemory

abbrev Byte := BitVec 8

def ofBytes : List Byte → Nat
  | [] => 0
  | b :: bs => b.toNat + 256 * ofBytes bs

def toBytes : Nat → Nat → List Byte
  | 0, _ => []
  | n + 1, v => BitVec.ofNat 8 v :: toBytes n (v / 256)

@[simp] theorem toBytes_length (n v : Nat) : (toBytes n v).length = n := by
  induction n generalizing v with
  | zero => rfl
  | succ n ih => simp [toBytes, ih]

theorem ofBytes_toBytes (n v : Nat) : ofBytes (toBytes n v) = v % 256 ^ n := by
  induction n generalizing v with
  | zero => simp [toBytes, ofBytes, Nat.mod_one]
  | succ n ih =>
    simp only [toBytes, ofBytes, ih, BitVec.toNat_ofNat]
    rw [show 256 ^ (n + 1) = 256 * 256 ^ n from Nat.pow_succ']
    exact Nat.mod_mul.symm

theorem ofBytes_lt (bs : List Byte) : ofBytes bs < 256 ^ bs.length := by
  induction bs with
  | nil => simp [ofBytes]
  | cons b bs ih =>
    have low := b.isLt
    simp only [ofBytes, List.length_cons, Nat.pow_succ]
    omega

theorem toBytes_ofBytes (bs : List Byte) : toBytes bs.length (ofBytes bs) = bs := by
  induction bs with
  | nil => rfl
  | cons b bs ih =>
    have low := b.isLt
    have high : (b.toNat + 256 * ofBytes bs) / 256 = ofBytes bs := by omega
    simp only [ofBytes, List.length_cons, toBytes, high, ih, List.cons.injEq, and_true]
    apply BitVec.eq_of_toNat_eq
    rw [BitVec.toNat_ofNat]
    omega

abbrev Memory (w : Nat) := BitVec w → Byte

variable {w : Nat}

def store (m : Memory w) (a : BitVec w) (bs : List Byte) : Memory w :=
  fun x => bs.getD (x - a).toNat (m x)

def load (m : Memory w) (a : BitVec w) (n : Nat) : List Byte :=
  (List.range n).map fun i => m (a + BitVec.ofNat w i)

/-- No byte of the `n` from `a` is one of the `k` from `b`. -/
def Apart (a : BitVec w) (n : Nat) (b : BitVec w) (k : Nat) : Prop :=
  ∀ i < n, k ≤ (a + BitVec.ofNat w i - b).toNat

@[simp] theorem load_length (m : Memory w) (a : BitVec w) (n : Nat) :
    (load m a n).length = n := by simp [load]

theorem store_outside (m : Memory w) (a : BitVec w) (bs : List Byte) (x : BitVec w)
    (outside : bs.length ≤ (x - a).toNat) : store m a bs x = m x :=
  List.getD_eq_default _ _ outside

theorem store_inside (m : Memory w) (a : BitVec w) (bs : List Byte) (i : Nat)
    (inside : i < bs.length) (room : bs.length ≤ 2 ^ w) :
    store m a bs (a + BitVec.ofNat w i) = bs[i] := by
  have offset : (a + BitVec.ofNat w i - a).toNat = i := by
    rw [BitVec.add_comm, BitVec.add_sub_cancel, BitVec.toNat_ofNat, Nat.mod_eq_of_lt]
    omega
  rw [store, offset, List.getD_eq_getElem _ _ inside]

theorem store_append (m : Memory w) (a : BitVec w) (bs cs : List Byte)
    (room : bs.length + cs.length ≤ 2 ^ w) :
    store (store m a bs) (a + BitVec.ofNat w bs.length) cs = store m a (bs ++ cs) := by
  funext x
  have bound := (x - a).isLt
  have shift : (x - (a + BitVec.ofNat w bs.length)).toNat =
      (2 ^ w - bs.length % 2 ^ w + (x - a).toNat) % 2 ^ w := by
    rw [← BitVec.sub_sub, BitVec.toNat_sub, BitVec.toNat_ofNat]
  unfold store
  by_cases first : (x - a).toNat < bs.length
  · have later : cs.length ≤ (x - (a + BitVec.ofNat w bs.length)).toNat := by
      rw [shift]
      by_cases whole : bs.length < 2 ^ w
      · rw [Nat.mod_eq_of_lt whole, Nat.mod_eq_of_lt (by omega)]
        omega
      · omega
    rw [List.getD_eq_default _ _ later, List.getD_append _ _ _ _ first]
  · have here : (x - (a + BitVec.ofNat w bs.length)).toNat = (x - a).toNat - bs.length := by
      rw [shift, Nat.mod_eq_of_lt (by omega : bs.length < 2 ^ w),
        show 2 ^ w - bs.length + (x - a).toNat = ((x - a).toNat - bs.length) + 2 ^ w by omega,
        Nat.add_mod_right, Nat.mod_eq_of_lt (by omega)]
    rw [here, List.getD_append_right _ _ _ _ (by omega),
      List.getD_eq_default bs _ (by omega)]

theorem load_append (m : Memory w) (a : BitVec w) (n k : Nat) :
    load m a (n + k) = load m a n ++ load m (a + BitVec.ofNat w n) k := by
  simp only [load, List.range_add, List.map_append, List.map_map]
  apply congrArg
  apply List.map_congr_left
  intro i _
  simp only [Function.comp_apply, BitVec.ofNat_add, BitVec.add_assoc]

theorem store_load (m : Memory w) (a : BitVec w) (n : Nat) : store m a (load m a n) = m := by
  funext x
  by_cases inside : (x - a).toNat < n
  · rw [store, List.getD_eq_getElem _ _ (by simpa using inside)]
    simp only [load, List.getElem_map, List.getElem_range, BitVec.ofNat_toNat, BitVec.setWidth_eq]
    rw [BitVec.add_comm, BitVec.sub_add_cancel]
  · exact store_outside m a _ x (by simpa using inside)

theorem load_store_same (m : Memory w) (a : BitVec w) (bs : List Byte)
    (room : bs.length ≤ 2 ^ w) : load (store m a bs) a bs.length = bs := by
  apply List.ext_getElem
  · simp
  · intro i _ inside
    simp only [load, List.getElem_map, List.getElem_range]
    exact store_inside m a bs i inside room

theorem load_store_apart (m : Memory w) (a b : BitVec w) (n : Nat) (bs : List Byte)
    (apart : Apart a n b bs.length) : load (store m b bs) a n = load m a n := by
  apply List.map_congr_left
  intro i member
  exact store_outside m b bs _ (apart i (List.mem_range.mp member))

theorem Apart.mono {a b : BitVec w} {n k n' k' : Nat} (apart : Apart a n b k) (inner : n' ≤ n)
    (outer : k' ≤ k) : Apart a n' b k' := by
  intro i bound
  exact outer.trans (apart i (by omega))

theorem Apart.sub {a b : BitVec w} {n k : Nat} (apart : Apart a n b k) (i j n' k' : Nat)
    (inner : i + n' ≤ n) (outer : j + k' ≤ k) :
    Apart (a + BitVec.ofNat w i) n' (b + BitVec.ofNat w j) k' := by
  intro l bound
  have far := apart (i + l) (by omega)
  have shift : a + BitVec.ofNat w i + BitVec.ofNat w l - (b + BitVec.ofNat w j) =
      a + BitVec.ofNat w (i + l) - b - BitVec.ofNat w j := by
    rw [BitVec.ofNat_add, BitVec.add_assoc, BitVec.sub_sub]
  rw [shift, BitVec.toNat_sub, BitVec.toNat_ofNat]
  have small := (a + BitVec.ofNat w (i + l) - b).isLt
  have jsmall : j % 2 ^ w ≤ j := Nat.mod_le _ _
  rw [show 2 ^ w - j % 2 ^ w + (a + BitVec.ofNat w (i + l) - b).toNat =
    ((a + BitVec.ofNat w (i + l) - b).toNat - j % 2 ^ w) + 2 ^ w by omega,
    Nat.add_mod_right, Nat.mod_eq_of_lt (by omega)]
  omega

theorem Apart.symm {a b : BitVec w} {n k : Nat} (apart : Apart a n b k) : Apart b k a n := by
  intro j bound
  by_contra near
  have meet : a + BitVec.ofNat w (b + BitVec.ofNat w j - a).toNat - b = BitVec.ofNat w j := by
    rw [BitVec.ofNat_toNat, BitVec.setWidth_eq, BitVec.add_comm a, BitVec.sub_add_cancel,
      BitVec.add_comm b, BitVec.add_sub_cancel]
  have far := apart _ (Nat.lt_of_not_le near)
  rw [meet, BitVec.toNat_ofNat] at far
  have small := Nat.mod_le j (2 ^ w)
  omega

def loadWord (n : Nat) (m : Memory w) (a : BitVec w) : BitVec (8 * n) :=
  BitVec.ofNat (8 * n) (ofBytes (load m a n))

def storeWord (n : Nat) (m : Memory w) (a : BitVec w) (v : BitVec (8 * n)) : Memory w :=
  store m a (toBytes n v.toNat)

theorem pow_bytes (n : Nat) : 256 ^ n = 2 ^ (8 * n) := by
  rw [show 256 = 2 ^ 8 by rfl, ← Nat.pow_mul]

theorem toBytes_loadWord (n : Nat) (m : Memory w) (a : BitVec w) :
    toBytes n (loadWord n m a).toNat = load m a n := by
  have bound := ofBytes_lt (load m a n)
  rw [load_length, pow_bytes] at bound
  have back := toBytes_ofBytes (load m a n)
  rwa [load_length, ← Nat.mod_eq_of_lt bound, ← BitVec.toNat_ofNat] at back

theorem loadWord_of_load {n : Nat} {m : Memory w} {a : BitVec w} {v : BitVec (8 * n)}
    (held : load m a n = toBytes n v.toNat) : loadWord n m a = v := by
  apply BitVec.eq_of_toNat_eq
  rw [loadWord, held, ofBytes_toBytes, pow_bytes, BitVec.toNat_ofNat, Nat.mod_mod]
  exact Nat.mod_eq_of_lt v.isLt

theorem ofBytes_append (bs cs : List Byte) :
    ofBytes (bs ++ cs) = ofBytes bs + 256 ^ bs.length * ofBytes cs := by
  induction bs with
  | nil => simp [ofBytes]
  | cons b bs ih =>
    rw [List.cons_append, ofBytes, ih, ofBytes, List.length_cons, Nat.pow_succ, Nat.mul_add,
      Nat.add_assoc, Nat.mul_comm _ 256, Nat.mul_assoc]

theorem toBytes_split (n k v : Nat) : toBytes (n + k) v = toBytes n v ++ toBytes k (v / 256 ^ n) := by
  induction n generalizing v with
  | zero =>
    rw [Nat.zero_add, Nat.pow_zero, Nat.div_one]
    rfl
  | succ n ih =>
    rw [Nat.succ_add, toBytes, ih, toBytes, List.cons_append, Nat.div_div_eq_div_mul,
      ← Nat.pow_succ']

theorem loadWord_low (n k : Nat) (m : Memory w) (a : BitVec w) :
    loadWord n m a = (loadWord (n + k) m a).setWidth (8 * n) := by
  have split : ofBytes (load m a (n + k)) =
      ofBytes (load m a n) + 2 ^ (8 * n) * ofBytes (load m (a + BitVec.ofNat w n) k) := by
    rw [load_append, ofBytes_append, load_length, pow_bytes]
  have wider : 2 ^ (8 * n) ∣ 2 ^ (8 * (n + k)) := Nat.pow_dvd_pow 2 (by omega)
  apply BitVec.eq_of_toNat_eq
  unfold loadWord
  rw [BitVec.toNat_setWidth, BitVec.toNat_ofNat, BitVec.toNat_ofNat, Nat.mod_mod_of_dvd _ wider,
    split, Nat.add_mul_mod_self_left]

end ByteMemory
