import MaldOS.Library.ByteMemory

/-!
Rows of 64-bit words in a byte memory: what a row holds after words were written
over it, next to it or away from it.
-/
namespace Words
open ByteMemory

abbrev Word := BitVec 64

variable {w : Nat}

def word (m : Memory w) (a : BitVec w) : Word := loadWord 8 m a

def encode (ws : List Word) : List Byte := ws.flatMap fun v => toBytes 8 v.toNat

def storeWords (m : Memory w) (a : BitVec w) (ws : List Word) : Memory w := store m a (encode ws)

def Holds (m : Memory w) (a : BitVec w) (ws : List Word) : Prop :=
  load m a (8 * ws.length) = encode ws

@[simp] theorem encode_length (ws : List Word) : (encode ws).length = 8 * ws.length := by
  induction ws with
  | nil => rfl
  | cons v ws ih =>
    simp only [encode, List.flatMap_cons, List.length_append, toBytes_length, List.length_cons]
      at ih ⊢
    omega

theorem encode_append (ws vs : List Word) : encode (ws ++ vs) = encode ws ++ encode vs :=
  List.flatMap_append

theorem holds_append (m : Memory w) (a : BitVec w) (ws vs : List Word) :
    Holds m a (ws ++ vs) ↔ Holds m a ws ∧ Holds m (a + BitVec.ofNat w (8 * ws.length)) vs := by
  unfold Holds
  rw [List.length_append, Nat.mul_add, load_append, encode_append]
  constructor
  · intro whole
    exact List.append_inj whole (by simp)
  · rintro ⟨first, second⟩
    rw [first, second]

theorem holds_singleton (m : Memory w) (a : BitVec w) (v : Word) :
    Holds m a [v] ↔ word m a = v := by
  have row : encode [v] = toBytes 8 v.toNat := List.append_nil _
  unfold Holds
  rw [row]
  constructor
  · exact loadWord_of_load
  · intro value
    rw [← value]
    exact (toBytes_loadWord 8 m a).symm

theorem holds_cons (m : Memory w) (a : BitVec w) (v : Word) (ws : List Word) :
    Holds m a (v :: ws) ↔ word m a = v ∧ Holds m (a + BitVec.ofNat w 8) ws := by
  rw [← List.singleton_append, holds_append, holds_singleton]
  rfl

theorem holds_get {m : Memory w} {a : BitVec w} {ws : List Word} (holds : Holds m a ws) {k : Nat}
    (inside : k < ws.length) : word m (a + BitVec.ofNat w (8 * k)) = ws[k] := by
  have split : ws.take k ++ ws[k] :: ws.drop (k + 1) = ws := by
    rw [← List.drop_eq_getElem_cons inside, List.take_append_drop]
  rw [← split, holds_append] at holds
  have here := ((holds_cons _ _ _ _).mp holds.2).1
  rwa [List.length_take, Nat.min_eq_left (Nat.le_of_lt inside)] at here

theorem storeWords_nil (m : Memory w) (a : BitVec w) : storeWords m a [] = m := by
  funext x
  exact store_outside m a _ x (Nat.zero_le _)

theorem holds_stored (m : Memory w) (a : BitVec w) {ws : List Word}
    (room : 8 * ws.length ≤ 2 ^ w) : Holds (storeWords m a ws) a ws := by
  have back := load_store_same m a (encode ws) (by simpa using room)
  rwa [encode_length] at back

theorem word_stored (m : Memory 64) (a : BitVec 64) (v : Word) : word (storeWords m a [v]) a = v :=
  (holds_singleton _ _ _).mp (holds_stored m a (by simp))

theorem holds_apart {m : Memory w} {a b : BitVec w} {ws vs : List Word}
    (apart : Apart a (8 * ws.length) b (8 * vs.length)) :
    Holds (storeWords m b vs) a ws ↔ Holds m a ws := by
  unfold Holds storeWords
  rw [load_store_apart m a b _ _ (by simpa using apart)]

theorem holds_of_load {m m' : Memory w} {a : BitVec w} {ws : List Word}
    (same : load m' a (8 * ws.length) = load m a (8 * ws.length)) (holds : Holds m a ws) :
    Holds m' a ws := by
  unfold Holds at holds ⊢
  rw [same, holds]

/-- A row stays when words are written inside a region apart from its own. -/
theorem holds_clear {m : Memory w} {a b : BitVec w} {ws vs : List Word} {n k : Nat}
    (holds : Holds m a ws) (apart : Apart a n b k) (row : 8 * ws.length ≤ n)
    (inside : 8 * vs.length ≤ k) : Holds (storeWords m b vs) a ws :=
  (holds_apart (apart.mono row inside)).mpr holds

theorem storeWords_held {m : Memory w} {a : BitVec w} {ws : List Word} (holds : Holds m a ws) :
    storeWords m a ws = m := by
  unfold Holds at holds
  unfold storeWords
  rw [← holds]
  exact store_load m a _

theorem apart_offsets (c : BitVec w) {i n j k : Nat} (disjoint : i + n ≤ j ∨ j + k ≤ i)
    (first : i + n ≤ 2 ^ w) (second : j + k ≤ 2 ^ w) :
    Apart (c + BitVec.ofNat w i) n (c + BitVec.ofNat w j) k := by
  intro l bound
  have shift : c + BitVec.ofNat w i + BitVec.ofNat w l - (c + BitVec.ofNat w j) =
      BitVec.ofNat w (i + l) - BitVec.ofNat w j := by
    rw [BitVec.add_assoc, ← BitVec.ofNat_add, ← BitVec.sub_sub, BitVec.add_comm c,
      BitVec.add_sub_cancel]
  rw [shift, BitVec.toNat_sub, BitVec.toNat_ofNat, BitVec.toNat_ofNat]
  by_cases none : k = 0
  · omega
  rw [Nat.mod_eq_of_lt (by omega : j < 2 ^ w), Nat.mod_eq_of_lt (by omega : i + l < 2 ^ w)]
  rcases disjoint with before | after
  · rw [Nat.mod_eq_of_lt (by omega)]
    omega
  · rw [show 2 ^ w - j + (i + l) = (i + l - j) + 2 ^ w by omega, Nat.add_mod_right,
      Nat.mod_eq_of_lt (by omega)]
    omega

theorem holds_push {m : Memory w} {a b : BitVec w} {ws : List Word} (vs : List Word)
    (holds : Holds m b ws)
    (below : a + BitVec.ofNat w (8 * vs.length) = b)
    (room : 8 * vs.length + 8 * ws.length ≤ 2 ^ w) : Holds (storeWords m a vs) a (vs ++ ws) := by
  rw [holds_append, below]
  constructor
  · exact holds_stored m a (by omega)
  · rw [holds_apart]
    · exact holds
    · have apart := apart_offsets a (i := 8 * vs.length) (n := 8 * ws.length) (j := 0)
        (k := 8 * vs.length) (by omega) (by omega) (by omega)
      rwa [below, BitVec.add_zero] at apart

theorem storeWords_append (m : Memory w) (a : BitVec w) {ws vs : List Word}
    (room : 8 * ws.length + 8 * vs.length ≤ 2 ^ w) :
    storeWords (storeWords m a ws) (a + BitVec.ofNat w (8 * ws.length)) vs =
      storeWords m a (ws ++ vs) := by
  have joined := store_append m a (encode ws) (encode vs) (by simpa using room)
  rwa [encode_length, ← encode_append] at joined

theorem storeWords_snoc (m : Memory w) {a b : BitVec w} {ws : List Word} (v : Word)
    (next : b = a + BitVec.ofNat w (8 * ws.length)) (room : 8 * (ws.length + 1) ≤ 2 ^ w) :
    storeWords (storeWords m a ws) b [v] = storeWords m a (ws ++ [v]) := by
  rw [next]
  exact storeWords_append m a (by simpa [Nat.mul_add] using room)

theorem storeWords_take (m : Memory w) {a b : BitVec w} {ws : List Word} {k : Nat}
    (inside : k < ws.length) (next : b = a + BitVec.ofNat w (8 * k)) (room : 8 * ws.length ≤ 2 ^ w) :
    storeWords (storeWords m a (ws.take k)) b [ws[k]] = storeWords m a (ws.take (k + 1)) := by
  have start : (ws.take k).length = k := List.length_take_of_le (Nat.le_of_lt inside)
  rw [storeWords_snoc m (ws[k]) (by rw [start, next]) (by rw [start]; omega),
    List.take_append_getElem inside]

attribute [irreducible] word storeWords Holds

end Words
