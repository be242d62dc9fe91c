/-!
# Memory

A byte for every natural number as its address, zero until it is stored. Only a finite piece differs
from zero, and only that piece is kept.

* `Memory.load`, `Memory.store`: one byte;
* `Memory.read`, `Memory.write`: the bytes from an address on;
* `Memory.load32`, `Memory.store32`: words of four bytes, the lowest byte first.

`load_store` is the law of memory; `load_write` and `read_write_self` carry it over to runs of
bytes, `load32_store32` and `load32_congr` to words.
-/

namespace Slab

/-- The bytes up to the last one that was ever stored. -/
structure Memory where
  bytes : ByteArray
  deriving Inhabited

namespace Memory

/-- Memory that nobody has written to. -/
def zero : Memory := ⟨ByteArray.empty⟩

/-- The byte at an address. -/
def load (m : Memory) (a : Nat) : UInt8 := if h : a < m.bytes.size then m.bytes[a] else 0

/-- The array with `n` zeros appended. -/
def pad : Nat → ByteArray → ByteArray
  | 0, b => b
  | n + 1, b => pad n (b.push 0)

/-- Stores a byte at an address. -/
def store (m : Memory) (a : Nat) (v : UInt8) : Memory :=
  if h : a < m.bytes.size then
    match m, h with
    | ⟨b⟩, h => ⟨b.set a v h⟩
  else
    match m with
    | ⟨b⟩ => ⟨(pad (a - b.size) b).push v⟩

/-- The `n` bytes from address `a` on. -/
def read (m : Memory) (a : Nat) : Nat → List UInt8
  | 0 => []
  | n + 1 => m.load a :: read m (a + 1) n

/-- Stores bytes from address `a` on. -/
def write (m : Memory) (a : Nat) : List UInt8 → Memory
  | [] => m
  | v :: vs => write (m.store a v) (a + 1) vs

/-- The word at an address. -/
def load32 (m : Memory) (a : Nat) : UInt32 :=
  (m.load a).toUInt32 ||| ((m.load (a + 1)).toUInt32 <<< 8) |||
    ((m.load (a + 2)).toUInt32 <<< 16) ||| ((m.load (a + 3)).toUInt32 <<< 24)

/-- The four bytes of a word, the lowest first. -/
def bytes32 (w : UInt32) : List UInt8 :=
  [w.toUInt8, (w >>> 8).toUInt8, (w >>> 16).toUInt8, (w >>> 24).toUInt8]

/-- Stores a word at an address. -/
def store32 (m : Memory) (a : Nat) (w : UInt32) : Memory := m.write a (bytes32 w)

/-- Whether the first `n` bytes are all zero. -/
def isZero (m : Memory) (n : Nat) : Bool :=
  (List.range (min n m.bytes.size)).all fun a => m.load a == 0

/-! ## Laws -/

theorem load_eq_getD (m : Memory) (a : Nat) : m.load a = m.bytes.data[a]?.getD 0 := by
  unfold load
  split
  · rename_i h
    rw [ByteArray.getElem_eq_getElem_data]
    rw [Array.getElem?_eq_getElem (by simpa using h)]
    rfl
  · rename_i h
    rw [Array.getElem?_eq_none (by simpa using h)]
    rfl

theorem size_pad (n : Nat) (b : ByteArray) : (pad n b).size = b.size + n := by
  induction n generalizing b with
  | zero => rfl
  | succ n ih => rw [pad, ih, ByteArray.size_push]; omega

theorem getD_pad (n : Nat) (b : ByteArray) (a : Nat) :
    (pad n b).data[a]?.getD 0 = b.data[a]?.getD 0 := by
  induction n generalizing b with
  | zero => rfl
  | succ n ih =>
    rw [pad, ih, ByteArray.data_push, Array.getElem?_push]
    split
    · rename_i h
      rw [h, Array.getElem?_eq_none (Nat.le_refl _)]
      rfl
    · rfl

/-- A stored byte is found where it was stored, and every other address keeps its byte. -/
theorem load_store (m : Memory) (a : Nat) (v : UInt8) (b : Nat) :
    (m.store a v).load b = if b = a then v else m.load b := by
  rw [load_eq_getD, load_eq_getD]
  unfold store
  split
  · rename_i h
    rw [ByteArray.data_set, Array.getElem?_set]
    by_cases e : a = b
    · subst e; simp
    · simp [e, Ne.symm e]
  · rename_i h
    have hs : (pad (a - m.bytes.size) m.bytes).data.size = a := by
      rw [ByteArray.size_data, size_pad]; omega
    rw [ByteArray.data_push, Array.getElem?_push, hs]
    split
    · simp
    · exact getD_pad _ _ _

theorem load_write (m : Memory) (a : Nat) (vs : List UInt8) (b : Nat) :
    (m.write a vs).load b =
      if a ≤ b ∧ b < a + vs.length then vs[b - a]?.getD 0 else m.load b := by
  induction vs generalizing m a with
  | nil =>
    simp only [write, List.length_nil, Nat.add_zero]
    rw [if_neg (by omega)]
  | cons v vs ih =>
    rw [write, ih, load_store]
    rcases Nat.lt_trichotomy b a with h | h | h
    · rw [if_neg (by omega), if_neg (by omega), if_neg (by omega)]
    · subst h
      rw [if_neg (by omega), if_pos rfl, if_pos (by simp)]
      simp
    · by_cases hb : b < a + (vs.length + 1)
      · rw [if_pos (by omega), if_pos (by simp only [List.length_cons]; omega)]
        obtain ⟨k, hk⟩ : ∃ k, b - a = k + 1 := ⟨b - a - 1, by omega⟩
        rw [hk, List.getElem?_cons_succ, show b - (a + 1) = k by omega]
      · rw [if_neg (by omega), if_neg (by omega), if_neg (by simp only [List.length_cons]; omega)]

theorem getElem?_read (m : Memory) (a n k : Nat) :
    (m.read a n)[k]? = if k < n then some (m.load (a + k)) else none := by
  induction n generalizing a k with
  | zero => simp [read]
  | succ n ih =>
    cases k with
    | zero => simp [read]
    | succ k =>
      rw [read, List.getElem?_cons_succ, ih]
      simp only [Nat.add_lt_add_iff_right, show a + 1 + k = a + (k + 1) by omega]

/-- Reading depends only on the bytes that are read. -/
theorem read_congr {m m' : Memory} {a n : Nat}
    (h : ∀ b, a ≤ b → b < a + n → m.load b = m'.load b) : m.read a n = m'.read a n := by
  apply List.ext_getElem?
  intro k
  rw [getElem?_read, getElem?_read]
  split
  · rw [h (a + k) (by omega) (by omega)]
  · rfl

theorem read_write_self (m : Memory) (a : Nat) (vs : List UInt8) :
    (m.write a vs).read a vs.length = vs := by
  apply List.ext_getElem?
  intro k
  rw [getElem?_read, load_write]
  by_cases h : k < vs.length
  · rw [if_pos h, if_pos (by omega), Nat.add_sub_cancel_left, List.getElem?_eq_getElem h]
    rfl
  · rw [if_neg h, List.getElem?_eq_none (by omega)]

theorem load_write_of_disjoint (m : Memory) (a : Nat) (vs : List UInt8) (b : Nat)
    (h : b < a ∨ a + vs.length ≤ b) : (m.write a vs).load b = m.load b := by
  rw [load_write, if_neg (by omega)]

/-! ## Words -/

/-- The four bytes of a word, put together again, are the word. -/
theorem join_bytes32 (w : UInt32) :
    w.toUInt8.toUInt32 ||| ((w >>> 8).toUInt8.toUInt32 <<< 8) |||
      ((w >>> 16).toUInt8.toUInt32 <<< 16) ||| ((w >>> 24).toUInt8.toUInt32 <<< 24) = w := by
  apply UInt32.toBitVec_inj.mp
  apply BitVec.eq_of_getLsbD_eq
  intro i hi
  have h8 : (8 : UInt32).toBitVec % 32 = 8#32 := rfl
  have h16 : (16 : UInt32).toBitVec % 32 = 16#32 := rfl
  have h24 : (24 : UInt32).toBitVec % 32 = 24#32 := rfl
  simp only [UInt32.toBitVec_or, UInt32.toBitVec_shiftLeft, UInt8.toBitVec_toUInt32,
    UInt32.toBitVec_toUInt8, UInt32.toBitVec_shiftRight, BitVec.getLsbD_or, h8, h16, h24,
    BitVec.shiftLeft_eq', BitVec.ushiftRight_eq', BitVec.getLsbD_shiftLeft,
    BitVec.getLsbD_setWidth, BitVec.getLsbD_ushiftRight]
  -- in each of the four ranges of `i` exactly one of the four terms has a bit to give
  grind

/-- A word depends only on its four bytes. -/
theorem load32_congr {m m' : Memory} {a : Nat}
    (h : ∀ b, a ≤ b → b < a + 4 → m.load b = m'.load b) : m.load32 a = m'.load32 a := by
  unfold load32
  rw [h a (by omega) (by omega), h (a + 1) (by omega) (by omega), h (a + 2) (by omega) (by omega),
    h (a + 3) (by omega) (by omega)]

theorem length_bytes32 (w : UInt32) : (bytes32 w).length = 4 := rfl

/-- A stored word is found where it was stored. -/
theorem load32_store32 (m : Memory) (a : Nat) (w : UInt32) : (m.store32 a w).load32 a = w := by
  have byte : ∀ k, k < 4 → (m.store32 a w).load (a + k) = (bytes32 w)[k]?.getD 0 := by
    intro k hk
    rw [store32, load_write, if_pos ⟨by omega, by rw [length_bytes32]; omega⟩,
      Nat.add_sub_cancel_left]
  have h0 := byte 0 (by omega)
  have h1 := byte 1 (by omega)
  have h2 := byte 2 (by omega)
  have h3 := byte 3 (by omega)
  rw [Nat.add_zero] at h0
  rw [load32, h0, h1, h2, h3]
  exact join_bytes32 w

/-- Storing a word changes no byte outside the word. -/
theorem load_store32_of_disjoint (m : Memory) (a : Nat) (w : UInt32) (b : Nat)
    (h : b < a ∨ a + 4 ≤ b) : (m.store32 a w).load b = m.load b :=
  load_write_of_disjoint m a (bytes32 w) b h

end Memory
end Slab
