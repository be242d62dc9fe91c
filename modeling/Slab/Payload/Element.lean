import Slab.Number.Shortest
import Slab.Payload.Order
import Slab.Pool.Layout
import Slab.Text.Record

/-!
# Elements of a pool

The types whose values a pool can hold, and how a value lies in the bytes of a slot.

* `Element`, `Element.shape`: the types, with their sizes and alignments;
* `Value`: the values of all types;
* `Element.encode`, `Element.decode`: a value as the bytes of an element and back;
* `Element.Holds`: the values of an element, which `decode_encode` finds in their bytes;
* `Value.describe`: a value as text.

Numbers lie in memory with the lowest byte first.
-/

namespace Slab

/-- The widths of unsigned numbers. -/
inductive Width
  | byte
  | half
  | single
  | double
  deriving DecidableEq, Repr

/-- The bytes of a number. -/
def Width.bytes : Width → Nat
  | byte => 1
  | half => 2
  | single => 4
  | double => 8

/-- The types of elements. -/
inductive Element
  /-- The type with one value and no bytes. -/
  | unit
  | unsigned (w : Width)
  /-- Four numbers of eight bytes. -/
  | quad
  /-- Bytes without structure, with an alignment. -/
  | block (size align : Nat)
  | order
  deriving DecidableEq, Repr

/-- A value of an element. -/
inductive Value
  | unit
  | number (n : Nat)
  | numbers (a b c d : UInt64)
  | bytes (l : List UInt8)
  | order (o : Order)
  deriving DecidableEq, Repr

namespace Element

/-- Size and alignment. -/
def shape : Element → Shape
  | unit => ⟨0, 1⟩
  | unsigned w => ⟨w.bytes, w.bytes⟩
  | quad => ⟨32, 8⟩
  | block size align => ⟨size, align⟩
  | order => ⟨Order.size, 64⟩

/-- The `k` lowest bytes of a number, the lowest first. -/
def littleEndian : Nat → Nat → List UInt8
  | 0, _ => []
  | k + 1, n => UInt8.ofNat n :: littleEndian k (n / 256)

/-- The number that bytes write, the lowest first. -/
def fromLittleEndian : List UInt8 → Nat
  | [] => 0
  | b :: bs => b.toNat + 256 * fromLittleEndian bs

/-- The list cut or filled up with zeros to `n` bytes. -/
def fit : Nat → List UInt8 → List UInt8
  | 0, _ => []
  | n + 1, [] => 0 :: fit n []
  | n + 1, b :: bs => b :: fit n bs

/-- A record as bytes, without those that fill it up. -/
def orderBytes (o : Order) : List UInt8 :=
  littleEndian 8 o.tsNs.toNat ++ littleEndian 8 o.orderId.toNat ++ littleEndian 4 o.instrId.toNat ++
    littleEndian 4 o.qty.toNat ++ littleEndian 8 o.price.bits.toNat ++ [o.side.byte]

/-- The record that bytes hold. -/
def orderOfBytes (l : List UInt8) : Order :=
  let word (start count : Nat) : Nat := fromLittleEndian ((l.drop start).take count)
  { tsNs := UInt64.ofNat (word 0 8)
    orderId := UInt64.ofNat (word 8 8)
    instrId := UInt32.ofNat (word 16 4)
    qty := UInt32.ofNat (word 20 4)
    price := ⟨UInt64.ofNat (word 24 8)⟩
    side := (Side.ofByte? (UInt8.ofNat (word 32 1))).getD .buy }

/-- The bytes of a value before they are fitted to the size of an element. -/
def valueBytes (e : Element) : Value → List UInt8
  | .unit => []
  | .number n => littleEndian e.shape.size n
  | .numbers a b c d =>
    littleEndian 8 a.toNat ++ littleEndian 8 b.toNat ++ littleEndian 8 c.toNat ++
      littleEndian 8 d.toNat
  | .bytes l => l
  | .order o => orderBytes o

/-- The bytes of an element that hold a value. -/
def encode (e : Element) (v : Value) : List UInt8 := fit e.shape.size (valueBytes e v)

/-- The value that the bytes of an element hold. -/
def decode (e : Element) (l : List UInt8) : Value :=
  match e with
  | unit => .unit
  | unsigned _ => .number (fromLittleEndian l)
  | quad =>
    let word (start : Nat) : UInt64 := UInt64.ofNat (fromLittleEndian ((l.drop start).take 8))
    .numbers (word 0) (word 8) (word 16) (word 24)
  | block _ _ => .bytes l
  | order => .order (orderOfBytes l)

/-! ### Numbers in bytes -/

theorem length_littleEndian (k n : Nat) : (littleEndian k n).length = k := by
  induction k generalizing n with
  | zero => rfl
  | succ k ih => rw [littleEndian, List.length_cons, ih]

theorem take_littleEndian {k m : Nat} (h : k ≤ m) (n : Nat) :
    (littleEndian k n).take m = littleEndian k n :=
  List.take_of_length_le (Nat.le_trans (Nat.le_of_eq (length_littleEndian k n)) h)

theorem drop_littleEndian {k m : Nat} (h : k ≤ m) (n : Nat) : (littleEndian k n).drop m = [] :=
  List.drop_of_length_le (Nat.le_trans (Nat.le_of_eq (length_littleEndian k n)) h)

/-- A number that fits is found in its bytes. -/
theorem fromLittleEndian_littleEndian {k n : Nat} (h : n < Nat.pow 256 k) :
    fromLittleEndian (littleEndian k n) = n := by
  induction k generalizing n with
  | zero => exact (Nat.lt_one_iff.1 h).symm
  | succ k ih =>
    have hrest : n / 256 < Nat.pow 256 k :=
      Nat.div_lt_of_lt_mul (by rw [Nat.mul_comm]; exact h)
    rw [littleEndian, fromLittleEndian, ih hrest, UInt8.toNat_ofNat']
    exact Nat.mod_add_div n 256

theorem fromLittleEndian_word64 (w : UInt64) :
    fromLittleEndian (littleEndian 8 w.toNat) = w.toNat :=
  fromLittleEndian_littleEndian w.toNat_lt

theorem fromLittleEndian_word32 (w : UInt32) :
    fromLittleEndian (littleEndian 4 w.toNat) = w.toNat :=
  fromLittleEndian_littleEndian w.toNat_lt

/-- A record is found in its bytes, whatever fills them up. -/
theorem orderOfBytes_append (o : Order) (l : List UInt8) :
    orderOfBytes (orderBytes o ++ l) = o := by
  simp (disch := decide) only [orderOfBytes, orderBytes, List.append_assoc, List.drop_append,
    List.take_append, length_littleEndian, drop_littleEndian, take_littleEndian, List.nil_append,
    List.drop_zero, List.take_zero, List.append_nil, Nat.reduceSub, fromLittleEndian_word64,
    fromLittleEndian_word32, List.take_cons, UInt64.ofNat_toNat, UInt32.ofNat_toNat,
    List.singleton_append]
  simp [fromLittleEndian, Side.ofByte?_byte]

/-! ### Values in bytes -/

theorem length_fit (n : Nat) (l : List UInt8) : (fit n l).length = n := by
  induction n generalizing l with
  | zero => rfl
  | succ n ih => cases l <;> simp [fit, ih]

theorem length_encode (e : Element) (v : Value) : (e.encode v).length = e.shape.size :=
  length_fit _ _

/-- A list that is not too long is filled up. -/
theorem fit_eq_append {n : Nat} {l : List UInt8} (h : l.length ≤ n) :
    fit n l = l ++ fit (n - l.length) [] := by
  induction n generalizing l with
  | zero =>
    rw [List.eq_nil_of_length_eq_zero (Nat.le_zero.1 h)]
    rfl
  | succ n ih =>
    cases l with
    | nil => rfl
    | cons b l =>
      rw [fit, ih (Nat.le_of_succ_le_succ h), List.length_cons, Nat.succ_sub_succ]
      rfl

theorem fit_of_length {n : Nat} {l : List UInt8} (h : l.length = n) : fit n l = l := by
  subst h
  rw [fit_eq_append (Nat.le_refl _), Nat.sub_self, fit, List.append_nil]

/-- The values of an element. -/
def Holds : Element → Value → Prop
  | unit, .unit => True
  | unsigned w, .number n => n < Nat.pow 256 w.bytes
  | quad, .numbers _ _ _ _ => True
  | block size _, .bytes l => l.length = size
  | order, .order _ => True
  | _, _ => False

/-- **A value of an element is found in its bytes.** -/
theorem decode_encode {e : Element} {v : Value} (h : e.Holds v) : e.decode (e.encode v) = v := by
  cases e with
  | unit =>
    cases v with
    | unit => rfl
    | number _ | numbers _ _ _ _ | bytes _ | order _ => cases h
  | unsigned w =>
    cases v with
    | number n =>
      rw [encode, valueBytes, fit_of_length (length_littleEndian _ _), decode]
      exact congrArg _ (fromLittleEndian_littleEndian h)
    | unit | numbers _ _ _ _ | bytes _ | order _ => cases h
  | quad =>
    cases v with
    | numbers a b c d =>
      rw [encode, valueBytes, fit_of_length (by simp [length_littleEndian, shape]), decode]
      simp (disch := decide) only [List.append_assoc, List.drop_append, List.take_append,
        length_littleEndian, drop_littleEndian, take_littleEndian, List.nil_append, List.drop_zero,
        List.take_zero, List.append_nil, Nat.reduceSub, fromLittleEndian_word64, UInt64.ofNat_toNat]
    | unit | number _ | bytes _ | order _ => cases h
  | block size align =>
    cases v with
    | bytes l =>
      rw [encode, valueBytes, decode]
      exact congrArg _ (fit_of_length h)
    | unit | number _ | numbers _ _ _ _ | order _ => cases h
  | order =>
    cases v with
    | order o =>
      have hlength : (orderBytes o).length ≤ Order.size := by
        simp [orderBytes, length_littleEndian, Order.size]
      rw [encode, valueBytes, decode, shape, fit_eq_append hlength, orderOfBytes_append]
    | unit | number _ | numbers _ _ _ _ | bytes _ => cases h

end Element

/-- The digits of a byte in base sixteen. -/
def hexByte (b : UInt8) : List Char :=
  [Nat.digitChar (b.toNat / 16), Nat.digitChar (b.toNat % 16)]

/-- The word for a side. -/
def Side.describe : Side → String
  | buy => "Buy"
  | sell => "Sell"

/-- The record as text. -/
def Order.describe (o : Order) : String :=
  Text.record "OrderMsg"
    [("ts_ns", Numeral.decimal o.tsNs.toNat), ("order_id", Numeral.decimal o.orderId.toNat),
      ("instr_id", Numeral.decimal o.instrId.toNat), ("qty", Numeral.decimal o.qty.toNat),
      ("price", o.price.fullText), ("side", o.side.describe)]

/-- The value as text. -/
def Value.describe : Value → String
  | unit => "()"
  | number n => Numeral.decimal n
  | numbers a b c d =>
    "[" ++ ", ".intercalate ([a, b, c, d].map fun n => Numeral.decimal n.toNat) ++ "]"
  | bytes l => String.ofList (l.flatMap hexByte)
  | order o => o.describe

end Slab
