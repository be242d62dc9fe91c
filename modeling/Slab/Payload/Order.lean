import Slab.Number.Binary64

/-!
# Order records

The record that the workers pass through the pool: one order of a market, as large as a cache line.
-/

namespace Slab

/-- The side of an order. -/
inductive Side
  | buy
  | sell
  deriving DecidableEq, Repr, Inhabited

/-- The letter that stands for a side. -/
def Side.letter : Side → Char
  | buy => 'B'
  | sell => 'S'

/-- The byte that stands for a side. -/
def Side.byte (s : Side) : UInt8 := UInt8.ofNat s.letter.toNat

/-- The side that a byte stands for. -/
def Side.ofByte? (b : UInt8) : Option Side :=
  if b = Side.buy.byte then some .buy else if b = Side.sell.byte then some .sell else none

theorem Side.ofByte?_byte (s : Side) : Side.ofByte? s.byte = some s := by cases s <;> decide

/-- One order. -/
structure Order where
  /-- Time in nanoseconds. -/
  tsNs : UInt64
  orderId : UInt64
  /-- The instrument. -/
  instrId : UInt32
  /-- Number of units. -/
  qty : UInt32
  /-- Price of one unit. -/
  price : Binary64
  side : Side
  deriving DecidableEq, Repr, Inhabited

namespace Order

/-- Bytes of a record in memory. -/
def size : Nat := 64

/-- Price times number of units, negative for a sale. -/
def notional (o : Order) : Binary64 :=
  let value := o.price.scale o.qty.toNat
  match o.side with
  | .buy => value
  | .sell => value.neg

end Order
end Slab
