import Mathlib.Algebra.Order.Ring.Rat

/-!
# Bitwise packer

`bitwise_packer.rs`: the fractions of the price and the quantity of an order, its flags, asset,
sequence number and side are packed into a word of 64 bits, from the lowest bits on; the integer
parts stand in a companion. Packed orders are compared by side, and on one side by the price
fraction. Words and fields are bit vectors; a price is an exact rational.
-/

namespace TradingBot.Protocols

def maxPriceFraction : BitVec 16 := 9999

def maxQuantityFraction : BitVec 16 := 9999

def priceFracShift : Nat := 0

def priceFracMask : BitVec 64 := 0xFFFF

def quantityFracShift : Nat := 16

def quantityFracMask : BitVec 64 := 0xFFFF

def flagsShift : Nat := 32

def flagsMask : BitVec 64 := 0xFFFF

def assetShift : Nat := 48

def assetMask : BitVec 64 := 0xFF

def sequenceShift : Nat := 56

def sequenceMask : BitVec 64 := 0x7F

def sideShift : Nat := 63

def sideMask : BitVec 64 := 0x01

/-- The arguments of `PackedOrder::new` and `FullPackedOrder::new`. -/
structure OrderFields where
  priceInt : BitVec 16
  priceFrac : BitVec 16
  quantityInt : BitVec 16
  quantityFrac : BitVec 16
  flags : BitVec 16
  assetId : BitVec 8
  sequence : BitVec 8
  isSell : Bool

/-- `PackedOrder`. -/
structure PackedOrder where
  word : BitVec 64
  deriving DecidableEq, Repr

namespace PackedOrder

/-- `PackedOrder::new`, without an answer where an assertion fails. -/
def new (fields : OrderFields) : Option PackedOrder :=
  if maxPriceFraction < fields.priceFrac then none
  else if maxQuantityFraction < fields.quantityFrac then none
  else some ⟨
    0 ||| ((fields.priceFrac.setWidth 64 &&& priceFracMask) <<< priceFracShift)
    ||| ((fields.quantityFrac.setWidth 64 &&& quantityFracMask) <<< quantityFracShift)
    ||| ((fields.flags.setWidth 64 &&& flagsMask) <<< flagsShift)
    ||| ((fields.assetId.setWidth 64 &&& assetMask) <<< assetShift)
    ||| (((fields.sequence.setWidth 64 &&& 0x7F) &&& sequenceMask) <<< sequenceShift)
    ||| (((if fields.isSell then 1 else 0) &&& sideMask) <<< sideShift)⟩

def priceFraction (order : PackedOrder) : BitVec 16 :=
  ((order.word >>> priceFracShift) &&& priceFracMask).setWidth 16

def quantityFraction (order : PackedOrder) : BitVec 16 :=
  ((order.word >>> quantityFracShift) &&& quantityFracMask).setWidth 16

def flags (order : PackedOrder) : BitVec 16 :=
  ((order.word >>> flagsShift) &&& flagsMask).setWidth 16

def assetId (order : PackedOrder) : BitVec 8 :=
  ((order.word >>> assetShift) &&& assetMask).setWidth 8

def sequence (order : PackedOrder) : BitVec 8 :=
  ((order.word >>> sequenceShift) &&& sequenceMask).setWidth 8

def isSell (order : PackedOrder) : Bool := ((order.word >>> sideShift) &&& sideMask) ≠ 0

def isBuy (order : PackedOrder) : Bool := !order.isSell

/-- A word with other flags. -/
def setFlags (order : PackedOrder) (newFlags : BitVec 16) : PackedOrder :=
  ⟨(order.word &&& ~~~(flagsMask <<< flagsShift)) ||| (newFlags.setWidth 64 <<< flagsShift)⟩

def withFlag (order : PackedOrder) (flag : BitVec 16) : PackedOrder :=
  order.setFlags (order.flags ||| flag)

def withoutFlag (order : PackedOrder) (flag : BitVec 16) : PackedOrder :=
  order.setFlags (order.flags &&& ~~~flag)

def toggleSide (order : PackedOrder) : PackedOrder := ⟨order.word ^^^ (sideMask <<< sideShift)⟩

def comparePriceFrac (order other : PackedOrder) : Ordering :=
  compare order.priceFraction.toNat other.priceFraction.toNat

def cmp (order other : PackedOrder) : Ordering :=
  match order.isBuy, other.isBuy with
  | true, false => .lt
  | false, true => .gt
  | true, true => other.comparePriceFrac order
  | false, false => order.comparePriceFrac other

end PackedOrder

/-- `PackedOrderIntegers`, without its reserved bytes. -/
structure PackedOrderIntegers where
  priceInt : BitVec 16
  quantityInt : BitVec 16

/-- `FullPackedOrder`. -/
structure FullPackedOrder where
  packed : PackedOrder
  integers : PackedOrderIntegers

namespace FullPackedOrder

def new (fields : OrderFields) : Option FullPackedOrder :=
  (PackedOrder.new fields).map fun packed => ⟨packed, ⟨fields.priceInt, fields.quantityInt⟩⟩

/-- The price in ten thousandths. -/
def priceTotal (order : FullPackedOrder) : Nat :=
  order.integers.priceInt.toNat * 10000 + order.packed.priceFraction.toNat

def getPrice (order : FullPackedOrder) : ℚ := order.priceTotal / 10000

def getQuantity (order : FullPackedOrder) : ℚ :=
  (order.integers.quantityInt.toNat * 10000 + order.packed.quantityFraction.toNat : Nat) / 10000

end FullPackedOrder

end TradingBot.Protocols
