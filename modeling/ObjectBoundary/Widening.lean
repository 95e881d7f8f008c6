/-!
# Widening of single precision numbers

Floating-point numbers are carried as their bit patterns. The only operation on them is the exact
widening from single to double precision: a finite number keeps its value, an infinity its sign, and
a NaN its sign and payload, with the quiet bit set.
-/

namespace ObjectBoundary

/-- The sign, exponent and fraction fields of a single precision pattern. -/
structure SingleFields where
  sign : Nat
  exponent : Nat
  fraction : Nat

namespace SingleFields

def ofBits (bits : UInt32) : SingleFields where
  sign := bits.toNat >>> 31
  exponent := bits.toNat >>> 23 % 0x100
  fraction := bits.toNat % 0x800000

end SingleFields

/-- The pattern of a double from its fields. -/
def doubleBits (sign exponent fraction : Nat) : UInt64 :=
  (sign <<< 63 + exponent <<< 52 + fraction).toUInt64

/-- The double precision pattern with the value of a single precision pattern. A subnormal number
with fraction `f` has the value `f · 2⁻¹⁴⁹` and becomes normal: its leading bit is dropped and the
bits behind it move to the top of the wider fraction. -/
def widen (bits : UInt32) : UInt64 :=
  let fields := SingleFields.ofBits bits
  if fields.exponent = 255 then
    if fields.fraction = 0 then doubleBits fields.sign 2047 0
    else
      let payload := fields.fraction % 0x400000
      doubleBits fields.sign 2047 (1 <<< 51 + payload <<< 29)
  else if fields.exponent = 0 then
    if fields.fraction = 0 then doubleBits fields.sign 0 0
    else
      let top := fields.fraction.log2
      doubleBits fields.sign (top + 874) ((fields.fraction - 1 <<< top) <<< (52 - top))
  else doubleBits fields.sign (fields.exponent + 896) (fields.fraction <<< 29)

end ObjectBoundary
