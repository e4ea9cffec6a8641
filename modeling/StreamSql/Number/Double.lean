/-
  Numbers of double precision.

  A `Double` is a binary64 number by its bits.  The four operations are those of `Float`,
  which has a single value that is not a number; in a `Double` that value has a sign.

  * `-x` and `x.abs` change the sign and nothing else, whatever the number is;
  * an operand that is not a number is the result of an operation, the first one of two;
    an operation without a value, such as `∞ - ∞`, gives the negative value that is not a
    number (`ofFloat`);
  * `Double.compare? x y`: the order of two numbers, in which the zeros are equal and what
    is not a number has no place; `<`, `≤` and `==` are read off it;
  * `Double.totalKey x`: the place in the total order, in which the zeros differ and what is
    not a number stands beyond the infinity of its sign.
-/
import StreamSql.Number.Word

namespace StreamSql

/-- A number of double precision. -/
structure Double where
  bits : UInt64
  deriving DecidableEq

namespace Double

/-! ## Bits -/

/-- The weight of the sign in the bits, two to the power 63. -/
abbrev signUnit : Nat := 9223372036854775808

/-- The weight of the exponent in the bits, two to the power 52. -/
abbrev exponentUnit : Nat := 4503599627370496

/-- The bits of an infinity below the sign; finite numbers lie below, and what is not a
    number above. -/
abbrev infinity : Nat := 9218868437227405312

/-- The bits below the sign. -/
def magnitude (x : Double) : Nat := x.bits.toNat % signUnit

/-- The sign is set. -/
def isNegative (x : Double) : Bool := signUnit ≤ x.bits.toNat

/-- The number with this sign and these bits below it. -/
def ofMagnitude (negative : Bool) (magnitude : Nat) : Double :=
  ⟨UInt64.ofNat (magnitude + if negative then signUnit else 0)⟩

/-- The infinity with this sign. -/
def infinite (negative : Bool) : Double := ofMagnitude negative infinity

/-- The value with this sign that is not a number. -/
def notANumber (negative : Bool) : Double := ofMagnitude negative (infinity + exponentUnit / 2)

/-- The value is not a number. -/
def isNaN (x : Double) : Bool := infinity < x.magnitude

/-- The value is an infinity. -/
def isInf (x : Double) : Bool := x.magnitude = infinity

/-- The value is finite. -/
def isFinite (x : Double) : Bool := x.magnitude < infinity

theorem magnitude_lt (x : Double) : x.magnitude < signUnit :=
  Nat.mod_lt _ (by decide)

theorem magnitude_ofMagnitude {negative : Bool} {m : Nat} (h : m < signUnit) :
    (ofMagnitude negative m).magnitude = m := by
  unfold magnitude ofMagnitude
  cases negative <;> simp [signUnit] at h ⊢ <;> omega

theorem isNegative_ofMagnitude {negative : Bool} {m : Nat} (h : m < signUnit) :
    (ofMagnitude negative m).isNegative = negative := by
  unfold isNegative ofMagnitude
  cases negative <;> simp [signUnit] at h ⊢ <;> omega

/-! ## Sign -/

instance : Neg Double := ⟨fun x => ofMagnitude (!x.isNegative) x.magnitude⟩

/-- The absolute value. -/
def abs (x : Double) : Double := ofMagnitude false x.magnitude

theorem magnitude_neg (x : Double) : (-x).magnitude = x.magnitude :=
  magnitude_ofMagnitude x.magnitude_lt

theorem isNegative_neg (x : Double) : (-x).isNegative = !x.isNegative :=
  isNegative_ofMagnitude x.magnitude_lt

/-! ## Order -/

/-- The integer that orders numbers; both zeros are at `0`. -/
def place (x : Double) : Int :=
  if x.isNegative then -(x.magnitude : Int) else x.magnitude

/-- The order of two numbers, if they have one. -/
def compare? (x y : Double) : Option Ordering :=
  if x.isNaN || y.isNaN then none else some (Ord.compare x.place y.place)

instance : BEq Double := ⟨fun x y => compare? x y == some .eq⟩

instance : LT Double := ⟨fun x y => compare? x y = some .lt⟩

instance : LE Double := ⟨fun x y => compare? x y = some .lt ∨ compare? x y = some .eq⟩

instance decidableLt (x y : Double) : Decidable (x < y) :=
  inferInstanceAs (Decidable (compare? x y = some .lt))

instance decidableLe (x y : Double) : Decidable (x ≤ y) :=
  inferInstanceAs (Decidable (compare? x y = some .lt ∨ compare? x y = some .eq))

/-- The place in the total order. -/
def totalKey (x : Double) : Int :=
  if x.isNegative then -(x.magnitude : Int) - 1 else x.magnitude

/-! ## Arithmetic -/

/-- The number as a `Float`; the sign of what is not a number is lost. -/
def toFloat (x : Double) : Float := Float.ofBits x.bits

/-- The result of an operation on numbers. -/
def ofFloat (x : Float) : Double :=
  if x.isNaN then notANumber true else ⟨x.toBits⟩

/-- An operation on one number. -/
def apply (f : Float → Float) (x : Double) : Double :=
  if x.isNaN then x else ofFloat (f x.toFloat)

/-- An operation on two numbers. -/
def apply₂ (f : Float → Float → Float) (x y : Double) : Double :=
  if x.isNaN then x else if y.isNaN then y else ofFloat (f x.toFloat y.toFloat)

instance : Add Double := ⟨apply₂ (· + ·)⟩

instance : Sub Double := ⟨apply₂ (· - ·)⟩

instance : Mul Double := ⟨apply₂ (· * ·)⟩

instance : Div Double := ⟨apply₂ (· / ·)⟩

instance : OfScientific Double :=
  ⟨fun digits small exponent => ofFloat (Float.ofScientific digits small exponent)⟩

/-- The closest number. -/
def ofNat (n : Nat) : Double := ofFloat (Float.ofNat n)

/-- The closest number. -/
def ofInt (n : Int) : Double := ofFloat (Float.ofInt n)

/-- The closest number. -/
def ofWord (w : Int64) : Double := ofInt w.toInt

instance : NatCast Double := ⟨ofNat⟩

/-- The square root. -/
def sqrt (x : Double) : Double := x.apply Float.sqrt

end Double

end StreamSql
