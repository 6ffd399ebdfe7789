import Mathlib.Algebra.Ring.Int.Defs
import Mathlib.Algebra.Ring.Nat
import Mathlib.Data.Nat.Log

/-!
# Binary numbers and rounding to `float`

`Binary` is the exact value of a finite binary floating-point number, `mant * 2 ^ exp`; it holds
every `double` a JSON document can contain and every integer.  `Single.round` is the conversion to
`float`: round to nearest, ties to even, with 24 significant bits, gradual underflow below
`2 ^ (-126)` and overflow to infinity from `2 ^ 128` on.
-/

namespace MileRpc

/-- The number `mant * 2 ^ exp`. -/
structure Binary where
  /-- The significand, with its sign. -/
  mant : ℤ
  /-- The binary exponent. -/
  exp : ℤ
  deriving DecidableEq, Repr

namespace Binary

/-- An integer as a binary number. -/
def ofInt (n : ℤ) : Binary := ⟨n, 0⟩

/-- The value without its fraction, as a cast to an integer type takes it. -/
def trunc (x : Binary) : ℤ :=
  if 0 ≤ x.exp then x.mant * 2 ^ x.exp.toNat else x.mant.tdiv (2 ^ (-x.exp).toNat)

/-- Divide by `2 ^ k`, rounding to nearest and a tie to the even neighbour. -/
def halfEven (n k : ℕ) : ℕ :=
  let q := n / 2 ^ k
  let r := n % 2 ^ k
  if 2 * r < 2 ^ k then q
  else if 2 ^ k < 2 * r then q + 1
  else if q % 2 = 0 then q else q + 1

/-- How many low bits of the significand `n` a `float` with exponent `e` cannot hold. -/
def excessBits (n : ℕ) (e : ℤ) : ℕ := max (Nat.log2 n + 1 - 24) (-149 - e).toNat

end Binary

/-- A value of the type `float`.  No conversion from JSON produces a NaN, but a command line may
give one. -/
inductive Single where
  /-- A finite value. -/
  | finite (x : Binary)
  /-- An infinity. -/
  | infinity (negative : Bool)
  | nan
  deriving DecidableEq, Repr

namespace Single

/-- The conversion to `float`. -/
def round (x : Binary) : Single :=
  let k := Binary.excessBits x.mant.natAbs x.exp
  let q := Binary.halfEven x.mant.natAbs k
  if 2 ^ 128 ≤ (Binary.mk q (x.exp + k)).trunc then .infinity (decide (x.mant < 0))
  else .finite ⟨if x.mant < 0 then -q else q, x.exp + k⟩

/-- `0.0f` -/
def zero : Single := .finite ⟨0, 0⟩

-- a tie goes to the even neighbour: `2 ^ 24 + 1` is halfway between two floats
example : round (.ofInt 16777217) = .finite ⟨8388608, 1⟩ := by decide

end Single

end MileRpc
