import MileRpc.Json.Basic

/-!
# Integers as floats

`Single.Is a n` : the float `a` is the integer `n`.  An integer that is converted to `float` is kept
exactly if it has at most 24 significant bits (`Single.round_is_iff`); two such integers are never
converted to the same float (`Single.round_injective`).
-/

namespace MileRpc

namespace Binary

/-- The number is the integer `n`. -/
def Is (x : Binary) (n : ℤ) : Prop := x.mant * 2 ^ x.exp.toNat = n * 2 ^ (-x.exp).toNat

instance (x : Binary) (n : ℤ) : Decidable (x.Is n) := inferInstanceAs (Decidable (_ = _))

/-- The rounding is off by at most half a unit, and a tie is even. -/
theorem halfEven_nearest (n k : ℕ) :
    2 * n ≤ (2 * halfEven n k + 1) * 2 ^ k ∧ 2 * halfEven n k * 2 ^ k ≤ 2 * n + 2 ^ k ∧
      ((2 * n = (2 * halfEven n k + 1) * 2 ^ k ∨ 2 * halfEven n k * 2 ^ k = 2 * n + 2 ^ k) →
        halfEven n k % 2 = 0) := by
  have hdiv := Nat.div_add_mod n (2 ^ k)
  have hlt := Nat.mod_lt n (Nat.two_pow_pos k)
  unfold halfEven
  generalize n / 2 ^ k = q at *
  generalize n % 2 ^ k = r at *
  generalize 2 ^ k = d at *
  subst hdiv
  have hq : 2 * q * d = 2 * (d * q) := by rw [Nat.mul_comm d q, Nat.mul_assoc]
  have hq' : (2 * q + 1) * d = 2 * (d * q) + d := by rw [Nat.add_mul, hq, Nat.one_mul]
  have hs : 2 * (q + 1) * d = 2 * (d * q) + 2 * d := by rw [Nat.mul_add, Nat.add_mul, hq]
  have hs' : (2 * (q + 1) + 1) * d = 2 * (d * q) + 3 * d := by
    rw [Nat.add_mul, hs, Nat.one_mul]; omega
  simp only
  split_ifs with h1 h2 h3
  · rw [hq, hq']; omega
  · rw [hs, hs']; omega
  · rw [hq, hq']; omega
  · rw [hs, hs']; omega

theorem halfEven_mul_eq_iff {n k : ℕ} : halfEven n k * 2 ^ k = n ↔ 2 ^ k ∣ n := by
  constructor
  · intro h
    exact ⟨halfEven n k, by rw [Nat.mul_comm]; exact h.symm⟩
  · intro h
    have hmod : n % 2 ^ k = 0 := Nat.mod_eq_zero_of_dvd h
    have hq : halfEven n k = n / 2 ^ k := by
      simp only [halfEven, hmod]
      rw [if_pos (Nat.two_pow_pos k)]
    rw [hq, Nat.div_mul_cancel h]

end Binary

namespace Single

/-- The value is the integer `n`. -/
def Is : Single → ℤ → Prop
  | finite x, n => x.Is n
  | infinity _, _ | nan, _ => False

instance : (a : Single) → (n : ℤ) → Decidable (a.Is n)
  | finite x, n => inferInstanceAs (Decidable (x.Is n))
  | infinity _, _ | nan, _ => inferInstanceAs (Decidable False)

/-- `n` has at most 24 significant bits, and is below the range of `float`. -/
def Holds (n : ℕ) : Prop := n < 2 ^ 128 ∧ ∃ m j, m < 2 ^ 24 ∧ n = m * 2 ^ j

theorem Is.unique {a : Single} {m n : ℤ} (hm : a.Is m) (hn : a.Is n) : m = n := by
  cases a with
  | infinity b => exact hm.elim
  | nan => exact hm.elim
  | finite x =>
    have h : m * 2 ^ (-x.exp).toNat = n * 2 ^ (-x.exp).toNat := hm.symm.trans hn
    exact Int.eq_of_mul_eq_mul_right (Int.ne_of_gt (Int.pow_pos (by decide))) h

theorem excessBits_ofInt (n : ℕ) : Binary.excessBits n 0 = Nat.log2 n + 1 - 24 := by
  simp [Binary.excessBits]

theorem dvd_iff_significant {n : ℕ} :
    2 ^ (Nat.log2 n + 1 - 24) ∣ n ↔ ∃ m j, m < 2 ^ 24 ∧ n = m * 2 ^ j := by
  constructor
  · rintro ⟨m, hm⟩
    refine ⟨m, Nat.log2 n + 1 - 24, ?_, by rw [Nat.mul_comm]; exact hm⟩
    have hlt : n < 2 ^ (Nat.log2 n + 1) := Nat.lt_log2_self
    have hle : Nat.log2 n + 1 ≤ 24 + (Nat.log2 n + 1 - 24) := by omega
    have hbound : 2 ^ (Nat.log2 n + 1 - 24) * m < 2 ^ (Nat.log2 n + 1 - 24) * 2 ^ 24 := by
      rw [← hm, ← Nat.pow_add, Nat.add_comm]
      exact hlt.trans_le (Nat.pow_le_pow_right (by decide) hle)
    exact Nat.lt_of_mul_lt_mul_left hbound
  · rintro ⟨m, j, hm, rfl⟩
    rcases Nat.eq_zero_or_pos m with rfl | hpos
    · simp
    · have hne : m * 2 ^ j ≠ 0 := (Nat.mul_pos hpos (Nat.two_pow_pos j)).ne'
      have hlog : Nat.log2 (m * 2 ^ j) < 24 + j := by
        rw [Nat.log2_lt hne, Nat.pow_add]
        exact Nat.mul_lt_mul_of_pos_right hm (Nat.two_pow_pos j)
      exact Nat.dvd_trans (Nat.pow_dvd_pow 2 (by omega)) (Nat.dvd_mul_left _ _)

/-- **When an integer survives the conversion to `float`.** -/
theorem round_is_iff (n : ℕ) : (round (.ofInt n)).Is n ↔ Holds n := by
  have hk : Binary.excessBits n (Binary.ofInt n).exp = Nat.log2 n + 1 - 24 := excessBits_ofInt n
  have hnat : (Binary.ofInt n).mant.natAbs = n := rfl
  unfold round Holds
  rw [← dvd_iff_significant, ← Binary.halfEven_mul_eq_iff]
  simp only [hnat, hk]
  generalize Nat.log2 n + 1 - 24 = k
  generalize Binary.halfEven n k = q
  have htrunc : (Binary.mk q ((Binary.ofInt n).exp + k)).trunc = ((q * 2 ^ k : ℕ) : ℤ) := by
    simp [Binary.trunc, Binary.ofInt]
  rw [htrunc]
  split_ifs with hbig hneg
  · simp only [Is, false_iff, not_and]
    intro hlt heq
    omega
  · have hpos : (0 : ℤ) ≤ (Binary.ofInt n).mant := Int.natCast_nonneg n
    omega
  · simp only [Is, Binary.Is, Binary.ofInt]
    have hz : (0 + (k : ℤ)).toNat = k := by omega
    have hz' : (-(0 + (k : ℤ))).toNat = 0 := by omega
    rw [hz, hz', pow_zero, mul_one]
    norm_cast
    constructor
    · intro h
      exact ⟨by omega, h⟩
    · exact fun h => h.2

theorem round_injective {m n : ℕ} (hm : Holds m) (hn : Holds n)
    (h : round (.ofInt m) = round (.ofInt n)) : m = n := by
  have hm' := (round_is_iff m).2 hm
  have hn' := (round_is_iff n).2 hn
  rw [h] at hm'
  exact Int.ofNat_inj.1 (hm'.unique hn')

end Single

end MileRpc
