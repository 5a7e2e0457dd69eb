/-
# The reader's powers of ten

The reader rounds the digits of a number, the power of ten and their product one after
another. The result is finite for the shortest decimal of every finite double
(`exists_scaled_shortest`). Only close to the greatest double could the three roundings
lead out of the range: so there the products are computed, one for each power of ten, and
all others are smaller. A negative power of ten divides, which is always possible
(`exists_scaled_of_neg`).

Key definitions: `Json.finiteTop`.

Key theorems: `Json.exists_scaled_of_neg`, `Json.exists_scaled_shortest`,
`Json.exponent_shortest_le`.
-/
import Stepwise.Json.NumberScan
import Stepwise.Proofs.Decimal.Shortest

namespace Stepwise
namespace Json

open Double (nearlyTop)
open Decimal (tenTo twoTo)

/-! ### Where the range ends -/

/-- A number between the greatest double and the middle to infinity. -/
def finiteTop : Nat := (twoTo 55 - 3) * twoTo 969

/-- The greatest double lies between two powers of ten, and what is hardly greater still
rounds to it. -/
theorem range_ends : tenTo 308 ≤ nearlyTop ∧ nearlyTop < tenTo 309 ∧
    Double.nearestBits finiteTop 1 < Double.infinityBits := by
  decide +kernel

theorem le_nearlyTop {k : Nat} (h : k ≤ 308) : tenTo k ≤ nearlyTop :=
  (Decimal.tenTo_le h).trans range_ends.1

theorem nearlyTop_lt {k : Nat} (h : 309 ≤ k) : nearlyTop < tenTo k :=
  range_ends.2.1.trans_le (Decimal.tenTo_le h)

theorem isFinite_ofNat {n : Nat} (h : n ≤ finiteTop) : (Double.ofNat n).isFinite = true := by
  rw [Double.isFinite_iff, Double.ofNat, Double.unsigned_ofRatio]
  exact Nat.lt_of_le_of_lt (Double.nearestBits_mono (by decide) (by decide)
    (Nat.mul_le_mul_right 1 h)) range_ends.2.2

theorem isFinite_mul {a b : Double} (h : a.size * b.size ≤ finiteTop * twoTo 2148) :
    (a.mul b).isFinite = true := by
  rw [Double.isFinite_iff, Double.unsigned_mul]
  refine Nat.lt_of_le_of_lt (Double.nearestBits_mono ?_ (by decide) ?_) range_ends.2.2
  · exact Nat.ne_of_gt (Decimal.twoTo_pos _)
  · rwa [Nat.mul_one]

theorem two_pow_le_finiteTop : 2 ^ 64 ≤ finiteTop :=
  calc 2 ^ 64 ≤ twoTo 969 := Decimal.twoTo_le (by decide)
    _ ≤ finiteTop := Nat.le_mul_of_pos_left _ (by decide)

/-- The greatest double has a decimal above the middle to the next one, which the reader
takes back to it. -/
theorem shortest_greatest :
    Double.shortest ⟨9218868437227405311⟩ = ⟨17976931348623157, 292⟩ ∧
      scaled 17976931348623157 292 = some ⟨9218868437227405311⟩ := by
  decide +kernel

/-! ### The power of ten -/

/-- The greatest product for each of the greatest powers of ten. -/
theorem size_mul_table : ∀ k < 18,
    (Double.ofNat (nearlyTop / tenTo (291 + k))).size * (Double.powerOfTen (291 + k)).size ≤
      finiteTop * twoTo 2148 := by
  decide +kernel

/-- Powers below those of the table have no greater products with seventeen digits than the
least one there. -/
theorem isFinite_mul_powerOfTen {digits k : Nat} (hdigits : digits ≤ 10 ^ 17) (hk : k ≤ 308)
    (h : digits * 10 ^ k ≤ nearlyTop) :
    ((Double.ofNat digits).mul (Double.powerOfTen k)).isFinite = true := by
  have hproduct : digits * tenTo (291 + (k - 291)) ≤ nearlyTop := by
    rcases Nat.lt_or_ge k 291 with hsmall | hlarge
    · generalize hn : 291 + (k - 291) = n
      calc digits * tenTo n ≤ tenTo 17 * tenTo n := Nat.mul_le_mul_right _ hdigits
        _ = tenTo (17 + n) := (Nat.pow_add 10 17 n).symm
        _ ≤ nearlyTop := le_nearlyTop (by omega)
    · rwa [Nat.add_sub_cancel' hlarge]
  have hquot : digits ≤ nearlyTop / tenTo (291 + (k - 291)) :=
    (Nat.le_div_iff_mul_le (Nat.pow_pos (by decide))).mpr hproduct
  have hfirst := Double.size_mono (Double.unsigned_ofNat_mono hquot)
  have hsecond := Double.size_mono
    (Double.unsigned_powerOfTen_mono (show k ≤ 291 + (k - 291) by omega))
  exact isFinite_mul ((Nat.mul_le_mul hfirst hsecond).trans (size_mul_table (k - 291) (by omega)))

theorem div_powerOfTen_zero : (Double.ofNat (2 ^ 64)).div (Double.powerOfTen 0) =
    Double.ofNat (2 ^ 64) ∧ 0 < (Double.powerOfTen 0).size := by
  decide +kernel

/-- A quotient by at least one is at most its dividend, here a power of two. -/
theorem unsigned_div_powerOfTen_le {a : Double} (k : Nat)
    (ha : a.unsigned ≤ (Double.ofNat (2 ^ 64)).unsigned) :
    (a.div (Double.powerOfTen k)).unsigned ≤ (Double.ofNat (2 ^ 64)).unsigned := by
  obtain ⟨hone, hpos⟩ := div_powerOfTen_zero
  rw [← hone]
  exact Double.unsigned_div_mono ha (Double.unsigned_powerOfTen_mono (Nat.zero_le k)) hpos

/-- Sixty-four bits over a power of ten are a finite double. -/
theorem exists_scaled_of_neg {significand : Nat} (h : significand < 2 ^ 64) {e : Int} (he : e < 0) :
    ∃ d, scaled significand e = some d ∧ d.isFinite = true := by
  have hfinite : ∀ {d : Double}, d.unsigned ≤ (Double.ofNat (2 ^ 64)).unsigned →
      d.isFinite = true := fun hd => Double.isFinite_of_le hd (isFinite_ofNat two_pow_le_finiteTop)
  have hdigits := Double.unsigned_ofNat_mono h.le
  simp only [scaled]
  rw [if_neg (by omega)]
  split_ifs
  · exact ⟨_, rfl, hfinite (unsigned_div_powerOfTen_le _ hdigits)⟩
  · exact ⟨_, rfl, hfinite (unsigned_div_powerOfTen_le _ (unsigned_div_powerOfTen_le _ hdigits))⟩
  · exact ⟨_, rfl, by decide⟩

theorem exists_scaled_of_le {digits k : Nat} (hdigits : digits ≤ 10 ^ 17)
    (h : digits * 10 ^ k ≤ nearlyTop) :
    ∃ d, scaled digits k = some d ∧ d.isFinite = true := by
  simp only [scaled]
  rw [if_pos (Int.natCast_nonneg k)]
  split_ifs with hk hfinite hzero
  · exact ⟨_, rfl, hfinite⟩
  · exact absurd (isFinite_mul_powerOfTen hdigits (by omega) h) hfinite
  · have hsmall : digits ≤ 2 ^ 64 := hdigits.trans (by decide)
    exact ⟨_, rfl, isFinite_ofNat (hsmall.trans two_pow_le_finiteTop)⟩
  · have hpow : nearlyTop < 10 ^ k := nearlyTop_lt (by omega)
    have hnone : digits = 0 := by
      by_contra hpos
      have := Nat.le_mul_of_pos_left (10 ^ k) (Nat.pos_of_ne_zero hpos)
      omega
    exact absurd (by rw [hnone]; decide) hzero

theorem shortest_of_greatest {d : Double} (h : d.unsigned + 1 = Double.infinityBits) :
    d.shortest = ⟨17976931348623157, 292⟩ := by
  rw [← shortest_greatest.1]
  refine Double.shortest_congr ?_
  have hgreatest : Double.unsigned ⟨9218868437227405311⟩ + 1 = Double.infinityBits := rfl
  omega

/-- The shortest decimal of a finite double is not too large for the reader. -/
theorem exists_scaled_shortest {d : Double} (hd : d.isFinite = true) :
    ∃ x, scaled d.shortest.digits d.shortest.exponent = some x ∧ x.isFinite = true := by
  rw [Double.isFinite_iff] at hd
  rcases Nat.eq_or_lt_of_le hd with hgreatest | hless
  · rw [shortest_of_greatest hgreatest]
    exact ⟨⟨9218868437227405311⟩, shortest_greatest.2, by decide⟩
  · have hdigits := d.digits_shortest_le
    rcases Int.lt_or_le d.shortest.exponent 0 with hneg | hpos
    · exact exists_scaled_of_neg (by omega) hneg
    · obtain ⟨k, hk⟩ := Int.eq_ofNat_of_zero_le hpos
      have hle := Double.shortest_le_of_lt hless
      rw [Decimal.value, hk, zpow_natCast] at hle
      rw [hk]
      exact exists_scaled_of_le hdigits (by exact_mod_cast hle)

theorem exponent_shortest_le {d : Double} (hd : d.isFinite = true) (hne : d.shortest.digits ≠ 0) :
    d.shortest.exponent < 309 := by
  rw [Double.isFinite_iff] at hd
  rcases Nat.eq_or_lt_of_le hd with hgreatest | hless
  · rw [shortest_of_greatest hgreatest]
    decide
  · by_contra hlarge
    obtain ⟨k, hk⟩ := Int.eq_ofNat_of_zero_le (show 0 ≤ d.shortest.exponent by omega)
    have hle := Double.shortest_le_of_lt hless
    rw [Decimal.value, hk, zpow_natCast] at hle
    have hone : (1 : ℚ) ≤ d.shortest.digits := by exact_mod_cast Nat.pos_of_ne_zero hne
    have hself : (10 : ℚ) ^ k ≤ d.shortest.digits * 10 ^ k :=
      le_mul_of_one_le_left (by positivity) hone
    have hbeyond : nearlyTop < 10 ^ k := nearlyTop_lt (by omega)
    have htop : (nearlyTop : ℚ) < 10 ^ k := by exact_mod_cast hbeyond
    exact absurd htop (not_lt.mpr (hself.trans hle))

end Json
end Stepwise
