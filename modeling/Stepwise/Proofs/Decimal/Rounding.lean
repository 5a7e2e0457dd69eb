/-
# Rounding keeps order

A quotient is held in units so large that it has fifty-three binary digits
(`lt_of_scaleOf`, `le_of_scaleOf`), and within one scale the nearest number is taken,
an exact half going to the even one. Both the scale and the nearest number grow with
the quotient, and where the scale changes the bits go on without a gap; so a greater
quotient never has a smaller double (`nearestBits_mono`), and neither has a greater
double a smaller quotient.

Key definitions: `Double.size`.

Key theorems: `Double.nearestBits_mono`, `Double.size_mono`, `Double.unsigned_mul`,
`Double.unsigned_div_mono`.
-/
import Mathlib.Tactic.Linarith
import Mathlib.Tactic.Ring
import Stepwise.Decimal.Double

namespace Stepwise

namespace Decimal

theorem twoTo_pos (k : Nat) : 0 < twoTo k := Nat.two_pow_pos k

theorem twoTo_add (j k : Nat) : twoTo (j + k) = twoTo j * twoTo k := Nat.pow_add 2 j k

theorem twoTo_succ (k : Nat) : twoTo (k + 1) = 2 * twoTo k := by
  rw [twoTo_add, Nat.mul_comm]
  rfl

theorem twoTo_le {j k : Nat} (h : j ≤ k) : twoTo j ≤ twoTo k := Nat.pow_le_pow_right (by decide) h

theorem tenTo_le {j k : Nat} (h : j ≤ k) : tenTo j ≤ tenTo k := Nat.pow_le_pow_right (by decide) h

end Decimal

namespace Double

open Decimal

/-! ### The scale -/

/-- In units of its scale a quotient has at most fifty-three binary digits. -/
theorem lt_of_scaleOf (num : Nat) {den : Nat} (hden : den ≠ 0) :
    num * twoTo 1074 < den * twoTo (scaleOf num den + 53) := by
  have hlow : twoTo den.log2 ≤ den := Nat.log2_self_le hden
  have hhigh : num * twoTo 1074 < twoTo (num.log2 + 1 + 1074) := by
    rw [twoTo_add]
    exact Nat.mul_lt_mul_of_pos_right Nat.lt_log2_self (twoTo_pos _)
  have hreach : ∀ k, num.log2 + 1 + 1074 ≤ den.log2 + k → num * twoTo 1074 < den * twoTo k := by
    intro k hk
    calc num * twoTo 1074 < twoTo (num.log2 + 1 + 1074) := hhigh
      _ ≤ twoTo (den.log2 + k) := twoTo_le hk
      _ = twoTo den.log2 * twoTo k := twoTo_add _ _
      _ ≤ den * twoTo k := Nat.mul_le_mul_right _ hlow
  simp only [scaleOf]
  split_ifs with hzero hbelow
  · exact hreach _ (by omega)
  · rwa [show num.log2 + 1074 - den.log2 - 52 - 1 + 53 = num.log2 + 1074 - den.log2 - 52 + 52 by
      omega]
  · exact hreach _ (by omega)

/-- A scale above the least one is not too large: there are fifty-three digits. -/
theorem le_of_scaleOf {num : Nat} (hnum : num ≠ 0) (den : Nat) (hpos : 0 < scaleOf num den) :
    den * twoTo (scaleOf num den + 52) ≤ num * twoTo 1074 := by
  revert hpos
  simp only [scaleOf]
  split_ifs with hzero hbelow
  · omega
  · intro hpos
    have hden : den < twoTo (den.log2 + 1) := Nat.lt_log2_self
    calc den * twoTo (num.log2 + 1074 - den.log2 - 52 - 1 + 52)
        ≤ twoTo (den.log2 + 1) * twoTo (num.log2 + 1074 - den.log2 - 52 - 1 + 52) :=
          Nat.mul_le_mul_right _ hden.le
      _ = twoTo (num.log2 + 1074) := by
          rw [← twoTo_add]
          congr 1
          omega
      _ = twoTo num.log2 * twoTo 1074 := twoTo_add _ _
      _ ≤ num * twoTo 1074 := Nat.mul_le_mul_right _ (Nat.log2_self_le hnum)
  · exact fun _ => Nat.le_of_not_lt hbelow

theorem scaleOf_mono {num den num' den' : Nat} (hnum : num ≠ 0) (hden : den ≠ 0)
    (hden' : den' ≠ 0) (h : num * den' ≤ num' * den) : scaleOf num den ≤ scaleOf num' den' := by
  have hnum' : num' ≠ 0 := by
    rintro rfl
    have := Nat.mul_pos (Nat.pos_of_ne_zero hnum) (Nat.pos_of_ne_zero hden')
    omega
  by_contra hlt
  have hlower := le_of_scaleOf hnum den (by omega)
  have hupper := lt_of_scaleOf num' hden'
  have hscales : twoTo (scaleOf num' den' + 53) ≤ twoTo (scaleOf num den + 52) :=
    twoTo_le (by omega)
  have hself : den' * den * twoTo (scaleOf num' den' + 53) <
      den' * den * twoTo (scaleOf num' den' + 53) :=
    calc den' * den * twoTo (scaleOf num' den' + 53)
        ≤ den' * (den * twoTo (scaleOf num den + 52)) := by
          rw [Nat.mul_assoc]
          exact Nat.mul_le_mul_left _ (Nat.mul_le_mul_left _ hscales)
      _ ≤ den' * (num * twoTo 1074) := Nat.mul_le_mul_left _ hlower
      _ = num * den' * twoTo 1074 := by ring
      _ ≤ num' * den * twoTo 1074 := Nat.mul_le_mul_right _ h
      _ = den * (num' * twoTo 1074) := by ring
      _ < den * (den' * twoTo (scaleOf num' den' + 53)) :=
          Nat.mul_lt_mul_of_pos_left hupper (Nat.pos_of_ne_zero hden)
      _ = den' * den * twoTo (scaleOf num' den' + 53) := by ring
  exact Nat.lt_irrefl _ hself

/-! ### The nearest number -/

/-- The rounded number is at most half a unit off, and even if it is that much. -/
theorem roundHalfEven_near (num : Nat) {den : Nat} (hden : den ≠ 0) :
    2 * roundHalfEven num den * den ≤ 2 * num + den ∧
      2 * num ≤ 2 * roundHalfEven num den * den + den ∧
      (2 * roundHalfEven num den * den = 2 * num + den ∨
        2 * num = 2 * roundHalfEven num den * den + den → roundHalfEven num den % 2 = 0) := by
  have hdiv := Nat.div_add_mod num den
  have hmod := Nat.mod_lt num (Nat.pos_of_ne_zero hden)
  have hcomm : num / den * den = den * (num / den) := Nat.mul_comm _ _
  simp only [roundHalfEven]
  split_ifs with hbelow htie
  · rw [Nat.mul_assoc, hcomm]
    omega
  · rcases Nat.mod_two_eq_zero_or_one (num / den) with hpar | hpar
    · rw [hpar, Nat.add_zero, Nat.mul_assoc, hcomm]
      omega
    · rw [hpar, Nat.mul_assoc, Nat.add_mul, hcomm]
      omega
  · rw [Nat.mul_assoc, Nat.add_mul, hcomm]
    omega

/-- Were the smaller quotient rounded to the larger number, both would be the same half,
and both numbers even. -/
theorem roundHalfEven_mono {num den num' den' : Nat} (hden : den ≠ 0) (hden' : den' ≠ 0)
    (h : num * den' ≤ num' * den) : roundHalfEven num den ≤ roundHalfEven num' den' := by
  obtain ⟨hle, -, heven⟩ := roundHalfEven_near num hden
  obtain ⟨-, hge, heven'⟩ := roundHalfEven_near num' hden'
  generalize roundHalfEven num den = r at *
  generalize roundHalfEven num' den' = r' at *
  have hpos : 0 < den := Nat.pos_of_ne_zero hden
  have hpos' : 0 < den' := Nat.pos_of_ne_zero hden'
  have hbelow : 2 * r * den * den' ≤ (2 * num + den) * den' := Nat.mul_le_mul_right _ hle
  have habove : 2 * num' * den ≤ (2 * r' * den' + den') * den := Nat.mul_le_mul_right _ hge
  by_contra hlt
  have hstep : r = r' + 1 := by
    have hcross : 2 * r * (den * den') ≤ (2 * r' + 2) * (den * den') := by linarith
    have := Nat.le_of_mul_le_mul_right hcross (Nat.mul_pos hpos hpos')
    omega
  subst hstep
  have htie : 2 * (r' + 1) * den = 2 * num + den :=
    Nat.eq_of_mul_eq_mul_right hpos' (by linarith)
  have htie' : 2 * num' = 2 * r' * den' + den' := Nat.eq_of_mul_eq_mul_right hpos (by linarith)
  have := heven (.inl htie)
  have := heven' (.inr htie')
  omega

/-! ### The nearest double -/

/-- In units of its scale a quotient is rounded to fifty-three digits, or to the least number
with one more. -/
theorem roundHalfEven_le_of_scaleOf (num : Nat) {den : Nat} (hden : den ≠ 0) :
    roundHalfEven (num * twoTo 1074) (den * twoTo (scaleOf num den)) ≤ twoTo 53 := by
  have h := lt_of_scaleOf num hden
  rw [twoTo_add, ← Nat.mul_assoc] at h
  have hpos : den * twoTo (scaleOf num den) ≠ 0 :=
    Nat.mul_ne_zero hden (Nat.ne_of_gt (twoTo_pos _))
  calc roundHalfEven (num * twoTo 1074) (den * twoTo (scaleOf num den))
      ≤ roundHalfEven (twoTo 53) 1 := roundHalfEven_mono hpos (by decide) (by linarith)
    _ = twoTo 53 := by decide

theorem le_roundHalfEven_of_scaleOf {num den : Nat} (hnum : num ≠ 0) (hden : den ≠ 0)
    (hpos : 0 < scaleOf num den) :
    twoTo 52 ≤ roundHalfEven (num * twoTo 1074) (den * twoTo (scaleOf num den)) := by
  have h := le_of_scaleOf hnum den hpos
  rw [twoTo_add, ← Nat.mul_assoc] at h
  have hne : den * twoTo (scaleOf num den) ≠ 0 :=
    Nat.mul_ne_zero hden (Nat.ne_of_gt (twoTo_pos _))
  calc twoTo 52 = roundHalfEven (twoTo 52) 1 := by decide
    _ ≤ roundHalfEven (num * twoTo 1074) (den * twoTo (scaleOf num den)) :=
      roundHalfEven_mono (by decide) hne (by linarith)

/-- A greater quotient has no smaller double. Where the greater one has a greater scale, the
smaller one ends where that scale begins. -/
theorem nearestBits_mono {num den num' den' : Nat} (hden : den ≠ 0) (hden' : den' ≠ 0)
    (h : num * den' ≤ num' * den) : nearestBits num den ≤ nearestBits num' den' := by
  by_cases hnum : num = 0
  · simp [nearestBits, hnum]
  have hnum' : num' ≠ 0 := by
    rintro rfl
    have := Nat.mul_pos (Nat.pos_of_ne_zero hnum) (Nat.pos_of_ne_zero hden')
    omega
  simp only [nearestBits, if_neg hnum, if_neg hnum']
  refine min_le_min_right _ ?_
  rcases Nat.eq_or_lt_of_le (scaleOf_mono hnum hden hden' h) with hsame | hless
  · rw [hsame]
    have hscale := Nat.ne_of_gt (twoTo_pos (scaleOf num' den'))
    refine Nat.add_le_add_left (roundHalfEven_mono (Nat.mul_ne_zero hden hscale)
      (Nat.mul_ne_zero hden' hscale) ?_) _
    calc num * twoTo 1074 * (den' * twoTo (scaleOf num' den'))
        = num * den' * (twoTo 1074 * twoTo (scaleOf num' den')) := by ring
      _ ≤ num' * den * (twoTo 1074 * twoTo (scaleOf num' den')) := Nat.mul_le_mul_right _ h
      _ = num' * twoTo 1074 * (den * twoTo (scaleOf num' den')) := by ring
  · have hupper := roundHalfEven_le_of_scaleOf num hden
    have hlower := le_roundHalfEven_of_scaleOf hnum' hden' (by omega)
    have hsucc : twoTo 53 = 2 * twoTo 52 := twoTo_succ 52
    have hgap : (scaleOf num den + 1) * twoTo 52 ≤ scaleOf num' den' * twoTo 52 :=
      Nat.mul_le_mul_right _ hless
    linarith

theorem nearestBits_le_infinityBits (num den : Nat) : nearestBits num den ≤ infinityBits := by
  simp only [nearestBits]
  split_ifs
  · exact Nat.zero_le _
  · exact Nat.min_le_right _ _

/-! ### Magnitudes -/

/-- The magnitude of a double in units of `2 ^ -1074`. -/
def size (d : Double) : Nat := d.magnitude.1 * twoTo d.magnitude.2

theorem unsigned_lt (d : Double) : d.unsigned < twoTo 63 := Nat.mod_lt _ (twoTo_pos 63)

@[simp] theorem unsigned_ofSign (negative : Bool) {lower : Nat} (h : lower < twoTo 63) :
    (ofSign negative lower).unsigned = lower := by
  have hsum : twoTo 63 + lower < 2 ^ 64 := by
    have : twoTo 63 + twoTo 63 = 2 ^ 64 := by decide
    omega
  cases negative with
  | false =>
    simp only [unsigned, ofSign, Bool.false_eq_true, if_false, UInt64.toNat_ofNat']
    rw [Nat.mod_eq_of_lt (a := lower) (by omega), Nat.mod_eq_of_lt h]
  | true =>
    simp only [unsigned, ofSign, if_true, UInt64.toNat_ofNat']
    rw [Nat.mod_eq_of_lt hsum, Nat.add_mod_left, Nat.mod_eq_of_lt h]

@[simp] theorem unsigned_neg (d : Double) : d.neg.unsigned = d.unsigned :=
  unsigned_ofSign _ d.unsigned_lt

@[simp] theorem unsigned_ofRatio (negative : Bool) (num den : Nat) :
    (ofRatio negative num den).unsigned = nearestBits num den :=
  unsigned_ofSign _ (Nat.lt_of_le_of_lt (nearestBits_le_infinityBits num den) (by decide))

theorem isFinite_iff {d : Double} : d.isFinite = true ↔ d.unsigned < infinityBits := by
  simp [isFinite]

theorem isFinite_of_le {a b : Double} (h : a.unsigned ≤ b.unsigned) (hb : b.isFinite = true) :
    a.isFinite = true := by
  rw [isFinite_iff] at hb ⊢
  exact Nat.lt_of_le_of_lt h hb

theorem size_eq (d : Double) : d.size =
    if d.unsigned / twoTo 52 = 0 then d.unsigned % twoTo 52
    else (twoTo 52 + d.unsigned % twoTo 52) * twoTo (d.unsigned / twoTo 52 - 1) := by
  simp only [size, magnitude]
  split_ifs
  · exact Nat.mul_one _
  · rfl

/-- A double has less than the least magnitude of the next exponent. -/
theorem size_lt (d : Double) : d.size < twoTo (52 + d.unsigned / twoTo 52) := by
  have hmod := Nat.mod_lt d.unsigned (twoTo_pos 52)
  rw [size_eq]
  split_ifs with hzero
  · rwa [hzero]
  · obtain ⟨e, he⟩ := Nat.exists_eq_succ_of_ne_zero hzero
    rw [he, show 52 + e.succ = 53 + e by omega, twoTo_add, twoTo_succ 52]
    exact Nat.mul_lt_mul_of_pos_right (by omega) (twoTo_pos _)

theorem size_mono {a b : Double} (h : a.unsigned ≤ b.unsigned) : a.size ≤ b.size := by
  rcases Nat.eq_or_lt_of_le (Nat.div_le_div_right (c := twoTo 52) h) with hsame | hless
  · have ha := Nat.div_add_mod a.unsigned (twoTo 52)
    have hb := Nat.div_add_mod b.unsigned (twoTo 52)
    rw [hsame] at ha
    rw [size_eq, size_eq, hsame]
    split_ifs
    · omega
    · exact Nat.mul_le_mul_right _ (by omega)
  · obtain ⟨e, he⟩ := Nat.exists_eq_succ_of_ne_zero (Nat.ne_of_gt (Nat.zero_lt_of_lt hless))
    rw [he] at hless
    calc a.size ≤ twoTo (52 + a.unsigned / twoTo 52) := a.size_lt.le
      _ ≤ twoTo (52 + e) := twoTo_le (Nat.add_le_add_left (Nat.le_of_lt_succ hless) _)
      _ = twoTo 52 * twoTo e := twoTo_add _ _
      _ ≤ b.size := by
        rw [size_eq b, he, if_neg (Nat.succ_ne_zero _)]
        exact Nat.mul_le_mul_right _ (Nat.le_add_right _ _)

/-! ### Products and quotients -/

theorem unsigned_mul (a b : Double) :
    (a.mul b).unsigned = nearestBits (a.size * b.size) (twoTo 2148) := by
  simp only [mul, unsigned_ofRatio, size, twoTo_add]
  congr 1
  ring

theorem unsigned_div (a b : Double) : (a.div b).unsigned = nearestBits a.size b.size := by
  simp only [div, unsigned_ofRatio, size]

theorem unsigned_ofNat_mono {m n : Nat} (h : m ≤ n) : (ofNat m).unsigned ≤ (ofNat n).unsigned := by
  simp only [ofNat, unsigned_ofRatio]
  exact nearestBits_mono (by decide) (by decide) (Nat.mul_le_mul_right _ h)

theorem unsigned_powerOfTen_mono {m n : Nat} (h : m ≤ n) :
    (powerOfTen m).unsigned ≤ (powerOfTen n).unsigned :=
  unsigned_ofNat_mono (Decimal.tenTo_le h)

theorem unsigned_div_mono {a b a' b' : Double} (ha : a.unsigned ≤ a'.unsigned)
    (hb : b'.unsigned ≤ b.unsigned) (hb' : 0 < b'.size) :
    (a.div b).unsigned ≤ (a'.div b').unsigned := by
  have hsize := size_mono hb
  rw [unsigned_div, unsigned_div]
  exact nearestBits_mono (by omega) (by omega) (Nat.mul_le_mul (size_mono ha) hsize)

end Double
end Stepwise
