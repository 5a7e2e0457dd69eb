/-
# How large the shortest decimal is

The shortest decimal of a double lies in the interval of the numbers that round to it
(`shortest_le`) and has at most seventeen digits, or is a power of ten with one more
(`digits_shortest_le`). Taking zeros off its end changes neither fact. The greatest
double apart, no finite double has a shortest decimal above the middle between the two
greatest ones (`shortest_le_of_lt`).

Key definitions: `Decimal.value`, `Double.Interval.top`.

Key theorems: `Double.shortest_le`, `Double.digits_shortest_le`,
`Double.shortest_le_of_lt`.
-/
import Mathlib.Algebra.Order.Field.Power
import Mathlib.Data.Rat.Cast.Order
import Mathlib.Tactic.FieldSimp
import Mathlib.Tactic.Positivity
import Stepwise.Decimal.Shortest
import Stepwise.Proofs.Decimal.Rounding

namespace Stepwise

namespace Decimal

/-- The number that a decimal denotes. -/
def value (d : Decimal) : ℚ := d.digits * 10 ^ d.exponent

theorem lt_tenTo_digitCount (n : Nat) : n < 10 ^ digitCount n := by
  unfold digitCount
  split_ifs with hzero
  · simp [hzero]
  · exact (Nat.length_toDigits_le_iff (by decide) Nat.length_toDigits_pos).mp le_rfl

theorem tenTo_digitCount_le {n : Nat} (h : n ≠ 0) : 10 ^ (digitCount n - 1) ≤ n := by
  rw [digitCount, if_neg h]
  rcases Nat.eq_zero_or_pos ((Nat.toDigits 10 n).length - 1) with hone | hmore
  · rw [hone]
    exact Nat.pos_of_ne_zero h
  · by_contra hlt
    have := (Nat.length_toDigits_le_iff (by decide) hmore).mpr (Nat.lt_of_not_le hlt)
    omega

theorem digitCount_pos {n : Nat} (h : n ≠ 0) : 0 < digitCount n := by
  rw [digitCount, if_neg h]
  exact Nat.length_toDigits_pos

/-- Zeros taken off the end go into the exponent. -/
theorem value_trimZeros : ∀ (fuel : Nat) (d : Decimal), (trimZeros fuel d).value = d.value
  | 0, _ => rfl
  | fuel + 1, d => by
    rw [trimZeros]
    split_ifs with h
    · have hdigits : (d.digits : ℚ) = 10 * (d.digits / 10 : Nat) := by
        exact_mod_cast (Nat.mul_div_cancel' (Nat.dvd_of_mod_eq_zero h.1)).symm
      rw [value_trimZeros fuel, value, value, hdigits, zpow_add_one₀ (by norm_num)]
      ring
    · rfl

theorem digits_trimZeros_le : ∀ (fuel : Nat) (d : Decimal),
    (trimZeros fuel d).digits ≤ d.digits
  | 0, _ => le_rfl
  | fuel + 1, d => by
    rw [trimZeros]
    split_ifs
    · exact (digits_trimZeros_le fuel _).trans (Nat.div_le_self _ _)
    · exact le_rfl

theorem exponent_le_trimZeros : ∀ (fuel : Nat) (d : Decimal),
    d.exponent ≤ (trimZeros fuel d).exponent
  | 0, _ => le_rfl
  | fuel + 1, d => by
    rw [trimZeros]
    split_ifs
    · have := exponent_le_trimZeros fuel ⟨d.digits / 10, d.exponent + 1⟩
      simp only at this
      omega
    · exact le_rfl

end Decimal

namespace Double

open Decimal

/-! ### The first digit -/

/-- A positive number lies below the power of ten after that of its first digit. -/
theorem lt_leadingPower {num den : Nat} (hnum : 0 < num) (hden : 0 < den) :
    (num : ℚ) / den < 10 ^ (leadingPower num den + 1) := by
  have hden' : (0 : ℚ) < den := by exact_mod_cast hden
  rw [leadingPower]
  split_ifs with hge
  · rw [Int.sub_add_cancel, zpow_natCast, div_lt_iff₀ hden']
    exact_mod_cast (Nat.div_lt_iff_lt_mul hden).mp (lt_tenTo_digitCount (num / den))
  · have hquot : (den - 1) / num ≠ 0 := Nat.ne_of_gt (Nat.div_pos (by omega) hnum)
    obtain ⟨c, hc⟩ := Nat.exists_eq_succ_of_ne_zero (Nat.ne_of_gt (digitCount_pos hquot))
    have hpow : 10 ^ c ≤ (den - 1) / num := by
      have := tenTo_digitCount_le hquot
      rwa [hc, Nat.succ_sub_one] at this
    have hmul : num * 10 ^ c < den := by
      have := (Nat.le_div_iff_mul_le hnum).mp hpow
      rw [Nat.mul_comm] at this
      omega
    have hexp : -((digitCount ((den - 1) / num) : Nat) : Int) + 1 = -(c : Int) := by
      rw [hc]
      push_cast
      ring
    rw [hexp, zpow_neg, zpow_natCast, div_lt_iff₀ hden', inv_mul_eq_div,
      lt_div_iff₀ (by positivity)]
    exact_mod_cast hmul

theorem neg_le_leadingPower {num den c : Nat} (hc : 0 < c) (h : den ≤ 10 ^ c) :
    -(c : Int) ≤ leadingPower num den := by
  rw [leadingPower]
  split_ifs with hge
  · omega
  · have hquot : (den - 1) / num < 10 ^ c := by
      have := Nat.div_le_self (den - 1) num
      have := Nat.pow_pos (n := c) (by decide : 0 < 10)
      omega
    have hcount : digitCount ((den - 1) / num) ≤ c := by
      unfold digitCount
      split_ifs
      · exact Nat.zero_le _
      · exact (Nat.length_toDigits_le_iff (by decide) hc).mpr hquot
    omega

/-! ### The interval -/

namespace Interval

/-- The double itself, as a number. -/
def middle (i : Interval) : ℚ := i.value / i.den

/-- The upper end, as a number. -/
def top (i : Interval) : ℚ := i.high / i.den

/-- In units of `10 ^ p` the interval is as long, counted in those units. -/
theorem scaled_eq (i : Interval) (p : Int) :
    (i.scaled p).middle * 10 ^ p = i.middle ∧ (i.scaled p).top * 10 ^ p = i.top := by
  unfold scaled
  split_ifs with hp
  · obtain ⟨n, rfl⟩ := Int.eq_ofNat_of_zero_le hp
    simp only [middle, top, Int.toNat_natCast, tenTo, Nat.pow_eq, Nat.cast_mul, Nat.cast_pow,
      Nat.cast_ofNat, zpow_natCast]
    constructor <;> field_simp
  · obtain ⟨n, rfl⟩ : ∃ n : Nat, p = -(n : Int) := ⟨(-p).toNat, by omega⟩
    simp only [middle, top, neg_neg, Int.toNat_natCast, tenTo, Nat.pow_eq, Nat.cast_mul,
      Nat.cast_pow, Nat.cast_ofNat, zpow_neg, zpow_natCast]
    constructor <;> field_simp

theorem den_scaled_pos {i : Interval} (hden : 0 < i.den) (p : Int) : 0 < (i.scaled p).den := by
  unfold scaled
  split_ifs
  · exact Nat.mul_pos hden (Nat.pow_pos (by decide))
  · exact hden

theorem le_of_holds {i : Interval} {n : Nat} (h : i.holds n = true) : n * i.den ≤ i.high := by
  unfold holds at h
  split_ifs at h
  · simp only [Bool.and_eq_true, decide_eq_true_eq] at h
    exact h.2
  · simp only [Bool.and_eq_true, decide_eq_true_eq] at h
    exact h.2.le

/-- The nearest whole number lies in the interval, and next to the double. -/
theorem of_nearest? {i : Interval} {n : Nat} (h : i.nearest? = some n) :
    i.holds n = true ∧ (n = i.value / i.den ∨ n = i.value / i.den + 1) := by
  simp only [nearest?] at h
  split at h
  case h_1 hlow hhigh =>
    have hlow := (Bool.and_eq_true_iff.mp hlow).1
    have heither : n = i.value / i.den ∨ n = i.value / i.den + 1 := by
      split_ifs at h <;>
      · have heq := Option.some.inj h
        omega
    exact ⟨by rcases heither with rfl | rfl <;> assumption, heither⟩
  case h_2 hlow hhigh =>
    obtain rfl := Option.some.inj h
    exact ⟨(Bool.and_eq_true_iff.mp hlow).1, .inl rfl⟩
  case h_3 hlow hhigh =>
    obtain rfl := Option.some.inj h
    exact ⟨hhigh, .inr rfl⟩
  case h_4 => contradiction

/-- A whole number of units of `10 ^ p` that is nearest to the double is at most its upper end,
and at most `10 ^ c` if the double lies below `10 ^ (p + c)`. -/
theorem nearest?_scaled_le {i : Interval} (hden : 0 < i.den) {p : Int} {n : Nat}
    (h : (i.scaled p).nearest? = some n) :
    (n : ℚ) * 10 ^ p ≤ i.top ∧ ∀ c : Nat, i.middle < 10 ^ (p + c) → n ≤ 10 ^ c := by
  obtain ⟨hholds, hnext⟩ := of_nearest? h
  obtain ⟨hmiddle, htop⟩ := i.scaled_eq p
  have hden' : (0 : ℚ) < (i.scaled p).den := by exact_mod_cast den_scaled_pos hden p
  have hunit : (0 : ℚ) < 10 ^ p := by positivity
  constructor
  · rw [← htop]
    refine mul_le_mul_of_nonneg_right ?_ hunit.le
    rw [top, le_div_iff₀ hden']
    exact_mod_cast le_of_holds hholds
  · intro c hc
    rw [← hmiddle, zpow_add₀ (by norm_num), zpow_natCast, mul_comm (10 ^ p),
      mul_lt_mul_iff_left₀ hunit, middle, div_lt_iff₀ hden'] at hc
    have hquot : (i.scaled p).value / (i.scaled p).den < 10 ^ c :=
      (Nat.div_lt_iff_lt_mul (den_scaled_pos hden p)).mpr (by exact_mod_cast hc)
    omega

end Interval

/-! ### The search -/

/-- What the search finds is the nearest whole number in units of some power of ten. -/
theorem of_searchDigits {i : Interval} {lead : Int} {d : Decimal} : ∀ {fuel count : Nat},
    searchDigits i lead fuel count = some d →
    ∃ c n, c < count + fuel ∧ (i.scaled (lead - c + 1)).nearest? = some n ∧
      d = trimZeros 20 ⟨n, lead - c + 1⟩
  | 0, _, h => nomatch h
  | fuel + 1, count, h => by
    simp only [searchDigits] at h
    split at h
    · rename_i n hn
      exact ⟨count, n, by omega, hn, (Option.some.inj h).symm⟩
    · obtain ⟨c, n, hc, hn, hd⟩ := of_searchDigits h
      exact ⟨c, n, by omega, hn, hd⟩

/-- What the search from the first digit on finds lies in the interval and has few digits. -/
theorem searchDigits_le {i : Interval} (hvalue : 0 < i.value) (hden : 0 < i.den) {count : Nat}
    {d : Decimal} (h : searchDigits i (leadingPower i.value i.den) count 1 = some d) :
    d.value ≤ i.top ∧ d.digits ≤ 10 ^ count := by
  obtain ⟨c, n, hc, hn, rfl⟩ := of_searchDigits h
  obtain ⟨htop, hdigits⟩ := Interval.nearest?_scaled_le hden hn
  have hlead : i.middle < 10 ^ (leadingPower i.value i.den - c + 1 + c) := by
    rw [show leadingPower i.value i.den - c + 1 + c = leadingPower i.value i.den + 1 by ring]
    exact lt_leadingPower hvalue hden
  rw [value_trimZeros]
  refine ⟨htop, ?_⟩
  calc (trimZeros 20 ⟨n, leadingPower i.value i.den - c + 1⟩).digits ≤ n := digits_trimZeros_le _ _
    _ ≤ 10 ^ c := hdigits c hlead
    _ ≤ 10 ^ count := Nat.pow_le_pow_right (by decide) (by omega)

theorem interval_den (d : Double) : d.interval.den = twoTo 1076 := by simp only [interval]

theorem interval_value (d : Double) : d.interval.value = 4 * d.size := by
  simp only [interval, size, Nat.mul_assoc]

theorem interval_high (d : Double) : d.interval.high = 4 * d.size + 2 * twoTo d.magnitude.2 := by
  simp only [interval, size]
  ring

theorem size_pos {d : Double} (h : d.isZero = false) : 0 < d.size := by
  have hne : d.unsigned ≠ 0 := by simpa [isZero] using h
  rw [size_eq]
  split_ifs with hexp
  · rcases (Nat.div_eq_zero_iff.mp hexp) with hzero | hlt
    · exact absurd hzero (Nat.ne_of_gt (twoTo_pos 52))
    · rw [Nat.mod_eq_of_lt hlt]
      exact Nat.pos_of_ne_zero hne
  · exact Nat.mul_pos (Nat.add_pos_left (twoTo_pos 52) _) (twoTo_pos _)

theorem shortest_cases (d : Double) : d.shortest = ⟨0, 0⟩ ∨
    0 < d.interval.value ∧ 0 < d.interval.den ∧
      searchDigits d.interval (leadingPower d.interval.value d.interval.den) 17 1 =
        some d.shortest := by
  simp only [shortest]
  split_ifs with hzero
  · exact .inl rfl
  · have hvalue : 0 < d.interval.value := by
      have := size_pos (Bool.eq_false_iff.mpr hzero)
      rw [interval_value]
      omega
    have hden : 0 < d.interval.den := by
      rw [interval_den]
      exact twoTo_pos _
    cases searchDigits d.interval (leadingPower d.interval.value d.interval.den) 17 1 with
    | none => exact .inl rfl
    | some found => exact .inr ⟨hvalue, hden, rfl⟩

/-- The shortest decimal is at most the largest number that rounds to the double. -/
theorem shortest_le (d : Double) : d.shortest.value ≤ d.interval.top := by
  rcases d.shortest_cases with hzero | ⟨hvalue, hden, hsearch⟩
  · rw [hzero, Decimal.value, Interval.top, Nat.cast_zero, zero_mul]
    positivity
  · exact (searchDigits_le hvalue hden hsearch).1

/-- It has no more than seventeen digits, or is a one with seventeen zeros. -/
theorem digits_shortest_le (d : Double) : d.shortest.digits ≤ 10 ^ 17 := by
  rcases d.shortest_cases with hzero | ⟨hvalue, hden, hsearch⟩
  · rw [hzero]
    exact Nat.zero_le _
  · exact (searchDigits_le hvalue hden hsearch).2

theorem exponent_shortest_ge (d : Double) : -340 ≤ d.shortest.exponent := by
  rcases d.shortest_cases with hzero | ⟨-, -, hsearch⟩
  · rw [hzero]
    decide
  · obtain ⟨c, n, hc, -, hd⟩ := of_searchDigits hsearch
    have hden : d.interval.den ≤ 10 ^ 324 := by
      rw [interval_den]
      decide +kernel
    have hlead : -(324 : Nat) ≤ leadingPower d.interval.value d.interval.den :=
      neg_le_leadingPower (by decide) hden
    have hexp := exponent_le_trimZeros 20 ⟨n, leadingPower d.interval.value d.interval.den - c + 1⟩
    rw [← hd] at hexp
    simp only at hexp
    omega

/-! ### Below the greatest double -/

/-- The middle between the two greatest doubles. -/
def nearlyTop : Nat := (twoTo 54 - 3) * twoTo 970

theorem magnitude_cases {d : Double} (h : d.unsigned + 1 < infinityBits) :
    d.magnitude.1 + 2 ≤ twoTo 53 ∧ d.magnitude.2 ≤ 2045 ∨
      d.magnitude.1 + 1 ≤ twoTo 53 ∧ d.magnitude.2 ≤ 2044 := by
  have hdiv := Nat.div_add_mod d.unsigned (twoTo 52)
  have hmod := Nat.mod_lt d.unsigned (twoTo_pos 52)
  have hdouble : twoTo 53 = 2 * twoTo 52 := twoTo_succ 52
  rw [infinityBits] at h
  simp only [magnitude]
  have hlast : twoTo 52 = 4503599627370496 := rfl
  rw [hlast] at hdiv hmod hdouble h ⊢
  split_ifs <;> simp only <;> omega

/-- The greatest double apart, every number that rounds to a finite double is at most the
middle between the two greatest ones. -/
theorem shortest_le_of_lt {d : Double} (h : d.unsigned + 1 < infinityBits) :
    d.shortest.value ≤ nearlyTop := by
  have hden : (0 : ℚ) < d.interval.den := by
    rw [interval_den]
    exact_mod_cast twoTo_pos _
  have hhigh : d.interval.high = (4 * d.magnitude.1 + 2) * twoTo d.magnitude.2 := by
    rw [interval_high, size]
    ring
  have hlast : twoTo 53 = 9007199254740992 := rfl
  have htop : nearlyTop * twoTo 1076 = (4 * twoTo 53 - 6) * (2 * twoTo 2044) := by
    have hpow : twoTo 970 * twoTo 1076 = 2 * (2 * twoTo 2044) := by
      rw [← twoTo_add, show 970 + 1076 = 2044 + 1 + 1 from rfl, twoTo_succ, twoTo_succ]
    rw [nearlyTop, Nat.mul_assoc, hpow, twoTo_succ 53, hlast]
    omega
  refine d.shortest_le.trans ?_
  rw [Interval.top, div_le_iff₀ hden, interval_den]
  suffices d.interval.high ≤ nearlyTop * twoTo 1076 by exact_mod_cast this
  rw [hhigh, htop]
  rcases magnitude_cases h with ⟨hdigits, hexp⟩ | ⟨hdigits, hexp⟩
  · refine Nat.mul_le_mul (by omega) ?_
    rw [← twoTo_succ]
    exact twoTo_le hexp
  · rw [← Nat.mul_assoc]
    exact Nat.mul_le_mul (by omega) (twoTo_le hexp)

/-- A double and its opposite have one shortest decimal. -/
theorem shortest_congr {a b : Double} (h : a.unsigned = b.unsigned) : a.shortest = b.shortest := by
  have hzero : a.isZero = b.isZero := by rw [isZero, isZero, h]
  have hmagnitude : a.magnitude = b.magnitude := by simp only [magnitude, h]
  have hinterval : a.interval = b.interval := by rw [interval, interval, hmagnitude]
  rw [shortest, shortest, hzero, hinterval]

end Double
end Stepwise
