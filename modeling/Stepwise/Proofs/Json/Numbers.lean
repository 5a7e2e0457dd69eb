/-
# Written numbers are read

The text of a number is read to its end, and gives a number again
(`Number.ofChars?_chars`): a whole number the same one (`Number.reread_int`), a finite
double some finite double (`Number.reread_inRange`), which need not be the same. The digits
of a written number always fit the significand, so the scan holds exactly the digits and
the exponent of the decimal (`NumberScan.exists_write`). A character that cannot go on a
number ends it (`NumberScan.step_of_ends`).

Key definitions: `Json.NumberScan.feed?`, `Json.NumberScan.ofChars?`,
`Json.Number.reread`, `Json.NumberScan.Ends`.

Key theorems: `Json.NumberScan.exists_write`, `Json.Number.ofChars?_chars`,
`Json.Number.reread_int`, `Json.Number.reread_inRange`, `Json.NumberScan.step_of_ends`.
-/
import Stepwise.Json.Printer
import Stepwise.Proofs.Json.Scaling

namespace Stepwise
namespace Json

open Nat (toDigits ofDigitChars)

namespace NumberScan

/-! ### Feeding a scan -/

/-- The scan after characters that all belong to the number, if they do. -/
def feed? : NumberScan → List Char → Option NumberScan
  | s, [] => some s
  | s, c :: cs =>
    match s.step c with
    | .more s' => s'.feed? cs
    | _ => none

/-- The scan of a number from its first character on. -/
def ofChars? : List Char → Option NumberScan
  | [] => none
  | c :: cs => (start c).bind (feed? · cs)

theorem feed?_cons {s s' : NumberScan} {c : Char} (h : s.step c = .more s') (cs : List Char) :
    s.feed? (c :: cs) = s'.feed? cs := by
  rw [feed?, h]

theorem push?_eq {s : NumberScan} {c : Char} (h : 10 * s.significand + digitValue c < 2 ^ 64) :
    s.push? c = some { s with significand := 10 * s.significand + digitValue c } := by
  exact if_pos h

/-- Digits only add to a number. -/
theorem le_ofDigitChars : ∀ (ds : List Char) (n : Nat), n ≤ ofDigitChars 10 ds n
  | [], n => by simp
  | c :: ds, n => by
    rw [Nat.ofDigitChars_cons]
    exact Nat.le_trans (by omega) (le_ofDigitChars ds _)

/-- Digits before the point go into the significand while they fit. -/
theorem feed?_whole (more : List Char) : ∀ {ds : List Char} {s : NumberScan}, s.phase = .whole →
    (∀ c ∈ ds, c.isDigit = true) → ofDigitChars 10 ds s.significand < 2 ^ 64 →
    s.feed? (ds ++ more) = feed? { s with significand := ofDigitChars 10 ds s.significand } more
  | [], s, _, _, _ => by rw [Nat.ofDigitChars_nil, List.nil_append]
  | c :: ds, s, hphase, hdigits, hfit => by
    obtain ⟨hc, hds⟩ := List.forall_mem_cons.mp hdigits
    rw [Nat.ofDigitChars_cons] at hfit ⊢
    have hpush := push?_eq (s := s) (Nat.lt_of_le_of_lt (le_ofDigitChars ds _) hfit)
    have hstep : s.step c =
        .more { s with significand := 10 * s.significand + digitValue c } := by
      simp only [step, hphase, hc, hpush, if_true]
    rw [List.cons_append, feed?_cons hstep, feed?_whole more (by exact hphase) hds hfit]
    rfl

/-- Digits after the point go into the significand while they fit, and lower the exponent. -/
theorem feed?_fraction (more : List Char) : ∀ {ds : List Char} {s : NumberScan},
    s.phase = .fraction → (∀ c ∈ ds, c.isDigit = true) →
    ofDigitChars 10 ds s.significand < 2 ^ 64 →
    s.feed? (ds ++ more) = feed?
      { s with
        significand := ofDigitChars 10 ds s.significand, exponent := s.exponent - ds.length } more
  | [], s, _, _, _ => by simp
  | c :: ds, s, hphase, hdigits, hfit => by
    obtain ⟨hc, hds⟩ := List.forall_mem_cons.mp hdigits
    rw [Nat.ofDigitChars_cons] at hfit ⊢
    have hpush := push?_eq (s := s) (Nat.lt_of_le_of_lt (le_ofDigitChars ds _) hfit)
    have hstep : s.step c = .more
        { s with
          significand := 10 * s.significand + digitValue c, exponent := s.exponent - 1 } := by
      simp only [step, hphase, hc, hpush, if_true]
    rw [List.cons_append, feed?_cons hstep, feed?_fraction more (by exact hphase) hds hfit,
      List.length_cons]
    congr 2
    push_cast
    omega

/-- The point and the digits after it. -/
theorem feed?_point (more : List Char) {ds : List Char} {s : NumberScan} (hne : ds ≠ [])
    (hphase : s.phase = .zero ∨ s.phase = .whole) (hdigits : ∀ d ∈ ds, d.isDigit = true)
    (hfit : ofDigitChars 10 ds s.significand < 2 ^ 64) :
    s.feed? ('.' :: (ds ++ more)) = feed?
      { s with
        phase := .fraction
        significand := ofDigitChars 10 ds s.significand
        exponent := s.exponent - ds.length } more := by
  obtain ⟨c, ds, rfl⟩ := List.exists_cons_of_ne_nil hne
  obtain ⟨hc, hds⟩ := List.forall_mem_cons.mp hdigits
  have hpoint : s.step '.' = .more { s with phase := .point } := by
    rcases hphase with hphase | hphase <;> simp [step, hphase, afterWhole]
  rw [Nat.ofDigitChars_cons] at hfit ⊢
  have hpush := push?_eq (s := { s with phase := .point })
    (Nat.lt_of_le_of_lt (le_ofDigitChars ds _) hfit)
  have hstep : step { s with phase := .point } c = .more
      { s with
        phase := .fraction
        significand := 10 * s.significand + digitValue c
        exponent := s.exponent - 1 } := by
    simp only [step, hc, hpush, if_true]
  rw [List.cons_append, feed?_cons hpoint, feed?_cons hstep, feed?_fraction more rfl hds hfit,
    List.length_cons]
  congr 2
  push_cast
  omega

/-- The digits of an exponent below `2 ^ 31`. -/
theorem feed?_power : ∀ {c : Char} {ds : List Char} {s : NumberScan},
    (s.phase = .markSign ∨ s.phase = .power) → (∀ d ∈ c :: ds, d.isDigit = true) →
    ofDigitChars 10 (c :: ds) s.power < 2 ^ 31 →
    s.feed? (c :: ds) = some { s with phase := .power, power := ofDigitChars 10 (c :: ds) s.power }
  | c, ds, s, hphase, hdigits, hfit => by
    obtain ⟨hc, hds⟩ := List.forall_mem_cons.mp hdigits
    rw [Nat.ofDigitChars_cons] at hfit ⊢
    have hstep : s.step c =
        .more { s with phase := .power, power := 10 * s.power + digitValue c } := by
      have hpush : s.pushPower c =
          .more { s with phase := .power, power := 10 * s.power + digitValue c } :=
        if_pos (Nat.lt_of_le_of_lt (le_ofDigitChars ds _) hfit)
      rcases hphase with hphase | hphase <;> simp only [step, hphase, hc, hpush, if_true]
    rw [feed?_cons hstep]
    cases ds with
    | nil => rw [Nat.ofDigitChars_nil, feed?, digitValue]
    | cons d ds => exact feed?_power (.inr rfl) hds hfit

/-- An exponent with its mark and sign. -/
def exponentChars (e : Int) : List Char :=
  'e' :: (if e < 0 then ['-'] else ['+']) ++ toDigits 10 e.natAbs

theorem feed?_exponent {s : NumberScan} (hphase : s.phase = .whole ∨ s.phase = .fraction)
    (hnone : s.powerNegative = false ∧ s.power = 0) {e : Int} (he : e.natAbs < 2 ^ 31) :
    s.feed? (exponentChars e) = some
      { s with phase := .power, powerNegative := decide (e < 0), power := e.natAbs } := by
  have hmark : s.step 'e' = .more { s with phase := .mark } := by
    rcases hphase with hphase | hphase <;> simp [step, hphase, afterWhole, afterFraction]
  have hsign : ∃ c, (if e < 0 then ['-'] else ['+']) = [c] ∧ step { s with phase := .mark } c =
      .more { s with phase := .markSign, powerNegative := decide (e < 0) } := by
    by_cases hneg : e < 0
    · exact ⟨'-', by rw [if_pos hneg], by simp [step, hneg]⟩
    · exact ⟨'+', by rw [if_neg hneg], by simp [step, hneg, hnone.1]⟩
  obtain ⟨sign, htext, hstep⟩ := hsign
  have hvalue : ofDigitChars 10 (toDigits 10 e.natAbs) 0 = e.natAbs := Nat.ofDigitChars_ten_toDigits
  have hdigits : ∀ c ∈ toDigits 10 e.natAbs, c.isDigit = true := fun c hc =>
    Nat.isDigit_of_mem_toDigits (by decide) (by decide) hc
  have hne : toDigits 10 e.natAbs ≠ [] := Nat.toDigits_ne_nil
  obtain ⟨c, ds, htext'⟩ := List.exists_cons_of_ne_nil hne
  rw [exponentChars, htext, List.cons_append, feed?_cons hmark, List.cons_append, List.nil_append,
    feed?_cons hstep]
  rw [htext'] at hvalue hdigits ⊢
  rw [feed?_power (.inl rfl) hdigits (by rw [hnone.2, hvalue]; exact he), hnone.2, hvalue]

/-! ### The first digit -/

/-- The scan after the first digit, behind a minus sign or without one. -/
def ofDigit (negative : Bool) (c : Char) : NumberScan :=
  if c = '0' then { phase := .zero, negative := negative }
  else { phase := .whole, negative := negative, significand := digitValue c }

/-- The scan of a number without its sign. -/
def ofUnsigned? (negative : Bool) : List Char → Option NumberScan
  | [] => none
  | c :: cs => if c.isDigit then (ofDigit negative c).feed? cs else none

theorem ofChars?_signed {negative : Bool} {text : List Char} {s : NumberScan}
    (h : ofUnsigned? negative text = some s) :
    ofChars? (if negative then '-' :: text else text) = some s := by
  cases text with
  | nil => contradiction
  | cons c cs =>
    rw [ofUnsigned?] at h
    split_ifs at h with hc
    cases negative with
    | false =>
      have hminus : c ≠ '-' := by
        rintro rfl
        contradiction
      have hstart : start c = some (ofDigit false c) := by
        simp only [start, ofDigit, if_neg hminus, hc, if_true]
        split_ifs <;> rfl
      exact (congrArg (Option.bind · (feed? · cs)) hstart).trans h
    | true =>
      have hstep : step { phase := .sign, negative := true } c = .more (ofDigit true c) := by
        simp only [step, hc, if_true, ofDigit]
        split_ifs <;> rfl
      exact (feed?_cons hstep cs).trans h

/-- The scan after the digits of a whole number. -/
def ofWhole (negative : Bool) (n : Nat) : NumberScan :=
  { phase := if n = 0 then .zero else .whole, negative := negative, significand := n }

theorem digitValue_pos {c : Char} (hc : c.isDigit = true) (hzero : c ≠ '0') : 0 < digitValue c := by
  have hge : '0'.toNat ≤ c.toNat := by
    simp only [Char.isDigit, Bool.and_eq_true, decide_eq_true_eq] at hc
    exact hc.1
  have hne : c.toNat ≠ '0'.toNat := fun h => hzero (Char.toNat_inj.mp h)
  rw [digitValue]
  omega

/-- Digits of which the first is not zero. -/
def Leading (ds : List Char) : Prop :=
  (∀ d ∈ ds, d.isDigit = true) ∧ ∃ c cs, ds = c :: cs ∧ c ≠ '0'

theorem ofUnsigned?_leading (negative : Bool) (more : List Char) {ds : List Char}
    (h : Leading ds) {n : Nat} (hn : ofDigitChars 10 ds 0 = n) (hfit : n < 2 ^ 64) :
    ofUnsigned? negative (ds ++ more) = (ofWhole negative n).feed? more := by
  obtain ⟨hdigits, c, cs, rfl, hzero⟩ := h
  obtain ⟨hc, hcs⟩ := List.forall_mem_cons.mp hdigits
  rw [Nat.ofDigitChars_cons, Nat.mul_zero, Nat.zero_add, ← digitValue] at hn
  have hpos : n ≠ 0 := by
    have := le_ofDigitChars cs (digitValue c)
    have := digitValue_pos hc hzero
    omega
  rw [List.cons_append, ofUnsigned?, if_pos hc, ofDigit, if_neg hzero,
    feed?_whole more rfl hcs (by rwa [hn]), hn, ofWhole, if_neg hpos]

theorem isDigit_toDigits (n : Nat) : ∀ c ∈ toDigits 10 n, c.isDigit = true := fun _ hc =>
  Nat.isDigit_of_mem_toDigits (by decide) (by decide) hc

theorem isDigit_zeros (k : Nat) : ∀ c ∈ List.replicate k '0', c.isDigit = true := by
  intro c hc
  rw [List.eq_of_mem_replicate hc]
  decide

theorem leading_toDigits : ∀ {n : Nat}, n ≠ 0 → Leading (toDigits 10 n)
  | n, hn => by
    refine ⟨isDigit_toDigits n, ?_⟩
    rcases Nat.lt_or_ge n 10 with hsmall | hlarge
    · have hdigit : ∀ k < 10, k ≠ 0 → k.digitChar ≠ '0' := by decide
      exact ⟨_, [], Nat.toDigits_of_lt_base hsmall, hdigit n hsmall hn⟩
    · obtain ⟨-, c, cs, hcs, hc⟩ := leading_toDigits (n := n / 10) (by omega)
      refine ⟨c, cs ++ [(n % 10).digitChar], ?_, hc⟩
      rw [Nat.toDigits_of_base_le (by decide) hlarge, hcs, List.cons_append]

theorem ofUnsigned?_toDigits (negative : Bool) (more : List Char) {n : Nat} (h : n < 2 ^ 64) :
    ofUnsigned? negative (toDigits 10 n ++ more) = (ofWhole negative n).feed? more := by
  by_cases hn : n = 0
  · subst hn
    rfl
  · exact ofUnsigned?_leading negative more (leading_toDigits hn) Nat.ofDigitChars_ten_toDigits h

/-! ### The text of a decimal -/

/-- The power of ten by which the significand is multiplied. -/
def scale (s : NumberScan) : Int :=
  if s.powerNegative then s.exponent - s.power else s.exponent + s.power

/-- The scan has all of a number with point or exponent: the digits and the exponent of the
decimal, or else, with zeros up to the point, a quotient that fits. -/
def Holds (s : NumberScan) (d : Decimal) : Prop :=
  (s.phase = .fraction ∨ s.phase = .power) ∧
    (s.significand = d.digits ∧ s.scale = d.exponent ∨ s.significand < 2 ^ 64 ∧ s.scale < 0)

theorem leadingExponent_eq {d : Decimal} (hne : d.digits ≠ 0) :
    d.leadingExponent = d.exponent + (toDigits 10 d.digits).length - 1 := by
  rw [Decimal.leadingExponent, Decimal.digitCount, if_neg hne]

/-- The digits after the point, and what follows them. -/
theorem ofWhole_point (negative : Bool) (more : List Char) {m n : Nat} (ds : List Char)
    (hne : ds ≠ []) (hdigits : ∀ d ∈ ds, d.isDigit = true) (hn : ofDigitChars 10 ds m = n)
    (hfit : n < 2 ^ 64) : (ofWhole negative m).feed? ('.' :: (ds ++ more)) =
      feed? { phase := .fraction, negative := negative, significand := n, exponent := -ds.length }
        more := by
  have hphase : (ofWhole negative m).phase = .zero ∨ (ofWhole negative m).phase = .whole := by
    simp only [ofWhole]
    split_ifs <;> simp
  rw [feed?_point more hne hphase hdigits (by rwa [ofWhole, hn])]
  simp only [ofWhole, hn, Int.zero_sub]

/-- A number below one: a zero, the point, and more zeros before the digits. -/
theorem exists_small (negative : Bool) {d : Decimal} (hne : d.digits ≠ 0)
    (hfit : d.digits < 2 ^ 64) (he : d.leadingExponent < 0) :
    ∃ s, ofUnsigned? negative (['0', '.'] ++
      List.replicate (-d.leadingExponent - 1).toNat '0' ++ toDigits 10 d.digits) = some s ∧
      s.Holds d := by
  have hlead := leadingExponent_eq hne
  generalize hzeros : (-d.leadingExponent - 1).toNat = zeros
  have hdigits := List.forall_mem_append.mpr ⟨isDigit_zeros zeros, isDigit_toDigits d.digits⟩
  have hvalue : ofDigitChars 10 (List.replicate zeros '0' ++ toDigits 10 d.digits) 0 =
      d.digits := by
    rw [Nat.ofDigitChars_append, Nat.ofDigitChars_replicate_zero, Nat.mul_zero]
    exact Nat.ofDigitChars_ten_toDigits
  have hread := ofWhole_point negative [] (m := 0) _
    (List.append_ne_nil_of_right_ne_nil _ Nat.toDigits_ne_nil) hdigits hvalue hfit
  rw [List.append_nil] at hread
  refine ⟨_, hread, .inl rfl, .inl ⟨rfl, ?_⟩⟩
  simp only [scale, List.length_append, List.length_replicate]
  push_cast
  omega

/-- A whole number: its digits, zeros up to the point, and one zero after it. -/
theorem exists_whole (negative : Bool) {d : Decimal} (hne : d.digits ≠ 0) {zeros : Nat}
    (hfit : d.digits * 10 ^ zeros < 10 ^ 16) :
    ∃ s, ofUnsigned? negative (toDigits 10 d.digits ++ List.replicate zeros '0' ++ ['.', '0']) =
      some s ∧ s.Holds d := by
  have hvalue : ofDigitChars 10 (toDigits 10 d.digits ++ List.replicate zeros '0') 0 =
      d.digits * 10 ^ zeros := by
    rw [Nat.ofDigitChars_append, Nat.ofDigitChars_replicate_zero, Nat.ofDigitChars_ten_toDigits,
      Nat.mul_comm]
  have hleading : Leading (toDigits 10 d.digits ++ List.replicate zeros '0') := by
    obtain ⟨hdigits, c, cs, hcs, hc⟩ := leading_toDigits hne
    exact ⟨List.forall_mem_append.mpr ⟨hdigits, isDigit_zeros zeros⟩, c, _,
      by rw [hcs, List.cons_append], hc⟩
  have hpoint := ofWhole_point negative [] (m := d.digits * 10 ^ zeros)
    (n := 10 * (d.digits * 10 ^ zeros)) ['0'] (by simp) (by simp) rfl (by omega)
  have hread := ofUnsigned?_leading negative ['.', '0'] hleading hvalue (by omega)
  refine ⟨_, hread.trans hpoint, .inl rfl, .inr ⟨?_, by simp [scale]⟩⟩
  show 10 * (d.digits * 10 ^ zeros) < 2 ^ 64
  omega

/-- The point stands between two digits. -/
theorem exists_split (negative : Bool) {d : Decimal} (hne : d.digits ≠ 0)
    (hfit : d.digits < 2 ^ 64) {n : Nat} (hn : n + 1 < (toDigits 10 d.digits).length)
    (he : d.leadingExponent = n) :
    ∃ s, ofUnsigned? negative ((toDigits 10 d.digits).take (n + 1) ++
      '.' :: (toDigits 10 d.digits).drop (n + 1)) = some s ∧ s.Holds d := by
  have hlead := leadingExponent_eq hne
  have hdigits := isDigit_toDigits d.digits
  have hvalue := Nat.ofDigitChars_ten_toDigits (n := d.digits)
  obtain ⟨-, c, cs, hcs, hc⟩ := leading_toDigits hne
  have hleading : Leading ((toDigits 10 d.digits).take (n + 1)) :=
    ⟨fun c hc => hdigits c (List.mem_of_mem_take hc), c, cs.take n,
      by rw [hcs, List.take_succ_cons], hc⟩
  rw [← List.take_append_drop (n + 1) (toDigits 10 d.digits), Nat.ofDigitChars_append] at hvalue
  have hpoint := ofWhole_point negative [] ((toDigits 10 d.digits).drop (n + 1))
    (fun h => by have := List.drop_eq_nil_iff.mp h; omega)
    (fun c hc => hdigits c (List.mem_of_mem_drop hc)) hvalue hfit
  have hprefix : ofDigitChars 10 ((toDigits 10 d.digits).take (n + 1)) 0 ≤ d.digits := by
    have := le_ofDigitChars ((toDigits 10 d.digits).drop (n + 1))
      (ofDigitChars 10 ((toDigits 10 d.digits).take (n + 1)) 0)
    rwa [hvalue] at this
  have hread := ofUnsigned?_leading negative ('.' :: (toDigits 10 d.digits).drop (n + 1)) hleading
    rfl (Nat.lt_of_le_of_lt hprefix hfit)
  rw [List.append_nil] at hpoint
  refine ⟨_, hread.trans hpoint, .inl rfl, .inl ⟨rfl, ?_⟩⟩
  simp only [scale, List.length_drop]
  push_cast
  omega

theorem scale_mark (s : NumberScan) (e : Int) :
    scale { s with phase := .power, powerNegative := decide (e < 0), power := e.natAbs } =
      s.exponent + e := by
  simp only [scale, decide_eq_true_eq]
  split_ifs <;> omega

/-- One digit, a point and more digits if there are any, and the exponent. -/
theorem exists_scientific (negative : Bool) {d : Decimal} (hne : d.digits ≠ 0)
    (hfit : d.digits < 2 ^ 64) (habs : d.leadingExponent.natAbs < 2 ^ 31) :
    ∃ s, ofUnsigned? negative (Decimal.scientific numberLayout d d.leadingExponent) = some s ∧
      s.Holds d := by
  have hlead := leadingExponent_eq hne
  have hvalue := Nat.ofDigitChars_ten_toDigits (n := d.digits)
  obtain ⟨hdigits, c, cs, hcs, hc⟩ := leading_toDigits hne
  rw [hcs] at hlead hvalue hdigits
  cases cs with
  | nil =>
    have htext : Decimal.scientific numberLayout d d.leadingExponent =
        [c] ++ exponentChars d.leadingExponent := by
      simp only [Decimal.scientific, Decimal.digitChars, hcs, numberLayout, List.append_assoc,
        exponentChars]
    have hread := ofUnsigned?_leading negative (exponentChars d.leadingExponent)
      ⟨hdigits, c, [], rfl, hc⟩ hvalue hfit
    have hphase : (ofWhole negative d.digits).phase = .whole := if_neg hne
    rw [feed?_exponent (.inl hphase) ⟨rfl, rfl⟩ habs] at hread
    refine ⟨_, by rw [htext, hread], .inr rfl, .inl ⟨rfl, ?_⟩⟩
    rw [scale_mark]
    simp only [ofWhole, List.length_singleton] at hlead ⊢
    omega
  | cons c' cs =>
    have htext : Decimal.scientific numberLayout d d.leadingExponent =
        [c] ++ '.' :: (c' :: cs ++ exponentChars d.leadingExponent) := by
      simp only [Decimal.scientific, Decimal.digitChars, hcs, numberLayout, List.append_assoc,
        List.cons_append, List.nil_append, exponentChars]
    obtain ⟨hdigit, hrest⟩ := List.forall_mem_cons.mp hdigits
    rw [← List.singleton_append, Nat.ofDigitChars_append] at hvalue
    have hfirst : ofDigitChars 10 [c] 0 ≤ d.digits := by
      rw [← hvalue]
      exact le_ofDigitChars _ _
    have hpoint := ofWhole_point negative (exponentChars d.leadingExponent) (c' :: cs)
      (List.cons_ne_nil c' cs) hrest hvalue hfit
    rw [feed?_exponent (.inr rfl) ⟨rfl, rfl⟩ habs] at hpoint
    have hread := ofUnsigned?_leading negative
      ('.' :: (c' :: cs ++ exponentChars d.leadingExponent))
      ⟨List.forall_mem_singleton.mpr hdigit, c, [], rfl, hc⟩ rfl (Nat.lt_of_le_of_lt hfirst hfit)
    refine ⟨_, by rw [htext, hread, hpoint], .inr rfl, .inl ⟨rfl, ?_⟩⟩
    rw [scale_mark]
    simp only [List.length_cons] at hlead ⊢
    push_cast at hlead ⊢
    omega

/-- The text of a decimal without its sign. A decimal with up to eighteen digits and a small
exponent is held as it is. -/
theorem exists_write (negative : Bool) {d : Decimal} (hfit : d.digits ≤ 10 ^ 17)
    (hexp : d.digits ≠ 0 → -340 ≤ d.exponent ∧ d.exponent < 309) :
    ∃ s, ofUnsigned? negative (numberLayout.write d) = some s ∧ s.Holds d := by
  have hsmall : d.digits < 2 ^ 64 := by omega
  by_cases hzero : d.digits = 0
  · have htext : numberLayout.write d = ['0', '.', '0'] := by
      simp [Decimal.Layout.write, Decimal.positional, numberLayout, Decimal.digitChars, hzero]
    have hpoint := ofWhole_point negative [] (m := 0) (n := 0) ['0'] (by simp) (by simp) rfl
      (by decide)
    rw [htext]
    exact ⟨_, hpoint, .inl rfl, .inr ⟨Nat.two_pow_pos 64, by simp [scale]⟩⟩
  · obtain ⟨hlow, hhigh⟩ := hexp hzero
    have hlead := leadingExponent_eq hzero
    have hlength : (toDigits 10 d.digits).length ≤ 18 :=
      (Nat.length_toDigits_le_iff (by decide) (by decide)).mpr (by omega)
    have hfull : d.digits < 10 ^ (toDigits 10 d.digits).length :=
      (Nat.length_toDigits_le_iff (by decide) Nat.length_toDigits_pos).mp le_rfl
    rw [Decimal.Layout.write, if_neg hzero]
    split_ifs with hposition
    · have hmost : d.leadingExponent ≤ 15 := hposition.2
      simp only [Decimal.positional]
      rcases Int.lt_or_le d.leadingExponent 0 with hneg | hpos
      · rw [if_pos hneg]
        exact exists_small negative hzero hsmall hneg
      rw [if_neg (Int.not_lt.mpr hpos)]
      by_cases hwhole : d.digitChars.length ≤ d.leadingExponent.toNat + 1
      · rw [if_pos hwhole]
        refine exists_whole negative hzero ?_
        calc d.digits * 10 ^ (d.leadingExponent.toNat + 1 - (toDigits 10 d.digits).length)
            < 10 ^ (toDigits 10 d.digits).length *
                10 ^ (d.leadingExponent.toNat + 1 - (toDigits 10 d.digits).length) :=
              Nat.mul_lt_mul_of_pos_right hfull (Nat.pow_pos (by decide))
          _ = 10 ^ (d.leadingExponent.toNat + 1) := by
              rw [← Nat.pow_add]
              exact congrArg (10 ^ ·) (Nat.add_sub_cancel' hwhole)
          _ ≤ 10 ^ 16 := Nat.pow_le_pow_right (by decide) (by omega)
      · rw [if_neg hwhole]
        exact exists_split negative hzero hsmall (Nat.lt_of_not_le hwhole) (by omega)
    · exact exists_scientific negative hzero hsmall (by omega)

/-! ### The end of a number -/

/-- The characters that cannot go on a number. -/
def Ends (c : Char) : Prop := c.isDigit = false ∧ c ≠ '.' ∧ c ≠ 'e' ∧ c ≠ 'E'

instance : DecidablePred Ends := fun _ => inferInstanceAs (Decidable (_ ∧ _))

/-- A number that could end is ended by such a character. -/
theorem step_of_ends {s : NumberScan} {n : Number} (h : s.value = .ok n) {c : Char} (hc : Ends c) :
    s.step c = .stop := by
  obtain ⟨hdigit, hpoint, hmark, hmark'⟩ := hc
  unfold value at h
  split at h <;> simp_all [step, afterWhole, afterFraction]

end NumberScan

namespace Number

open NumberScan

theorem value_ofWhole (negative : Bool) (n : Nat) :
    (ofWhole negative n).value = .ok (ofWhole negative n).whole := by
  by_cases hn : n = 0 <;> simp [value, ofWhole, hn]

/-- A whole number in range is read as itself. -/
theorem ofChars?_int {i : Int} (h : (Number.int i).InRange) :
    ∃ s, ofChars? (Number.int i).chars = some s ∧ s.value = .ok (.int i) := by
  obtain ⟨hlow, hhigh⟩ := h
  cases i with
  | ofNat n =>
    have hfit : n < 2 ^ 64 := Int.ofNat_lt.mp hhigh
    have hread := ofUnsigned?_toDigits false [] hfit
    rw [List.append_nil] at hread
    exact ⟨_, ofChars?_signed hread, value_ofWhole false n⟩
  | negSucc n =>
    have hfit : n + 1 ≤ 9223372036854775808 := by omega
    have hread := ofUnsigned?_toDigits true [] (n := n + 1) (by omega)
    rw [List.append_nil] at hread
    refine ⟨_, ofChars?_signed hread, ?_⟩
    have hwhole : (ofWhole true (n + 1)).whole = .int (-((n + 1 : Nat) : Int)) := by
      simp [NumberScan.whole, ofWhole]
      omega
    rw [value_ofWhole, hwhole]
    rfl

theorem value_of_scaled {s : NumberScan} (hphase : s.phase = .fraction ∨ s.phase = .power)
    {x : Double} (hx : scaled s.significand s.scale = some x) :
    s.value = .ok (.float (if s.negative then x.neg else x)) := by
  have hfloat : s.float = .ok (.float (if s.negative then x.neg else x)) := by
    simp only [NumberScan.float]
    rw [scale] at hx
    rw [hx]
  rcases hphase with hphase | hphase <;> simp only [value, hphase, hfloat]

/-- A finite double is read as a finite double. -/
theorem ofChars?_float {d : Double} (h : d.isFinite = true) :
    ∃ s x, ofChars? (Number.float d).chars = some s ∧ s.value = .ok (.float x) ∧
      x.isFinite = true := by
  have hexp : d.shortest.digits ≠ 0 → -340 ≤ d.shortest.exponent ∧ d.shortest.exponent < 309 :=
    fun hne => ⟨d.exponent_shortest_ge, exponent_shortest_le h hne⟩
  obtain ⟨s, hread, hphase, hholds⟩ := exists_write d.isNegative d.digits_shortest_le hexp
  have hscaled : ∃ x, scaled s.significand s.scale = some x ∧ x.isFinite = true := by
    rcases hholds with ⟨hdigits, hscale⟩ | ⟨hfit, hneg⟩
    · rw [hdigits, hscale]
      exact exists_scaled_shortest h
    · exact exists_scaled_of_neg hfit hneg
  obtain ⟨x, hx, hfinite⟩ := hscaled
  refine ⟨s, _, ofChars?_signed hread, value_of_scaled hphase hx, ?_⟩
  split_ifs
  · rwa [Double.isFinite_iff, Double.unsigned_neg, ← Double.isFinite_iff]
  · exact hfinite

/-- The number that the text of a number is read as. -/
def reread (n : Number) : Number :=
  match (ofChars? n.chars).map value with
  | some (.ok m) => m
  | _ => n

theorem reread_eq {n m : Number} {s : NumberScan} (hs : ofChars? n.chars = some s)
    (hm : s.value = .ok m) : n.reread = m := by
  rw [reread, hs, Option.map_some, hm]

/-- The text of a number is read to its end. -/
theorem ofChars?_chars {n : Number} (h : n.InRange) :
    ∃ s, ofChars? n.chars = some s ∧ s.value = .ok n.reread := by
  cases n with
  | int i =>
    obtain ⟨s, hs, hvalue⟩ := ofChars?_int h
    exact ⟨s, hs, by rw [reread_eq hs hvalue, hvalue]⟩
  | float d =>
    obtain ⟨s, x, hs, hvalue, -⟩ := ofChars?_float h
    exact ⟨s, hs, by rw [reread_eq hs hvalue, hvalue]⟩

theorem reread_int {i : Int} (h : (Number.int i).InRange) : (Number.int i).reread = .int i := by
  obtain ⟨s, hs, hvalue⟩ := ofChars?_int h
  exact reread_eq hs hvalue

theorem reread_inRange {n : Number} (h : n.InRange) : n.reread.InRange := by
  cases n with
  | int i => rwa [reread_int h]
  | float d =>
    obtain ⟨s, x, hs, hvalue, hfinite⟩ := ofChars?_float h
    rw [reread_eq hs hvalue]
    exact hfinite

end Number
end Json
end Stepwise
