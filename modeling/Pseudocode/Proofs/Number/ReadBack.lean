-- The decimal number chosen for a magnitude is read back as that magnitude.
import Pseudocode.Proofs.Number.Rounding

namespace Pseudocode

namespace Decimal

/-! ## Zeros at the end -/

/-- A zero at the end makes the digits one wider. -/
theorem width_mul_ten {n : Nat} (h : n ≠ 0) : width (10 * n) = width n + 1 := by
  have ha := Nat.toDigits_append_toDigits (b := 10) (d := 0) (by decide) (Nat.pos_of_ne_zero h)
    (by decide)
  unfold width digitsOf
  rw [← Nat.add_zero (10 * n), ← ha, List.length_append]
  rfl

theorem width_le_iff {n k : Nat} (hk : 0 < k) : width n ≤ k ↔ n < powerOfTen k :=
  Nat.length_toDigits_le_iff (by decide) hk

theorem powerOfTen_succ (n : Nat) : powerOfTen (n + 1) = 10 * powerOfTen n := by
  have hs : powerOfTen (n + 1) = powerOfTen n * 10 := rfl
  rw [hs, Nat.mul_comm]

theorem powerOfTen_pos (n : Nat) : 0 < powerOfTen n := Nat.pow_pos (by decide)

end Decimal

namespace Binary64

open Decimal

/-! ## Powers in full -/

theorem units_infinityRank_le : units infinityRank ≤ 10 * powerOfTen 400 * unitsPerOne :=
  Nat.le_of_ble_eq_true (by decide +kernel)

theorem powerOfTen_unitsPerOne : powerOfTen 1074 = Nat.pow 5 1074 * unitsPerOne :=
  Nat.eq_of_beq_eq_true (by decide +kernel)

theorem powerOfTen_le_powerOfFive : powerOfTen 674 ≤ Nat.pow 5 1074 :=
  Nat.le_of_ble_eq_true (by decide +kernel)

/-! ## Zeros at the end do not matter -/

section Scale

variable {n : Nat} {e : Int}

theorem nearestRank_mul_ten (n scale : Nat) (e : Int) :
    nearestRank (10 * n * powerOfTen e.toNat * scale) (powerOfTen (-e).toNat) =
      nearestRank (n * powerOfTen (e + 1).toNat * scale) (powerOfTen (-(e + 1)).toNat) := by
  by_cases hneg : 0 ≤ e
  · have hsucc : (e + 1).toNat = e.toNat + 1 := by omega
    have hzero : (-e).toNat = (-(e + 1)).toNat := by omega
    rw [hsucc, hzero, powerOfTen_succ, Nat.mul_left_comm n, Nat.mul_assoc 10 n]
  · have hsucc : (-e).toNat = (-(e + 1)).toNat + 1 := by omega
    have hzero : e.toNat = (e + 1).toNat := by omega
    rw [hsucc, hzero, powerOfTen_succ, Nat.mul_assoc 10 n, Nat.mul_assoc 10]
    exact nearestRank_scale (by decide)

/-- Where the exponent is in range, a decimal number that is not too small has
the rank nearest to its value. -/
theorem rankOf_eq {d : Decimal} (hd : d.digits ≠ 0) (he : d.exponent ≤ 400) :
    rankOf d = if width d.digits + d.exponent < -400 then 0
      else nearestRank (d.digits * powerOfTen d.exponent.toNat * unitsPerOne)
        (powerOfTen (-d.exponent).toNat) := by
  unfold rankOf
  rw [if_neg hd, if_neg (by omega)]

/-- A power of ten may be taken from the digits into the exponent. -/
theorem rankOf_mul_ten (hn : n ≠ 0) (he : e + 1 ≤ 400) :
    rankOf ⟨10 * n, e⟩ = rankOf ⟨n, e + 1⟩ := by
  have hten : 10 * n ≠ 0 := by omega
  rw [rankOf_eq hten (Int.le_trans (Int.le_add_one (Int.le_refl e)) he), rankOf_eq hn he]
  dsimp only
  have hwidth : (width (10 * n) : Int) + e = width n + (e + 1) := by
    rw [width_mul_ten hn]
    omega
  rw [hwidth, nearestRank_mul_ten]

theorem rankOf_mul_powerOfTen (hn : n ≠ 0) (k : Nat) (he : e + k ≤ 400) :
    rankOf ⟨n * powerOfTen k, e⟩ = rankOf ⟨n, e + k⟩ := by
  induction k generalizing e with
  | zero =>
    have hone : powerOfTen 0 = 1 := rfl
    rw [hone, Nat.mul_one, Int.natCast_zero, Int.add_zero]
  | succ k ih =>
    have hpos : n * powerOfTen k ≠ 0 :=
      Nat.ne_of_gt (Nat.mul_pos (Nat.pos_of_ne_zero hn) (powerOfTen_pos k))
    have hcast : e + ((k + 1 : Nat) : Int) = e + 1 + k := by omega
    rw [powerOfTen_succ, Nat.mul_left_comm, rankOf_mul_ten hpos (by omega), ih (by omega), hcast]

/-- What has a finite rank has an exponent that leaves room for one more. -/
theorem exponent_of_finite (hn : n ≠ 0) (h : rankOf ⟨10 * n, e⟩ < infinityRank) : e + 1 ≤ 400 := by
  have hten : 10 * n ≠ 0 := by omega
  by_cases hbig : 400 < e
  · unfold rankOf at h
    rw [if_neg hten, if_pos hbig] at h
    exact absurd h (Nat.lt_irrefl _)
  · by_cases hedge : e = 400
    · exfalso
      subst hedge
      rw [rankOf_eq hten (Int.le_refl 400), if_neg (by dsimp only; omega)] at h
      have hle : 10 * powerOfTen 400 * unitsPerOne ≤ 10 * n * powerOfTen 400 * unitsPerOne :=
        Nat.mul_le_mul_right _ (Nat.mul_le_mul_right _ (by omega))
      refine absurd h (Nat.not_lt.2 (infinityRank_le_nearestRank ?_))
      have hone : powerOfTen (-(400 : Int)).toNat = 1 := rfl
      rw [hone, Nat.mul_one]
      exact Nat.le_trans units_infinityRank_le hle
    · omega

/-- Zeros at the end of the digits do not matter. -/
theorem rankOf_trimmedBy (fuel : Nat) {d : Decimal} (h : rankOf d < infinityRank) :
    rankOf (trimmedBy fuel d) = rankOf d := by
  induction fuel generalizing d with
  | zero => rfl
  | succ fuel ih =>
    unfold trimmedBy
    split
    · rename_i hzero
      simp only [Bool.and_eq_true, decide_eq_true_eq] at hzero
      obtain ⟨hd, hmod⟩ := hzero
      have hdigits : d.digits = 10 * (d.digits / 10) := by omega
      have hn : d.digits / 10 ≠ 0 := by omega
      have hd' : d = ⟨10 * (d.digits / 10), d.exponent⟩ := by
        rw [← hdigits]
      have hstep : rankOf ⟨d.digits / 10, d.exponent + 1⟩ = rankOf d := by
        rw [hd'] at h
        rw [← rankOf_mul_ten hn (exponent_of_finite hn h), ← hdigits]
      rw [ih (by rwa [hstep]), hstep]
    · rfl

end Scale

section Chosen

variable {rank : Nat}

theorem units_pos (h : rank ≠ 0) : 0 < units rank :=
  Nat.lt_of_le_of_lt (Nat.zero_le (units 0)) (units_strictMono (Nat.pos_of_ne_zero h))

/-- Digits that come from a power of five are never too few. -/
theorem width_exact (h : rank ≠ 0) : 674 < width (exact rank).digits := by
  have hle : powerOfTen 674 ≤ (exact rank).digits :=
    Nat.le_trans powerOfTen_le_powerOfFive (Nat.le_mul_of_pos_left _ (units_pos h))
  by_cases hfew : width (exact rank).digits ≤ 674
  · exact absurd ((width_le_iff (by decide)).1 hfew) (Nat.not_lt.2 hle)
  · omega

/-- A magnitude that is written out in full is read back. -/
theorem rankOf_exact (hr : rank < infinityRank) : rankOf (exact rank) = rank := by
  by_cases hzero : rank = 0
  · have hunits : units rank = 0 := by rw [hzero, units_of_lt binade_pos]
    have hdigits : (exact rank).digits = 0 := Nat.mul_eq_zero.2 (.inl hunits)
    unfold rankOf
    rw [if_pos hdigits, hzero]
  · have hwide := width_exact hzero
    have hd : (exact rank).digits ≠ 0 := by
      intro hnone
      rw [hnone] at hwide
      exact absurd hwide (by decide)
    have he : (exact rank).exponent = -1074 := rfl
    have hdigits : (exact rank).digits = units rank * Nat.pow 5 1074 := rfl
    have hone : powerOfTen (-1074 : Int).toNat = 1 := rfl
    have hneg : (- -1074 : Int).toNat = 1074 := rfl
    rw [rankOf_eq hd (by omega), he, if_neg (by omega), hone, hneg, hdigits, Nat.mul_one,
      Nat.mul_assoc, ← powerOfTen_unitsPerOne]
    exact nearestRank_units (powerOfTen_pos 1074) hr

theorem rankOf_readBack? {count : Nat} {d : Decimal} (h : readBack? rank count = some d) :
    rankOf d = rank := by
  unfold readBack? at h
  simpa using List.find?_some h

theorem rankOf_shortestFrom (tries count : Nat) (hr : rank < infinityRank) :
    rankOf (shortestFrom rank tries count) = rank := by
  induction tries generalizing count with
  | zero =>
    rw [shortestFrom]
    exact rankOf_exact hr
  | succ tries ih =>
    rw [shortestFrom]
    cases hd : readBack? rank count with
    | some d => exact rankOf_readBack? hd
    | none => exact ih (count + 1)

/-- The shortest decimal number for a magnitude is read back as that magnitude. -/
theorem rankOf_shortest (hr : rank < infinityRank) : rankOf (shortest rank) = rank := by
  have hfrom := rankOf_shortestFrom 17 1 hr
  unfold shortest trimmed
  rw [rankOf_trimmedBy _ (by rwa [hfrom]), hfrom]

end Chosen

end Binary64

end Pseudocode
