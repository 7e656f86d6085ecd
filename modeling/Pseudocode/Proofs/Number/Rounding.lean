-- Rounding finds the rank of every magnitude that it is given, and depends on
-- the value of a decimal number alone, not on how the number is scaled.
import Pseudocode.Number.Shortest

namespace Pseudocode

namespace Binary64

/-! ## Magnitudes grow with their ranks -/

theorem binade_pos : 0 < binade := by decide

theorem units_of_lt {rank : Nat} (h : rank < binade) : units rank = rank := if_pos h

theorem units_of_le {rank : Nat} (h : binade ≤ rank) :
    units rank = (binade + rank % binade) * Nat.pow 2 (rank / binade - 1) :=
  if_neg (Nat.not_lt.2 h)

/-- The magnitudes of a binade are evenly spaced, up to the first one of the next. -/
theorem units_binade (q : Nat) {m : Nat} (hm : m ≤ binade) :
    units (binade * (q + 1) + m) = (binade + m) * Nat.pow 2 q := by
  have hle : binade ≤ binade * (q + 1) + m :=
    Nat.le_trans (Nat.le_mul_of_pos_right binade (Nat.succ_pos q)) (Nat.le_add_right _ m)
  rw [units_of_le hle]
  rcases Nat.eq_or_lt_of_le hm with rfl | hlt
  · have hdiv : (binade * (q + 1) + binade) / binade = q + 2 := by
      rw [Nat.mul_add_div binade_pos, Nat.div_self binade_pos]
    have hmod : (binade * (q + 1) + binade) % binade = 0 := by
      rw [Nat.mul_add_mod, Nat.mod_self]
    have hpow : Nat.pow 2 (q + 2 - 1) = Nat.pow 2 q * 2 := rfl
    rw [hdiv, hmod, hpow, Nat.mul_comm (Nat.pow 2 q), ← Nat.mul_assoc, Nat.add_zero, Nat.mul_two]
  · have hdiv : (binade * (q + 1) + m) / binade = q + 1 := by
      rw [Nat.mul_add_div binade_pos, Nat.div_eq_of_lt hlt, Nat.add_zero]
    have hmod : (binade * (q + 1) + m) % binade = m := by
      rw [Nat.mul_add_mod, Nat.mod_eq_of_lt hlt]
    rw [hdiv, hmod, Nat.add_sub_cancel]

theorem units_lt_succ (rank : Nat) : units rank < units (rank + 1) := by
  by_cases hrank : rank < binade
  · rw [units_of_lt hrank]
    by_cases hnext : rank + 1 < binade
    · rw [units_of_lt hnext]
      exact Nat.lt_succ_self rank
    · have he : rank + 1 = binade * (0 + 1) + 0 := by omega
      have hone : Nat.pow 2 0 = 1 := rfl
      rw [he, units_binade 0 (Nat.zero_le _), hone]
      omega
  · obtain ⟨q, hq⟩ : ∃ q, rank / binade = q + 1 := by
      have hpos : 0 < rank / binade := Nat.div_pos (Nat.le_of_not_lt hrank) binade_pos
      exact ⟨rank / binade - 1, by omega⟩
    have hm : rank % binade < binade := Nat.mod_lt rank binade_pos
    have hsplit : binade * (q + 1) + rank % binade = rank := by
      rw [← hq]
      exact Nat.div_add_mod rank binade
    have hlow := units_binade q (Nat.le_of_lt hm)
    have hhigh := units_binade q (Nat.succ_le_of_lt hm)
    rw [hsplit] at hlow
    rw [Nat.add_succ, hsplit] at hhigh
    rw [hlow, hhigh]
    exact Nat.mul_lt_mul_of_pos_right (by omega) (Nat.pow_pos (by decide))

theorem units_strictMono {low high : Nat} (h : low < high) : units low < units high := by
  induction h with
  | refl => exact units_lt_succ low
  | step _ ih => exact Nat.lt_trans ih (units_lt_succ _)

theorem units_mono {low high : Nat} (h : low ≤ high) : units low ≤ units high := by
  rcases Nat.eq_or_lt_of_le h with rfl | hlt
  · exact Nat.le_refl _
  · exact Nat.le_of_lt (units_strictMono hlt)

/-! ## The search for a rank -/

section Search

variable {num den bits base rank : Nat}

theorem base_le_floorRank (num den bits base : Nat) : base ≤ floorRank num den bits base := by
  induction bits generalizing base with
  | zero => exact Nat.le_refl base
  | succ bits ih =>
    unfold floorRank
    dsimp only
    split
    · exact Nat.le_trans (Nat.le_add_right base _) (ih _)
    · exact ih base

/-- A rank with no more units is not passed over. -/
theorem le_floorRank (hlow : base ≤ rank) (hhigh : rank < base + Nat.pow 2 bits)
    (h : units rank * den ≤ num) : rank ≤ floorRank num den bits base := by
  induction bits generalizing base with
  | zero =>
    have hone : Nat.pow 2 0 = 1 := rfl
    unfold floorRank
    omega
  | succ bits ih =>
    have hpow : Nat.pow 2 (bits + 1) = Nat.pow 2 bits * 2 := rfl
    unfold floorRank
    dsimp only
    by_cases hnext : base + Nat.pow 2 bits ≤ rank
    · have htest : units (base + Nat.pow 2 bits) * den ≤ num :=
        Nat.le_trans (Nat.mul_le_mul_right den (units_mono hnext)) h
      rw [if_pos htest]
      exact ih hnext (by omega)
    · split
      · exact Nat.le_trans (by omega) (base_le_floorRank num den bits _)
      · exact ih hlow (by omega)

/-- The rank whose units are the last that are not too many is found. -/
theorem floorRank_eq (hlow : base ≤ rank) (hhigh : rank < base + Nat.pow 2 bits)
    (h : units rank * den ≤ num) (hnext : num < units (rank + 1) * den) :
    floorRank num den bits base = rank := by
  induction bits generalizing base with
  | zero =>
    have hone : Nat.pow 2 0 = 1 := rfl
    unfold floorRank
    omega
  | succ bits ih =>
    have hpow : Nat.pow 2 (bits + 1) = Nat.pow 2 bits * 2 := rfl
    unfold floorRank
    dsimp only
    by_cases hle : base + Nat.pow 2 bits ≤ rank
    · have htest : units (base + Nat.pow 2 bits) * den ≤ num :=
        Nat.le_trans (Nat.mul_le_mul_right den (units_mono hle)) h
      rw [if_pos htest]
      exact ih hle (by omega)
    · have htest : ¬ units (base + Nat.pow 2 bits) * den ≤ num := by
        have hmono : units (rank + 1) ≤ units (base + Nat.pow 2 bits) := units_mono (by omega)
        exact Nat.not_le.2 (Nat.lt_of_lt_of_le hnext (Nat.mul_le_mul_right den hmono))
      rw [if_neg htest]
      exact ih hlow (by omega)

theorem floorRank_scale {factor : Nat} (hf : 0 < factor) :
    floorRank (factor * num) (factor * den) bits base = floorRank num den bits base := by
  induction bits generalizing base with
  | zero => rfl
  | succ bits ih =>
    unfold floorRank
    dsimp only
    have hiff : units (base + Nat.pow 2 bits) * (factor * den) ≤ factor * num ↔
        units (base + Nat.pow 2 bits) * den ≤ num := by
      rw [Nat.mul_left_comm]
      exact Nat.mul_le_mul_left_iff hf
    simp only [hiff, ih]

end Search

/-! ## The nearest rank -/

section Nearest

variable {num den rank : Nat}

theorem infinityRank_lt : infinityRank < Nat.pow 2 63 := by decide

/-- The units of a rank are nearest to that rank. -/
theorem nearestRank_units (hd : 0 < den) (hr : rank < infinityRank) :
    nearestRank (units rank * den) den = rank := by
  have hlt : units rank * den < units (rank + 1) * den :=
    Nat.mul_lt_mul_of_pos_right (units_lt_succ rank) hd
  have hfloor : floorRank (units rank * den) den 63 0 = rank := by
    refine floorRank_eq (Nat.zero_le rank) ?_ (Nat.le_refl _) hlt
    rw [Nat.zero_add]
    exact Nat.lt_trans hr infinityRank_lt
  unfold nearestRank
  rw [hfloor]
  dsimp only
  refine if_pos ?_
  rw [Nat.add_mul]
  omega

theorem nearestRank_scale {factor : Nat} (hf : 0 < factor) :
    nearestRank (factor * num) (factor * den) = nearestRank num den := by
  unfold nearestRank
  rw [floorRank_scale hf]
  dsimp only
  have hnum : 2 * (factor * num) = factor * (2 * num) := Nat.mul_left_comm 2 factor num
  have hden : ∀ k, k * (factor * den) = factor * (k * den) := fun k => Nat.mul_left_comm k factor den
  simp only [hnum, hden, Nat.mul_lt_mul_left hf]

theorem floorRank_le_nearestRank (num den : Nat) : floorRank num den 63 0 ≤ nearestRank num den := by
  unfold nearestRank
  dsimp only
  repeat' split
  all_goals omega

/-- What is past the greatest finite magnitude is rounded to no finite rank. -/
theorem infinityRank_le_nearestRank (h : units infinityRank * den ≤ num) :
    infinityRank ≤ nearestRank num den := by
  have hlt : infinityRank < 0 + Nat.pow 2 63 := by
    rw [Nat.zero_add]
    exact infinityRank_lt
  exact Nat.le_trans (le_floorRank (Nat.zero_le _) hlt h) (floorRank_le_nearestRank num den)

end Nearest

end Binary64

end Pseudocode
