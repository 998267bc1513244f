import Mathlib.Algebra.Order.Field.Basic
import Mathlib.Tactic.FieldSimp
import Mathlib.Tactic.Linarith
import Mathlib.Tactic.Positivity
import Mathlib.Tactic.Ring

/-!
# Polylines

Points at equal distances, joined by straight lines; before the first and
after the last the line is constant. It stays between the points
(`polyline_mem`), begins with the first one and ends with the last one.
-/

namespace Atomic

variable {K : Type} [Field K] [LinearOrder K]

def polyline (step : K) : List K → K → K
  | [], _ => 0
  | [y], _ => y
  | y :: z :: ys, x =>
    if x ≤ 0 then y
    else if x ≤ step then y + x / step * (z - y)
    else polyline step (z :: ys) (x - step)

variable {step x y z : K} {ys : List K}

theorem polyline_zero (hys : ys ≠ []) : polyline step ys 0 = ys.head hys := by
  match ys, hys with
  | [_], _ => rfl
  | _ :: _ :: _, _ => simp [polyline]

variable [IsStrictOrderedRing K]

theorem mean_between (h0 : 0 ≤ x) (h1 : x ≤ 1) :
    min y z ≤ y + x * (z - y) ∧ y + x * (z - y) ≤ max y z := by
  rcases le_total y z with h | h
  · rw [min_eq_left h, max_eq_right h]
    have hup : x * (z - y) ≤ 1 * (z - y) := mul_le_mul_of_nonneg_right h1 (by linarith)
    have hdown : 0 ≤ x * (z - y) := mul_nonneg h0 (by linarith)
    exact ⟨by linarith, by linarith⟩
  · rw [min_eq_right h, max_eq_left h]
    have hup : x * (y - z) ≤ 1 * (y - z) := mul_le_mul_of_nonneg_right h1 (by linarith)
    have hdown : 0 ≤ x * (y - z) := mul_nonneg h0 (by linarith)
    exact ⟨by linarith, by linarith⟩

/-- Two of the points have the line between them. -/
theorem polyline_mem (hstep : 0 < step) (hys : ys ≠ []) (x : K) :
    (∃ lo ∈ ys, lo ≤ polyline step ys x) ∧ ∃ hi ∈ ys, polyline step ys x ≤ hi := by
  induction ys generalizing x with
  | nil => exact absurd rfl hys
  | cons y ys ih =>
    cases ys with
    | nil => exact ⟨⟨y, by simp, le_rfl⟩, y, by simp, le_rfl⟩
    | cons z ys =>
      have hy : y ∈ y :: z :: ys := by simp
      have hz : z ∈ y :: z :: ys := by simp
      rw [polyline]
      split_ifs with h0 h1
      · exact ⟨⟨y, hy, le_rfl⟩, y, hy, le_rfl⟩
      · have hmean := mean_between (y := y) (z := z) (div_nonneg (not_le.mp h0).le hstep.le)
          ((div_le_one hstep).mpr h1)
        exact ⟨⟨_, min_rec' (· ∈ _) hy hz, hmean.1⟩, _, max_rec' (· ∈ _) hy hz, hmean.2⟩
      · obtain ⟨⟨lo, hlo, hle⟩, hi, hhi, hge⟩ := ih (by simp) (x - step)
        exact ⟨⟨lo, List.mem_cons_of_mem _ hlo, hle⟩, hi, List.mem_cons_of_mem _ hhi, hge⟩

theorem polyline_last (hstep : 0 < step) (hys : ys ≠ []) (h : step * (ys.length - 1) ≤ x) :
    polyline step ys x = ys.getLast hys := by
  induction ys generalizing x with
  | nil => exact absurd rfl hys
  | cons y ys ih =>
    cases ys with
    | nil => rfl
    | cons z ys =>
      simp only [List.length_cons, Nat.cast_add, Nat.cast_one] at h ih
      have hlen : (0 : K) ≤ ys.length := Nat.cast_nonneg _
      have hone : step ≤ x := le_trans (by nlinarith) h
      rw [polyline, if_neg (by linarith), List.getLast_cons (by simp)]
      split_ifs with h1
      · -- the end of the first line is the second point, which is the last
        obtain rfl : x = step := le_antisymm h1 hone
        have hnil : ys = [] := by
          by_contra hne
          have hpos : (1 : K) ≤ ys.length := by
            exact_mod_cast List.length_pos_iff.mpr hne
          nlinarith
        subst hnil
        simp [div_self hstep.ne']
      · refine ih (by simp) ?_
        linarith

end Atomic
