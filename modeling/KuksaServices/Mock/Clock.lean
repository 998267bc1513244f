import Mathlib.Algebra.BigOperators.Group.List.Basic
import Mathlib.Algebra.Order.BigOperators.Group.List
import Mathlib.Data.List.Induction
import Mathlib.Data.Rat.Floor
import Mathlib.Tactic.Linarith
import KuksaServices.Mock.Objects

/-!
# Clock triggers over time

A `ClockTrigger` is checked again and again after its `reset`. One that does
not recur activates when its interval is over. One that recurs should activate
once for every interval that has passed; but at an activation `check` adds
what it came late by to the next period instead of taking it off, so that the
trigger falls behind unless the checks come in a certain way (`Punctual`).
-/

namespace KuksaServices.Mock

variable {t : ClockTrigger} {deltas : List ℚ} {delta : ℚ}

-- ---------------------------------------------------------------------------
-- Sequences of checks
-- ---------------------------------------------------------------------------

def ClockTrigger.after (t : ClockTrigger) (deltas : List ℚ) : ClockTrigger :=
  deltas.foldl (fun t delta => (t.check delta).2) t

def ClockTrigger.activations : ClockTrigger → List ℚ → ℕ
  | _, [] => 0
  | t, delta :: deltas =>
    (if (t.check delta).1 then 1 else 0) + (t.check delta).2.activations deltas

structure KeepsTime (t : ClockTrigger) (deltas : List ℚ) : Prop where
  once : t.isRecurring = false → ∀ earlier delta later, deltas = earlier ++ delta :: later →
    (((t.reset.after earlier).check delta).1 = true ↔ t.intervalSec ≤ (earlier ++ [delta]).sum ∧
      ∀ checks, checks <+: earlier → checks ≠ [] → checks.sum < t.intervalSec)
  recurring : t.isRecurring = true → 0 < t.intervalSec → (∀ delta ∈ deltas, delta ≤ t.intervalSec) →
    ∀ checks, checks <+: deltas →
      (t.reset.activations checks : ℤ) = ⌊checks.sum / t.intervalSec⌋

/-- `phase` is the time since the last multiple of the interval and `late` how
much the trigger is behind. Whenever a multiple is passed it is passed by no
less than the trigger is behind; after an excess of `x` the trigger is behind
by `2 * x - late`. -/
def Punctual (interval : ℚ) : ℚ → ℚ → List ℚ → Prop
  | _, _, [] => True
  | phase, late, delta :: deltas =>
    if phase + delta < interval then Punctual interval (phase + delta) late deltas
    else late ≤ phase + delta - interval ∧
      Punctual interval (phase + delta - interval) (2 * (phase + delta - interval) - late) deltas

-- ---------------------------------------------------------------------------
-- A trigger that does not recur
-- ---------------------------------------------------------------------------

theorem ClockTrigger.after_snoc (t : ClockTrigger) (deltas : List ℚ) (delta : ℚ) :
    t.after (deltas ++ [delta]) = ((t.after deltas).check delta).2 := by
  simp [ClockTrigger.after]

theorem sum_le_of_initial {checks : List ℚ} (h : ∀ delta ∈ deltas, 0 ≤ delta)
    (hp : checks <+: deltas) : checks.sum ≤ deltas.sum :=
  hp.sublist.sum_le_sum h

/-- It is expired once the interval is over, and counts down until then. -/
theorem ClockTrigger.after_reset_once (ht : t.isRecurring = false) (h : ∀ delta ∈ deltas, 0 ≤ delta) :
    t.reset.after deltas = if deltas ≠ [] ∧ t.intervalSec ≤ deltas.sum then
        { t with timeLeft := 0, expired := true }
      else { t with timeLeft := t.intervalSec - deltas.sum, expired := false } := by
  induction deltas using List.reverseRecOn with
  | nil => simp [ClockTrigger.after, ClockTrigger.reset]
  | append_singleton earlier delta ih =>
    have hearlier := fun d hd => h d (List.mem_append_left _ hd)
    have hdelta : 0 ≤ delta := h delta (by simp)
    rw [ClockTrigger.after_snoc, ih hearlier, List.sum_append, List.sum_singleton]
    by_cases hover : earlier ≠ [] ∧ t.intervalSec ≤ earlier.sum
    · have hlater : t.intervalSec ≤ earlier.sum + delta := hover.2.trans (by linarith)
      simp [if_pos hover, ClockTrigger.check, hlater]
    · rw [if_neg hover]
      by_cases hnow : t.intervalSec ≤ earlier.sum + delta
      · have hleft : t.intervalSec - earlier.sum - delta ≤ 0 := by linarith
        simp [ClockTrigger.check, hleft, ht, hnow]
      · have hleft : ¬t.intervalSec - earlier.sum - delta ≤ 0 := by linarith
        simp [ClockTrigger.check, hleft, hnow]
        ring

theorem keepsTime_once (ht : t.isRecurring = false) (h : ∀ delta ∈ deltas, 0 ≤ delta)
    (hdeltas : deltas = earlier ++ delta :: later) :
    ((t.reset.after earlier).check delta).1 = true ↔ t.intervalSec ≤ (earlier ++ [delta]).sum ∧
      ∀ checks, checks <+: earlier → checks ≠ [] → checks.sum < t.intervalSec := by
  have hearlier : ∀ d ∈ earlier, 0 ≤ d := fun d hd => h d (by simp [hdeltas, hd])
  rw [ClockTrigger.after_reset_once ht hearlier, List.sum_append, List.sum_singleton]
  by_cases hover : earlier ≠ [] ∧ t.intervalSec ≤ earlier.sum
  · rw [if_pos hover]
    refine iff_of_false (by simp [ClockTrigger.check]) ?_
    rintro ⟨-, hfirst⟩
    exact absurd hover.2 (hfirst earlier (List.prefix_refl _) hover.1).not_ge
  · have hfirst : ∀ checks, checks <+: earlier → checks ≠ [] → checks.sum < t.intervalSec := by
      intro checks hp hne
      refine (sum_le_of_initial hearlier hp).trans_lt (not_le.mp fun hle => hover ⟨?_, hle⟩)
      rintro rfl
      exact hne (List.prefix_nil.mp hp)
    rw [if_neg hover]
    by_cases hleft : t.intervalSec - earlier.sum - delta ≤ 0
    · simp only [ClockTrigger.check, hleft, ht]
      exact iff_of_true (by simp) ⟨by linarith, hfirst⟩
    · simp only [ClockTrigger.check, hleft]
      refine iff_of_false (by simp) ?_
      rintro ⟨hle, -⟩
      exact hleft (by linarith)

-- ---------------------------------------------------------------------------
-- A trigger that recurs
-- ---------------------------------------------------------------------------

def ClockTrigger.behind (t : ClockTrigger) (phase late : ℚ) : ClockTrigger :=
  { t with timeLeft := t.intervalSec - phase + late, expired := false }

section
variable {phase late interval : ℚ}

theorem ClockTrigger.check_before (hlate : 0 ≤ late) (h : phase + delta < t.intervalSec) :
    (t.behind phase late).check delta = (false, t.behind (phase + delta) late) := by
  have hleft : ¬t.intervalSec - phase + late - delta ≤ 0 := by linarith
  simp only [ClockTrigger.behind, ClockTrigger.check, hleft, if_false, Bool.false_eq_true]
  congr 2
  ring

/-- What the check came late by is added to the next period. -/
theorem ClockTrigger.check_passed (ht : t.isRecurring = true)
    (h : late ≤ phase + delta - t.intervalSec) : (t.behind phase late).check delta =
      (true, t.behind (phase + delta - t.intervalSec)
        (2 * (phase + delta - t.intervalSec) - late)) := by
  have hleft : t.intervalSec - phase + late - delta ≤ 0 := by linarith
  simp only [ClockTrigger.behind, ClockTrigger.check, hleft, ht, if_true, if_false,
    Bool.false_eq_true]
  congr 2
  ring

theorem ClockTrigger.check_missed (h : ¬late ≤ phase + delta - t.intervalSec) :
    ((t.behind phase late).check delta).1 = false := by
  have hleft : ¬t.intervalSec - phase + late - delta ≤ 0 := by
    intro hle
    exact h (by linarith)
  simp [ClockTrigger.behind, ClockTrigger.check, hleft]

theorem forall_prefix_cons {P : List ℚ → Prop} :
    (∀ checks, checks <+: delta :: deltas → P checks) ↔
      P [] ∧ ∀ checks, checks <+: deltas → P (delta :: checks) := by
  constructor
  · intro h
    exact ⟨h [] List.nil_prefix, fun checks hp => h _ ((List.prefix_cons_inj _).mpr hp)⟩
  · rintro ⟨hnil, hcons⟩ checks hp
    cases checks with
    | nil => exact hnil
    | cons d rest =>
      obtain ⟨rfl, hrest⟩ := List.cons_prefix_cons.mp hp
      exact hcons rest hrest

theorem floor_phase (hphase : 0 ≤ phase) (hlt : phase < interval) : ⌊phase / interval⌋ = 0 := by
  have hpos : 0 < interval := hphase.trans_lt hlt
  rw [Int.floor_eq_zero_iff]
  exact ⟨div_nonneg hphase hpos.le, (div_lt_one hpos).mpr hlt⟩

theorem floor_passed (hpos : 0 < interval) (phase delta sum : ℚ) :
    ⌊(phase + (delta + sum)) / interval⌋ = ⌊(phase + delta - interval + sum) / interval⌋ + 1 := by
  rw [← Int.floor_add_one]
  congr 1
  field_simp
  ring

/-- The induction is on the checks, with the phase and the delay as they stand
after each. -/
theorem activations_iff (ht : t.isRecurring = true) (hphase : 0 ≤ phase)
    (hlt : phase < t.intervalSec) (hlate : 0 ≤ late)
    (h : ∀ delta ∈ deltas, 0 ≤ delta ∧ delta ≤ t.intervalSec) :
    (∀ checks, checks <+: deltas →
        ((t.behind phase late).activations checks : ℤ) = ⌊(phase + checks.sum) / t.intervalSec⌋) ↔
      Punctual t.intervalSec phase late deltas := by
  induction deltas generalizing phase late with
  | nil => simp [Punctual, ClockTrigger.activations, floor_phase hphase hlt]
  | cons delta deltas ih =>
    obtain ⟨hdelta, hle⟩ := h delta List.mem_cons_self
    have hrest := fun d hd => h d (List.mem_cons_of_mem _ hd)
    have hstart : ((t.behind phase late).activations [] : ℤ) =
        ⌊(phase + ([] : List ℚ).sum) / t.intervalSec⌋ := by
      simp [ClockTrigger.activations, floor_phase hphase hlt]
    rw [forall_prefix_cons, and_iff_right hstart, Punctual]
    simp only [ClockTrigger.activations, List.sum_cons]
    by_cases hbefore : phase + delta < t.intervalSec
    · rw [if_pos hbefore, ClockTrigger.check_before hlate hbefore]
      refine Iff.trans ?_ (ih (by linarith) hbefore hlate hrest)
      simp only [Bool.false_eq_true, if_false, zero_add, add_assoc]
    · rw [if_neg hbefore]
      have hexcess : 0 ≤ phase + delta - t.intervalSec := by linarith
      have hexcesslt : phase + delta - t.intervalSec < t.intervalSec := by linarith
      simp only [floor_passed (hphase.trans_lt hlt)]
      by_cases hlatele : late ≤ phase + delta - t.intervalSec
      · rw [and_iff_right hlatele, ClockTrigger.check_passed ht hlatele]
        refine Iff.trans ?_ (ih hexcess hexcesslt (by linarith) hrest)
        simp only [if_true, Nat.cast_add, Nat.cast_one, add_comm (1 : ℤ), add_left_inj]
      · -- the check that passes the multiple is not active
        refine iff_of_false (fun hall => ?_) fun hp => hlatele hp.1
        have hone := hall [] List.nil_prefix
        rw [ClockTrigger.check_missed hlatele] at hone
        simp [ClockTrigger.activations, floor_phase hexcess hexcesslt] at hone

end

/-- After `reset` time is kept, except that a recurring trigger does so just
when the checks are punctual. -/
theorem keeps_time_iff (t : ClockTrigger) (deltas : List ℚ) (h : ∀ delta ∈ deltas, 0 ≤ delta) :
    KeepsTime t deltas ↔ (t.isRecurring = true → 0 < t.intervalSec →
      (∀ delta ∈ deltas, delta ≤ t.intervalSec) → Punctual t.intervalSec 0 0 deltas) := by
  have hreset : t.reset = t.behind 0 0 := by
    simp [ClockTrigger.reset, ClockTrigger.behind]
  constructor
  · intro hkeeps ht hpos hle
    refine (activations_iff ht le_rfl hpos le_rfl fun d hd => ⟨h d hd, hle d hd⟩).mp ?_
    simpa only [zero_add, hreset] using hkeeps.recurring ht hpos hle
  · intro hp
    refine ⟨fun ht _ _ _ => keepsTime_once ht h, fun ht hpos hle => ?_⟩
    have hiff := activations_iff ht le_rfl hpos le_rfl fun d hd => ⟨h d hd, hle d hd⟩
    simpa only [zero_add, hreset] using hiff.mpr (hp ht hpos hle)

theorem keeps_time_uneven : (∀ delta ∈ [9 / 10, 2 / 10, 5 / 10, 6 / 10], (0 : ℚ) ≤ delta) ∧
    KeepsTime (.new 1 true) [9 / 10, 2 / 10, 5 / 10, 6 / 10] := by
  have h : ∀ delta ∈ [9 / 10, 2 / 10, 5 / 10, 6 / 10], (0 : ℚ) ≤ delta := by decide +kernel
  refine ⟨h, (keeps_time_iff _ _ h).mpr fun _ _ _ => ?_⟩
  norm_num [Punctual, ClockTrigger.new, ClockTrigger.reset]

/-- Three seconds in ticks of 0.6 s: the third activation of a trigger that
recurs every second is missing. -/
theorem recurring_falls_behind : (∀ delta ∈ List.replicate 5 (3 / 5 : ℚ), 0 ≤ delta ∧ delta ≤ 1) ∧
    ¬KeepsTime (.new 1 true) (List.replicate 5 (3 / 5)) := by
  refine ⟨by decide +kernel, fun h => ?_⟩
  have hcount := h.recurring rfl (by decide +kernel) (by decide +kernel) _ (List.prefix_refl _)
  revert hcount
  decide +kernel

end KuksaServices.Mock
