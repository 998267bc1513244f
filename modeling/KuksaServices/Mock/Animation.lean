import Mathlib.Data.NNRat.Defs
import Mathlib.Data.Rat.Floor
import KuksaServices.Atomic.Polyline
import KuksaServices.Atomic.Runs
import KuksaServices.Mock.Objects

/-!
# Animations over time

A `ValueAnimator` from its construction over any ticks. In mode ONCE it
follows the interpolation up to its end and is then done. In mode REPEAT a
tick takes the duration off at most once, so the animation keeps to the
elapsed time just as long as no tick passes two of its ends (`InOneTurn`).
-/

namespace KuksaServices.Mock

open Atomic (polyline run Along Throughout throughout_of_keeps throughout_iff_along)

-- ---------------------------------------------------------------------------
-- The interpolation
-- ---------------------------------------------------------------------------

/-- What the constructor of an animator asks for. -/
structure Animation where
  values : List ℚ
  duration : ℚ
  two : 2 ≤ values.length
  pos : 0 < duration

namespace Animation

variable (an : Animation)

theorem ne_nil : an.values ≠ [] := by
  have htwo := an.two
  rintro h
  simp [h] at htwo

def step : ℚ := an.duration / (an.values.length - 1)

def valueAt (t : ℚ) : ℚ := polyline an.step an.values t

theorem segments : (0 : ℚ) < an.values.length - 1 := by
  have htwo : (2 : ℚ) ≤ an.values.length := by exact_mod_cast an.two
  linarith

theorem step_pos : 0 < an.step := div_pos an.pos an.segments

theorem valueAt_zero : an.valueAt 0 = an.values.head an.ne_nil := Atomic.polyline_zero _

theorem valueAt_end : an.valueAt an.duration = an.values.getLast an.ne_nil := by
  refine Atomic.polyline_last an.step_pos _ (le_of_eq ?_)
  exact div_mul_cancel₀ _ an.segments.ne'

def Between (value : Value) : Prop :=
  ∃ q, value = .number q ∧ (∃ lo ∈ an.values, lo ≤ q) ∧ ∃ hi ∈ an.values, q ≤ hi

theorem valueAt_between (t : ℚ) : an.Between (.number (an.valueAt t)) :=
  ⟨_, rfl, Atomic.polyline_mem an.step_pos an.ne_nil t⟩

end Animation

/-- On lists of numbers the interpolation is piecewise linear. -/
def Interp1d.Linear (interp1d : Interp1d) : Prop :=
  ∀ an : Animation, interp1d (an.values.map .number) an.duration = some fun t => .number (an.valueAt t)

def Value.number? : Value → Option ℚ
  | .number q => some q
  | _ => Option.none

def linearInterp1d : Interp1d := fun values duration =>
  (values.mapM Value.number?).bind fun numbers =>
    if h : 2 ≤ numbers.length ∧ 0 < duration then
      some fun t => .number (Animation.valueAt ⟨numbers, duration, h.1, h.2⟩ t)
    else none

theorem linearInterp1d_linear : linearInterp1d.Linear := by
  intro an
  have hnumbers : (an.values.map Value.number).mapM Value.number? = some an.values := by
    induction an.values with
    | nil => rfl
    | cons q values ih => simp [List.mapM_cons, Value.number?, ih]
  simp only [linearInterp1d, hnumbers, Option.bind_some]
  rw [dif_pos ⟨an.two, an.pos⟩]

-- ---------------------------------------------------------------------------
-- Ticks
-- ---------------------------------------------------------------------------

/-- An animator, the values its callback was given and the time it was given. -/
structure Playback where
  animator : ValueAnimator
  calls : List Value
  elapsed : ℚ

def Playback.start (animator : ValueAnimator) : Playback := ⟨animator, [], 0⟩

variable (interp1d : Interp1d)

def Playback.tick (deltaTime : ℚ) (p : Playback) : Playback :=
  if p.animator.done then { p with elapsed := p.elapsed + deltaTime }
  else
    let animator := p.animator.tick interp1d deltaTime
    ⟨animator, p.calls ++ [animator.value], p.elapsed + deltaTime⟩

def playStep (p : Playback) (deltaTime : ℚ≥0) : Option Playback := some (p.tick interp1d deltaTime)

def Animation.animator (an : Animation) (mode : RepeatMode) (datapoint : Ref) : ValueAnimator where
  values := an.values.map .number
  duration := an.duration
  repeatMode := mode
  animTime := 0
  done := false
  value := .number (an.valueAt 0)
  datapoint := datapoint

variable {interp1d} {an : Animation} {mode : RepeatMode} {p : Playback} {deltaTime : ℚ≥0}

theorem Interp1d.Linear.new? (h : interp1d.Linear) (an : Animation) (mode : RepeatMode)
    (datapoint : Ref) : ValueAnimator.new? interp1d (an.values.map .number) an.duration mode datapoint =
      some (an.animator mode datapoint) := by
  have hhead : (an.values.map Value.number).head? = some (.number (an.valueAt 0)) := by
    rw [List.head?_map, List.head?_eq_some_head an.ne_nil, an.valueAt_zero]
    rfl
  simp [ValueAnimator.new?, h an, hhead, Animation.animator]

structure Shows (an : Animation) (mode : RepeatMode) (p : Playback) : Prop where
  values : p.animator.values = an.values.map .number
  duration : p.animator.duration = an.duration
  repeatMode : p.animator.repeatMode = mode
  nonneg : 0 ≤ p.animator.animTime
  value : p.animator.value = .number (an.valueAt p.animator.animTime)
  calls : ∀ value ∈ p.calls, an.Between value

theorem shows_start (an : Animation) (mode : RepeatMode) (datapoint : Ref) :
    Shows an mode (.start (an.animator mode datapoint)) :=
  ⟨rfl, rfl, rfl, le_rfl, rfl, by simp [Playback.start]⟩

theorem Playback.tick_done (h : p.animator.done = true) (deltaTime : ℚ) :
    p.tick interp1d deltaTime = { p with elapsed := p.elapsed + deltaTime } := by
  simp [Playback.tick, h]

theorem ValueAnimator.tick_eq (hlinear : interp1d.Linear) {a : ValueAnimator}
    (hvalues : a.values = an.values.map .number) (hduration : a.duration = an.duration)
    (deltaTime : ℚ) : a.tick interp1d deltaTime = { a with
      animTime := (a.advance deltaTime).1
      done := (a.advance deltaTime).2
      value := .number (an.valueAt (a.advance deltaTime).1) } := by
  simp [ValueAnimator.tick, hvalues, hduration, hlinear an]

theorem ValueAnimator.advance_nonneg {a : ValueAnimator} (h0 : 0 ≤ a.animTime) (hd : 0 ≤ a.duration)
    (deltaTime : ℚ≥0) : 0 ≤ (a.advance deltaTime).1 := by
  have hdelta : (0 : ℚ) ≤ deltaTime := deltaTime.2
  unfold ValueAnimator.advance
  simp only
  split_ifs with hover
  · cases a.repeatMode with
    | once => exact hd
    | repeats =>
      simp only
      linarith
  · simp only
    linarith

theorem Shows.tick (hlinear : interp1d.Linear) (h : Shows an mode p) (deltaTime : ℚ≥0) :
    Shows an mode (p.tick interp1d deltaTime) := by
  cases hdone : p.animator.done with
  | true =>
    rw [Playback.tick_done hdone]
    exact ⟨h.values, h.duration, h.repeatMode, h.nonneg, h.value, h.calls⟩
  | false =>
    have hd : 0 ≤ p.animator.duration := h.duration ▸ an.pos.le
    simp only [Playback.tick, hdone, Bool.false_eq_true, if_false,
      ValueAnimator.tick_eq hlinear h.values h.duration]
    refine ⟨h.values, h.duration, h.repeatMode, ValueAnimator.advance_nonneg h.nonneg hd _, rfl, ?_⟩
    intro value hvalue
    rcases List.mem_append.mp hvalue with hold | hnew
    · exact h.calls value hold
    · rw [List.mem_singleton.mp hnew]
      exact an.valueAt_between _

-- ---------------------------------------------------------------------------
-- Mode ONCE
-- ---------------------------------------------------------------------------

/-- Every value stays between those of the list, and in mode ONCE the
animation ends with the last of them. -/
structure PlaysOnce (interp1d : Interp1d) (an : Animation) (mode : RepeatMode) (p : Playback) :
    Prop where
  bounded : ∀ value ∈ p.calls, an.Between value
  value : mode = .once → p.animator.value = .number (an.valueAt (min p.elapsed an.duration))
  done : mode = .once → (p.animator.done = true ↔ an.duration < p.elapsed)
  last : mode = .once → p.animator.done = true →
    p.calls.getLast? = some (.number (an.values.getLast an.ne_nil))
  quiet : mode = .once → p.animator.done = true →
    ∀ deltaTime, (p.tick interp1d deltaTime).calls = p.calls

structure Ends (an : Animation) (p : Playback) : Prop where
  elapsed : 0 ≤ p.elapsed
  time : p.animator.animTime = min p.elapsed an.duration
  done : p.animator.done = true ↔ an.duration < p.elapsed
  last : p.animator.done = true → p.calls.getLast? = some (.number (an.values.getLast an.ne_nil))

theorem ends_start (an : Animation) (datapoint : Ref) :
    Ends an (.start (an.animator .once datapoint)) := by
  refine ⟨le_rfl, ?_, ?_, ?_⟩
  · exact (min_eq_left an.pos.le).symm
  · exact iff_of_false (by simp [Playback.start, Animation.animator]) an.pos.not_gt
  · simp [Playback.start, Animation.animator]

theorem Ends.tick (hlinear : interp1d.Linear) (hshows : Shows an .once p) (h : Ends an p)
    (deltaTime : ℚ≥0) : Ends an (p.tick interp1d deltaTime) := by
  have hdelta : (0 : ℚ) ≤ deltaTime := deltaTime.2
  have helapsed := h.elapsed
  cases hdone : p.animator.done with
  | true =>
    have hover := h.done.mp hdone
    rw [Playback.tick_done hdone]
    refine ⟨by simp only; linarith, ?_, ?_, h.last⟩
    · rw [h.time, min_eq_right hover.le, min_eq_right (by simp only; linarith)]
    · exact iff_of_true hdone (by simp only; linarith)
  | false =>
    have hwithin : p.elapsed ≤ an.duration := not_lt.mp fun hlt => by simp [h.done.mpr hlt] at hdone
    have htime : p.animator.animTime = p.elapsed := by rw [h.time, min_eq_left hwithin]
    simp only [Playback.tick, hdone, Bool.false_eq_true, if_false,
      ValueAnimator.tick_eq hlinear hshows.values hshows.duration, ValueAnimator.advance,
      hshows.duration, hshows.repeatMode, htime]
    by_cases hover : p.elapsed + deltaTime > an.duration
    · simp only [hover, if_true]
      refine ⟨by linarith, (min_eq_right hover.le).symm, iff_of_true rfl hover, fun _ => ?_⟩
      simp [an.valueAt_end]
    · simp only [hover, if_false]
      refine ⟨by linarith, (min_eq_left (not_lt.mp hover)).symm, iff_of_false (by simp) hover, ?_⟩
      simp

theorem Shows.playsOnce (h : Shows an mode p) (hends : mode = .once → Ends an p) :
    PlaysOnce interp1d an mode p where
  bounded := h.calls
  value hm := by
    rw [h.value, (hends hm).time]
  done hm := (hends hm).done
  last hm := (hends hm).last
  quiet _ hdone deltaTime := by
    rw [Playback.tick_done hdone]

/-- For every list of at least two values, every duration, both modes and all
ticks. -/
theorem animation_bounds (interp1d : Interp1d) (hlinear : interp1d.Linear) (an : Animation)
    (mode : RepeatMode) (datapoint : Ref) (ticks : List ℚ≥0) :
    ∃ animator, ValueAnimator.new? interp1d (an.values.map .number) an.duration mode datapoint =
        some animator ∧
      Throughout (playStep interp1d) (PlaysOnce interp1d an mode) (.start animator) ticks := by
  refine ⟨_, hlinear.new? an mode datapoint, ?_⟩
  have hall : Throughout (playStep interp1d) (fun p => Shows an mode p ∧ (mode = .once → Ends an p))
      (.start (an.animator mode datapoint)) ticks := by
    refine throughout_of_keeps ?_ ⟨shows_start an mode datapoint, ?_⟩
    · rintro p deltaTime q ⟨hshows, hends⟩ hstep
      obtain rfl := Option.some.inj hstep
      refine ⟨hshows.tick hlinear deltaTime, fun hm => ?_⟩
      subst hm
      exact (hends rfl).tick hlinear hshows deltaTime
    · rintro rfl
      exact ends_start an datapoint
  exact hall.mono fun p h => h.1.playsOnce h.2

theorem animation_bounds_ten :
    ∃ animator, ValueAnimator.new? linearInterp1d [.number 0, .number 10] 10 .once 0 = some animator ∧
      Throughout (playStep linearInterp1d)
        (PlaysOnce linearInterp1d ⟨[0, 10], 10, by decide, by decide +kernel⟩ .once)
        (.start animator) [5, 5, 5, 5] ∧
      (run (playStep linearInterp1d) (.start animator) [5, 5, 5, 5]).map (·.calls) =
        some [.number 5, .number 10, .number 10] := by
  obtain ⟨animator, hnew, hall⟩ := animation_bounds linearInterp1d linearInterp1d_linear
    ⟨[0, 10], 10, by decide, by decide +kernel⟩ .once 0 [5, 5, 5, 5]
  refine ⟨animator, hnew, hall, ?_⟩
  have heq : ValueAnimator.new? linearInterp1d [.number 0, .number 10] 10 .once 0 =
      some ⟨[.number 0, .number 10], 10, .once, 0, false, .number 0, 0⟩ := by decide +kernel
  obtain rfl := Option.some.inj (hnew.symm.trans heq)
  decide +kernel

-- ---------------------------------------------------------------------------
-- Mode REPEAT
-- ---------------------------------------------------------------------------

def Animation.phase (an : Animation) (elapsed : ℚ) : ℚ :=
  elapsed - an.duration * ⌊elapsed / an.duration⌋

/-- The time stays within the animation, which follows the elapsed time and
does not end; at the end of a turn it may still show the end. -/
structure PlaysOnAndOn (an : Animation) (p : Playback) : Prop where
  nonneg : 0 ≤ p.animator.animTime
  within : p.animator.animTime ≤ an.duration
  value : p.animator.value = .number (an.valueAt (an.phase p.elapsed)) ∨
    an.phase p.elapsed = 0 ∧ p.animator.value = .number (an.valueAt an.duration)
  going : p.animator.done = false

/-- The tick passes at most one of the ends of the turns, the positive
multiples of the duration. -/
def InOneTurn (an : Animation) (p : Playback) (deltaTime : ℚ≥0) : Prop :=
  ∀ k : ℕ, 0 < k → p.elapsed ≤ k * an.duration → p.elapsed + deltaTime ≤ (k + 1) * an.duration

theorem inOneTurn_of_le (h : (deltaTime : ℚ) ≤ an.duration) : InOneTurn an p deltaTime := by
  intro k _ hreached
  linarith

structure Turns (an : Animation) (p : Playback) : Prop where
  going : p.animator.done = false
  turns : ∃ k : ℕ, p.elapsed = k * an.duration + p.animator.animTime
  begins : p.animator.animTime = 0 → p.elapsed = 0

theorem turns_start (an : Animation) (datapoint : Ref) :
    Turns an (.start (an.animator .repeats datapoint)) :=
  ⟨rfl, ⟨0, by simp [Playback.start, Animation.animator]⟩, fun _ => rfl⟩

theorem tick_repeats (hlinear : interp1d.Linear) (hshows : Shows an .repeats p) (h : Turns an p)
    (deltaTime : ℚ) : (p.tick interp1d deltaTime).elapsed = p.elapsed + deltaTime ∧
      (p.tick interp1d deltaTime).animator.done = false ∧
      (p.tick interp1d deltaTime).animator.animTime =
        if p.animator.animTime + deltaTime > an.duration then
          p.animator.animTime + deltaTime - an.duration
        else p.animator.animTime + deltaTime := by
  simp only [Playback.tick, h.going, Bool.false_eq_true, if_false,
    ValueAnimator.tick_eq hlinear hshows.values hshows.duration, ValueAnimator.advance,
    hshows.duration, hshows.repeatMode]
  split_ifs <;> simp

theorem Turns.tick (hlinear : interp1d.Linear) (hshows : Shows an .repeats p) (h : Turns an p)
    (deltaTime : ℚ≥0) : Turns an (p.tick interp1d deltaTime) := by
  have hdelta : (0 : ℚ) ≤ deltaTime := deltaTime.2
  have hnonneg := hshows.nonneg
  obtain ⟨helapsed, hgoing, htime⟩ := tick_repeats hlinear hshows h deltaTime
  obtain ⟨k, hk⟩ := h.turns
  by_cases hover : p.animator.animTime + deltaTime > an.duration
  · rw [if_pos hover] at htime
    refine ⟨hgoing, ⟨k + 1, ?_⟩, fun hzero => ?_⟩
    · rw [helapsed, htime, hk]
      push_cast
      ring
    · rw [htime] at hzero
      linarith
  · rw [if_neg hover] at htime
    refine ⟨hgoing, ⟨k, ?_⟩, fun hzero => ?_⟩
    · rw [helapsed, htime, hk]
      ring
    · rw [htime] at hzero
      have hstart := h.begins (by linarith)
      rw [helapsed, hstart]
      linarith

theorem Animation.phase_of_turns (an : Animation) {k : ℕ} (h0 : 0 ≤ time) (hlt : time < an.duration) :
    an.phase (k * an.duration + time) = time := by
  have hpos := an.pos
  have hfloor : ⌊(k * an.duration + time) / an.duration⌋ = k := by
    rw [Int.floor_eq_iff, le_div_iff₀ hpos, div_lt_iff₀ hpos]
    push_cast
    constructor
    · linarith
    · linarith
  rw [Animation.phase, hfloor]
  push_cast
  ring

theorem Turns.playsOnAndOn_iff (hshows : Shows an .repeats p) (h : Turns an p) :
    PlaysOnAndOn an p ↔ p.animator.animTime ≤ an.duration := by
  refine ⟨fun hp => hp.within, fun hle => ⟨hshows.nonneg, hle, ?_, h.going⟩⟩
  obtain ⟨k, hk⟩ := h.turns
  rcases hle.lt_or_eq with hlt | heq
  · left
    rw [hshows.value, hk, an.phase_of_turns hshows.nonneg hlt]
  · right
    have hphase := an.phase_of_turns (k := k + 1) le_rfl an.pos
    rw [hshows.value, heq, hk, heq]
    refine ⟨?_, rfl⟩
    rw [← hphase]
    push_cast
    congr 1
    ring

theorem Turns.within_iff (hlinear : interp1d.Linear) (hshows : Shows an .repeats p) (h : Turns an p)
    (hwithin : p.animator.animTime ≤ an.duration) (deltaTime : ℚ≥0) :
    (p.tick interp1d deltaTime).animator.animTime ≤ an.duration ↔ InOneTurn an p deltaTime := by
  have hpos := an.pos
  have hnonneg := hshows.nonneg
  obtain ⟨k, hk⟩ := h.turns
  have htwo : (p.tick interp1d deltaTime).animator.animTime ≤ an.duration ↔
      p.animator.animTime + deltaTime ≤ 2 * an.duration := by
    rw [(tick_repeats hlinear hshows h deltaTime).2.2]
    split_ifs
    · constructor <;> intro <;> linarith
    · constructor <;> intro <;> linarith
  rw [htwo]
  constructor
  · intro hle n hn hreached
    -- the first end that is not behind is the one of this turn
    have hfirst : k + 1 ≤ n := by
      by_contra hlt
      have hnk : (n : ℚ) ≤ k := by exact_mod_cast Nat.lt_succ_iff.mp (not_le.mp hlt)
      have hmul : (n : ℚ) * an.duration ≤ k * an.duration := mul_le_mul_of_nonneg_right hnk hpos.le
      have hzero : p.elapsed = 0 := h.begins (by linarith)
      have hone : (1 : ℚ) ≤ n := by exact_mod_cast hn
      nlinarith
    have hkn : ((k : ℚ) + 1) * an.duration ≤ n * an.duration := by
      refine mul_le_mul_of_nonneg_right ?_ hpos.le
      exact_mod_cast hfirst
    linarith
  · intro hturn
    have hnext := hturn (k + 1) (Nat.succ_pos k) (by push_cast; linarith)
    push_cast at hnext
    linarith

/-- For every list of at least two values, every duration and all ticks: the
animation keeps to the elapsed time just when every tick passes at most one
end of a turn. After two such sequences with the same total, no multiple of
the duration, the value is the same. -/
theorem repeat_elapsed_iff (interp1d : Interp1d) (hlinear : interp1d.Linear) (an : Animation)
    (datapoint : Ref) : ∃ animator,
      ValueAnimator.new? interp1d (an.values.map .number) an.duration .repeats datapoint =
        some animator ∧
      (∀ ticks, Throughout (playStep interp1d) (PlaysOnAndOn an) (.start animator) ticks ↔
        Along (playStep interp1d) (InOneTurn an) (.start animator) ticks) ∧
      ∀ ticks ticks' p p', run (playStep interp1d) (.start animator) ticks = some p →
        run (playStep interp1d) (.start animator) ticks' = some p' →
        Along (playStep interp1d) (InOneTurn an) (.start animator) ticks →
        Along (playStep interp1d) (InOneTurn an) (.start animator) ticks' →
        p.elapsed = p'.elapsed → an.phase p.elapsed ≠ 0 → p.animator.value = p'.animator.value := by
  have hiff : ∀ ticks, Throughout (playStep interp1d) (PlaysOnAndOn an)
        (.start (an.animator .repeats datapoint)) ticks ↔
      Along (playStep interp1d) (InOneTurn an) (.start (an.animator .repeats datapoint)) ticks := by
    intro ticks
    refine throughout_iff_along (I := fun p => Shows an .repeats p ∧ Turns an p) ?_ ?_
      ⟨shows_start an .repeats datapoint, turns_start an datapoint⟩ ?_
    · rintro p deltaTime q ⟨hshows, hturns⟩ hstep
      obtain rfl := Option.some.inj hstep
      exact ⟨hshows.tick hlinear deltaTime, hturns.tick hlinear hshows deltaTime⟩
    · rintro p deltaTime q ⟨hshows, hturns⟩ hp hstep
      obtain rfl := Option.some.inj hstep
      rw [(hturns.tick hlinear hshows deltaTime).playsOnAndOn_iff (hshows.tick hlinear deltaTime)]
      exact hturns.within_iff hlinear hshows hp.within deltaTime
    · exact ((turns_start an datapoint).playsOnAndOn_iff (shows_start an .repeats datapoint)).mpr an.pos.le
  refine ⟨_, hlinear.new? an .repeats datapoint, hiff, ?_⟩
  intro ticks ticks' p p' hrun hrun' hticks hticks' htotal hphase
  have hp := ((hiff ticks).mpr hticks).last hrun
  have hp' := ((hiff ticks').mpr hticks').last hrun'
  have hvalue := hp.value.resolve_right fun h => hphase h.1
  have hvalue' := hp'.value.resolve_right fun h => hphase (htotal ▸ h.1)
  rw [hvalue, hvalue', htotal]

def Animation.hundred : Animation := ⟨[0, 100], 10, by decide, by decide +kernel⟩

theorem repeat_elapsed_halves : ∃ animator,
    ValueAnimator.new? linearInterp1d [.number 0, .number 100] 10 .repeats 0 = some animator ∧
      Throughout (playStep linearInterp1d) (PlaysOnAndOn .hundred) (.start animator) [5, 5, 2] ∧
      (run (playStep linearInterp1d) (.start animator) [5, 5, 2]).map (·.animator.value) =
        some (.number 20) := by
  obtain ⟨animator, hnew, hiff, -⟩ :=
    repeat_elapsed_iff linearInterp1d linearInterp1d_linear .hundred 0
  have heq : ValueAnimator.new? linearInterp1d [.number 0, .number 100] 10 .repeats 0 =
      some ⟨[.number 0, .number 100], 10, .repeats, 0, false, .number 0, 0⟩ := by decide +kernel
  obtain rfl := Option.some.inj (hnew.symm.trans heq)
  have hfive : ((5 : ℚ≥0) : ℚ) ≤ Animation.hundred.duration := by decide +kernel
  have htwo : ((2 : ℚ≥0) : ℚ) ≤ Animation.hundred.duration := by decide +kernel
  refine ⟨_, heq, (hiff _).mpr ⟨?_, ?_, ?_, trivial⟩, by decide +kernel⟩
  · exact inOneTurn_of_le hfive
  · exact inOneTurn_of_le hfive
  · exact inOneTurn_of_le htwo

/-- One tick of 25 seconds leaves the time beyond the end, and the value
differs from the one after five ticks of five. -/
theorem long_tick_overruns : ∃ animator,
    ValueAnimator.new? linearInterp1d [.number 0, .number 100] 10 .repeats 0 = some animator ∧
      ¬Throughout (playStep linearInterp1d) (PlaysOnAndOn .hundred) (.start animator) [25] ∧
      (run (playStep linearInterp1d) (.start animator) [25]).map (·.animator.value) =
        some (.number 100) ∧
      (run (playStep linearInterp1d) (.start animator) [5, 5, 5, 5, 5]).map (·.animator.value) =
        some (.number 50) := by
  refine ⟨⟨[.number 0, .number 100], 10, .repeats, 0, false, .number 0, 0⟩, by decide +kernel, ?_,
    by decide +kernel, by decide +kernel⟩
  intro h
  have hwithin := (h.last rfl).within
  revert hwithin
  decide +kernel

end KuksaServices.Mock
