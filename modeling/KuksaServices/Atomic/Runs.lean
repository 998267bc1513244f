import Mathlib.Order.Basic

/-!
# Runs of a step function

A system is a partial step function: in a state it takes an input and gives
the next state, or `none` when the input is not enabled there. A run is a
list of inputs. Two things are said about runs: a state property holds in
every state reached (`Throughout`), and every step taken meets a condition
on the state it starts from and its input (`Along`).
-/

namespace Atomic

variable {σ ι : Type} {step : σ → ι → Option σ} {P : σ → Prop} {C : σ → ι → Prop}

def run (step : σ → ι → Option σ) : σ → List ι → Option σ
  | s, [] => some s
  | s, i :: is => (step s i).bind fun t => run step t is

def Throughout (step : σ → ι → Option σ) (P : σ → Prop) : σ → List ι → Prop
  | s, [] => P s
  | s, i :: is => P s ∧ match step s i with
    | none => True
    | some t => Throughout step P t is

def Along (step : σ → ι → Option σ) (C : σ → ι → Prop) : σ → List ι → Prop
  | _, [] => True
  | s, i :: is => match step s i with
    | none => True
    | some t => C s i ∧ Along step C t is

instance Throughout.decidable [DecidablePred P] :
    (is : List ι) → (s : σ) → Decidable (Throughout step P s is)
  | [], s => inferInstanceAs (Decidable (P s))
  | i :: is, s =>
    have : Decidable (match step s i with
        | none => True
        | some t => Throughout step P t is) :=
      match step s i with
      | none => inferInstanceAs (Decidable True)
      | some t => Throughout.decidable is t
    inferInstanceAs (Decidable (_ ∧ _))

instance Along.decidable [∀ s i, Decidable (C s i)] :
    (is : List ι) → (s : σ) → Decidable (Along step C s is)
  | [], _ => inferInstanceAs (Decidable True)
  | i :: is, s =>
    have : ∀ t, Decidable (Along step C t is) := Along.decidable is
    match h : step s i with
    | none => isTrue (by simp [Along, h])
    | some t => decidable_of_iff (C s i ∧ Along step C t is) (by simp [Along, h])

theorem Throughout.start (h : Throughout step P s is) : P s := by
  cases is with
  | nil => exact h
  | cons i is => exact h.1

theorem run_cons (h : step s i = some t) : run step s (i :: is) = run step t is := by
  simp [run, h]

theorem run_append : run step s (is ++ js) = (run step s is).bind fun t => run step t js := by
  induction is generalizing s with
  | nil => rfl
  | cons i is ih =>
    cases hs : step s i with
    | none => simp [run, hs]
    | some t => simpa [run, hs] using ih

theorem run_of_steps {step' : σ → κ → Option σ}
    (hstep : ∀ s i t, step s i = some t → ∃ js, run step' s js = some t) (h : run step s is = some t) :
    ∃ js, run step' s js = some t := by
  induction is generalizing s with
  | nil => exact ⟨[], h⟩
  | cons i is ih =>
    obtain ⟨u, hs, hrest⟩ := Option.bind_eq_some_iff.mp h
    obtain ⟨first, hfirst⟩ := hstep s i u hs
    obtain ⟨rest, hrest⟩ := ih hrest
    refine ⟨first ++ rest, ?_⟩
    rw [run_append, hfirst]
    exact hrest

/-- The property holds where the run ends. -/
theorem Throughout.last (h : Throughout step P s is) (hr : run step s is = some t) : P t := by
  induction is generalizing s with
  | nil =>
    obtain rfl := Option.some.inj hr
    exact h
  | cons i is ih =>
    obtain ⟨u, hs, hr⟩ := Option.bind_eq_some_iff.mp hr
    obtain ⟨-, h⟩ := h
    simp only [hs] at h
    exact ih h hr

theorem along_cons (h : step s i = some t) :
    Along step C s (i :: is) ↔ C s i ∧ Along step C t is := by
  simp [Along, h]

/-- What a step keeps under the condition holds in every state of a run whose
steps all meet it. -/
theorem Along.throughout (hstep : ∀ s i t, P s → C s i → step s i = some t → P t)
    (h0 : P s) (hc : Along step C s is) : Throughout step P s is := by
  induction is generalizing s with
  | nil => exact h0
  | cons i is ih =>
    refine ⟨h0, ?_⟩
    cases hs : step s i with
    | none => trivial
    | some t =>
      rw [along_cons hs] at hc
      exact ih (hstep s i t h0 hc.1 hs) hc.2

theorem Along.along {Q : σ → ι → Prop} (hstep : ∀ s i t, P s → C s i → step s i = some t → P t)
    (hq : ∀ s i, P s → C s i → Q s i) (h0 : P s) (hc : Along step C s is) :
    Along step Q s is := by
  induction is generalizing s with
  | nil => trivial
  | cons i is ih =>
    cases hs : step s i with
    | none => simp [Along, hs]
    | some t =>
      rw [along_cons hs] at hc ⊢
      exact ⟨hq s i h0 hc.1, ih (hstep s i t h0 hc.1 hs) hc.2⟩

theorem Along.mono {C' : σ → ι → Prop} (hc : ∀ s i, C s i → C' s i) (h : Along step C s is) :
    Along step C' s is :=
  h.along (P := fun _ => True) (fun _ _ _ _ _ _ => trivial) (fun s i _ => hc s i) trivial

theorem Throughout.mono {P' : σ → Prop} (hp : ∀ s, P s → P' s) (h : Throughout step P s is) :
    Throughout step P' s is := by
  induction is generalizing s with
  | nil => exact hp s h
  | cons i is ih =>
    obtain ⟨hs, h⟩ := h
    refine ⟨hp s hs, ?_⟩
    cases hstep : step s i with
    | none => trivial
    | some t =>
      simp only [hstep] at h
      exact ih h

/-- What every step keeps holds in every state of every run. -/
theorem throughout_of_keeps (hstep : ∀ s i t, P s → step s i = some t → P t) (h0 : P s) :
    Throughout step P s is := by
  induction is generalizing s with
  | nil => exact h0
  | cons i is ih =>
    refine ⟨h0, ?_⟩
    cases hs : step s i with
    | none => trivial
    | some t => exact ih (hstep s i t h0 hs)

theorem along_of_keeps (hstep : ∀ s i t, P s → step s i = some t → P t) (hc : ∀ s i, P s → C s i)
    (h0 : P s) : Along step C s is := by
  induction is generalizing s with
  | nil => trivial
  | cons i is ih =>
    cases hs : step s i with
    | none => simp [Along, hs]
    | some t =>
      rw [along_cons hs]
      exact ⟨hc s i h0, ih (hstep s i t h0 hs)⟩

theorem along_of_forall {C : ι → Prop} (hc : ∀ i ∈ is, C i) : Along step (fun _ i => C i) s is := by
  induction is generalizing s with
  | nil => trivial
  | cons i is ih =>
    cases hs : step s i with
    | none => simp [Along, hs]
    | some t =>
      rw [along_cons hs]
      exact ⟨hc i List.mem_cons_self, ih fun j hj => hc j (List.mem_cons_of_mem _ hj)⟩

/-- Where a step from a state with `Q` ends in a good state exactly when it
meets the condition, and good states keep `Q`, the good runs are exactly
those along the condition. -/
theorem throughout_iff_along_of_keeps {Q : σ → Prop} (hq : ∀ s, Q s → P s)
    (hstep : ∀ s i t, Q s → step s i = some t → (P t ↔ C s i) ∧ (P t → Q t)) (h0 : Q s) :
    Throughout step P s is ↔ Along step C s is := by
  induction is generalizing s with
  | nil => simp [Throughout, Along, hq s h0]
  | cons i is ih =>
    cases hs : step s i with
    | none => simp [Throughout, Along, hs, hq s h0]
    | some t =>
      simp only [Throughout, Along, hs, hq s h0, true_and]
      obtain ⟨hiff, hkeep⟩ := hstep s i t h0 hs
      constructor
      · intro h
        exact ⟨hiff.mp h.start, (ih (hkeep h.start)).mp h⟩
      · rintro ⟨hc, h⟩
        exact (ih (hkeep (hiff.mpr hc))).mpr h

theorem throughout_iff_along {I : σ → Prop} (hkeep : ∀ s i t, I s → step s i = some t → I t)
    (hstep : ∀ s i t, I s → P s → step s i = some t → (P t ↔ C s i))
    (hi : I s) (h0 : P s) :
    Throughout step P s is ↔ Along step C s is := by
  refine throughout_iff_along_of_keeps (Q := fun s => I s ∧ P s) (fun _ h => h.2) ?_ ⟨hi, h0⟩
  rintro s i t ⟨hi, hp⟩ hs
  exact ⟨hstep s i t hi hp hs, fun ht => ⟨hkeep s i t hi hs, ht⟩⟩

/-- Two systems that take the same steps where the condition is met have the
same runs along it. -/
theorem Along.run_eq {step' : σ → ι → Option σ}
    (hstep : ∀ s i t, C s i → step s i = some t → step' s i = some t)
    (hnone : ∀ s i, step s i = none → step' s i = none) (hc : Along step C s is) :
    run step s is = run step' s is := by
  induction is generalizing s with
  | nil => rfl
  | cons i is ih =>
    cases hs : step s i with
    | none => simp [run, hs, hnone s i hs]
    | some t =>
      rw [along_cons hs] at hc
      rw [run_cons hs, run_cons (hstep s i t hc.1 hs)]
      exact ih hc.2

theorem along_congr_of_keeps {C' : σ → ι → Prop} {I : σ → Prop}
    (hkeep : ∀ s i t, I s → step s i = some t → I t)
    (h : ∀ s i t, I s → step s i = some t → (C s i ↔ C' s i)) (hi : I s) :
    Along step C s is ↔ Along step C' s is := by
  induction is generalizing s with
  | nil => rfl
  | cons i is ih =>
    unfold Along
    cases hs : step s i with
    | none => rfl
    | some t => exact and_congr (h s i t hi hs) (ih (hkeep s i t hi hs))

theorem along_congr {C' : σ → ι → Prop} (h : ∀ s i, C s i ↔ C' s i) :
    Along step C s is ↔ Along step C' s is :=
  along_congr_of_keeps (I := fun _ => True) (fun _ _ _ _ _ => trivial) (fun s i _ _ _ => h s i) trivial

end Atomic
