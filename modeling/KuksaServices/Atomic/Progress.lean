import KuksaServices.Atomic.Runs

/-!
# Progress by a rank

A rank is a natural number of a state. Where every step on one input lowers
it until some state is met, a run of that input meets the state within the
rank (`reaches_of_rank`). Where the steps of one party lower it and those of
the others do not raise it, the state is met once that party has taken more
steps than the rank (`ends_within_rank`), whatever the order of the steps.
-/

namespace Atomic

variable {σ ι : Type} {step : σ → ι → Option σ} {I Ends : σ → Prop} {rank : σ → Nat}

/-- `I` is what the steps keep until `Ends` holds. -/
theorem reaches_of_rank {i : ι}
    (hstep : ∀ s, I s → ¬Ends s → ∃ t, step s i = some t ∧ I t ∧ rank t < rank s) (hi : I s) :
    ∃ k t, k ≤ rank s ∧ run step s (List.replicate k i) = some t ∧ I t ∧ Ends t := by
  induction hr : rank s using Nat.strongRecOn generalizing s with
  | ind n ih =>
    by_cases he : Ends s
    · exact ⟨0, s, Nat.zero_le n, rfl, hi, he⟩
    · obtain ⟨t, hs, ht, hlt⟩ := hstep s hi he
      obtain ⟨k, u, hk, hrun, hu⟩ := ih (rank t) (hr ▸ hlt) ht rfl
      refine ⟨k + 1, u, by omega, ?_, hu⟩
      rw [List.replicate_succ, run_cons hs]
      exact hrun

/-- `own` are the steps of one party; what ends stays ended. -/
theorem ends_within_rank {C : σ → ι → Prop} (Ends : σ → Prop) (rank : σ → Nat) (own : ι → Bool)
    (hkeep : ∀ s i t, I s → C s i → step s i = some t → I t)
    (hended : ∀ s i t, Ends s → step s i = some t → Ends t)
    (hown : ∀ s i t, I s → ¬Ends s → C s i → own i = true → step s i = some t →
      Ends t ∨ rank t < rank s)
    (hothers : ∀ s i t, I s → C s i → own i = false → step s i = some t → rank t ≤ rank s)
    (hi : I s) (hc : Along step C s is) (hrun : run step s is = some t)
    (hlong : rank s < is.countP own) : Ends t := by
  induction is generalizing s with
  | nil => exact absurd hlong (Nat.not_lt_zero _)
  | cons i is ih =>
    obtain ⟨u, hs, hrest⟩ := Option.bind_eq_some_iff.mp hrun
    rw [along_cons hs] at hc
    have hu := hkeep s i u hi hc.1 hs
    have hlast : Ends u → Ends t := fun he => (throughout_of_keeps hended he).last hrest
    rw [List.countP_cons] at hlong
    by_cases he : Ends s
    · exact hlast (hended s i u he hs)
    cases ho : own i with
    | true =>
      simp only [ho, if_true] at hlong
      rcases hown s i u hi he hc.1 ho hs with hend | hlt
      · exact hlast hend
      · exact ih hu hc.2 hrest (by omega)
    | false =>
      have hle := hothers s i u hi hc.1 ho hs
      simp only [ho, Bool.false_eq_true, if_false] at hlong
      exact ih hu hc.2 hrest (by omega)

end Atomic
