import KuksaServices.Atomic.Raise
import KuksaServices.Atomic.Runs

/-!
# Programs as runs of steps

A program may be looked at in larger steps than its actions: `Unrolls` says
that from every state with `J` it does what some run of the steps does, and
keeps `J`. `config s raised` is the configuration of the steps for a state.
-/

namespace Atomic.Raise

variable {L σ ρ ι α β : Type} {step : ρ → ι → Option ρ} {config : σ → Bool → ρ} {J : σ → Prop}

def Unrolls (step : ρ → ι → Option ρ) (config : σ → Bool → ρ) (J : σ → Prop) (p : Raise L σ α) : Prop :=
  ∀ s, J s → J (p.exec s).2 ∧ ∃ inputs, run step (config s false) inputs =
    some (config (p.exec s).2 (p.exec s).1.isNone)

theorem Unrolls.pure (a : α) : Unrolls step config J (pure a : Raise L σ α) := fun _ h => ⟨h, [], rfl⟩

theorem Unrolls.single {p : Raise L σ α} (h : ∀ s, J s → J (p.exec s).2 ∧
    ∃ i, step (config s false) i = some (config (p.exec s).2 (p.exec s).1.isNone)) :
    Unrolls step config J p := by
  intro s hs
  obtain ⟨hj, i, hstep⟩ := h s hs
  exact ⟨hj, [i], by rw [run_cons hstep, run]⟩

theorem Unrolls.bind {p : Raise L σ α} {f : α → Raise L σ β} (hp : Unrolls step config J p)
    (hf : ∀ a, Unrolls step config J (f a)) : Unrolls step config J (p >>= f) := by
  intro s hs
  obtain ⟨hj, inputs, hrun⟩ := hp s hs
  rw [exec_bind]
  cases hresult : (p.exec s).1 with
  | none =>
    rw [hresult] at hrun
    exact ⟨hj, inputs, hrun⟩
  | some a =>
    rw [hresult] at hrun
    obtain ⟨hj', inputs', hrun'⟩ := hf a _ hj
    refine ⟨hj', inputs ++ inputs', ?_⟩
    rw [run_append, hrun]
    exact hrun'

theorem Unrolls.forEach {xs : List β} {f : β → Raise L σ Unit}
    (h : ∀ x ∈ xs, Unrolls step config J (f x)) : Unrolls step config J (forEach xs f) := by
  induction xs with
  | nil => exact .pure ()
  | cons x xs ih =>
    refine .bind (h x List.mem_cons_self) fun _ => ih fun y hy => ?_
    exact h y (List.mem_cons_of_mem _ hy)

theorem Unrolls.forUntil {xs : List β} {f : β → Raise L σ Bool}
    (h : ∀ x ∈ xs, Unrolls step config J (f x)) : Unrolls step config J (forUntil xs f) := by
  induction xs with
  | nil => exact .pure ()
  | cons x xs ih =>
    refine .bind (h x List.mem_cons_self) fun stop => ?_
    split
    · exact .pure ()
    · exact ih fun y hy => h y (List.mem_cons_of_mem _ hy)

end Atomic.Raise
