import KuksaServices.Atomic.Pool
import Mathlib.Algebra.BigOperators.Group.Finset.Piecewise

/-!
# Rules for the programs of a pool

What each program does by itself is carried over to every run of a pool,
whatever the order of the actions: a property that all programs keep
(`Pool.keeping_run`), and a measure that no program raises by more than its
price (`Pool.measure_le`). `Counts` says of one thread how many actions it
still takes, amid others of which only `Does` is known.
-/

namespace Atomic

variable {T L σ ι α β : Type}

-- ---------------------------------------------------------------------------
-- What every action does
-- ---------------------------------------------------------------------------

namespace Prog

theorem eq_ret {p : Prog L σ Unit} (h : p.site? = none) : p = .ret () := by
  cases p with
  | ret a => rfl
  | act l upd next => cases h

/-- Every action changes the state by `g`, whatever state it finds. -/
def Does (g : σ → σ → Prop) : Prog L σ α → Prop
  | .ret _ => True
  | .act _ upd next => ∀ s, g s (upd s) ∧ (next s).Does g

section
variable {g : σ → σ → Prop}

theorem Does.pure (a : α) : Does g (pure a : Prog L σ α) := trivial

theorem Does.bind {p : Prog L σ α} {f : α → Prog L σ β} (hp : p.Does g) (hf : ∀ a, (f a).Does g) :
    (p >>= f).Does g := by
  induction p with
  | ret a => exact hf a
  | act l upd next ih => exact fun s => ⟨(hp s).1, ih s (hp s).2⟩

theorem Does.atomic {f : σ → α × σ} (h : ∀ s, g s (f s).2) : Does g (Prog.atomic l f) :=
  fun s => ⟨h s, trivial⟩

theorem Does.within {A : σ → Prop} (hg : ∀ s t, g s t → A s → A t) {p : Prog L σ α} (hp : p.Does g) :
    Within (fun _ => True) A p := by
  intro s hs
  induction p generalizing s with
  | ret a => exact fun t ht => ht hs
  | act l upd next ih =>
    refine ⟨trivial, fun t ht _ => ?_⟩
    obtain ⟨hdoes, hnext⟩ := hp t
    exact ⟨hg t _ hdoes, ih t hnext _ (hg t _ hdoes (ht hs))⟩

end

-- ---------------------------------------------------------------------------
-- How much a program costs
-- ---------------------------------------------------------------------------

/-- The actions raise `measure` by at most `n` in all. -/
def Costs (measure : σ → Nat) : Nat → Prog L σ α → Prop
  | _, .ret _ => True
  | n, .act _ upd next => ∀ s, ∃ k, measure (upd s) + k ≤ measure s + n ∧ (next s).Costs measure k

section
variable {measure : σ → Nat} {n m : Nat}

theorem Costs.mono {p : Prog L σ α} (h : p.Costs measure n) (hle : n ≤ m) : p.Costs measure m := by
  cases p with
  | ret a => trivial
  | act l upd next =>
    intro s
    obtain ⟨k, hk, hnext⟩ := h s
    exact ⟨k, by omega, hnext⟩

theorem Does.costs {g : σ → σ → Prop} (hg : ∀ s t, g s t → measure t ≤ measure s) {p : Prog L σ α}
    (hp : p.Does g) : p.Costs measure 0 := by
  induction p with
  | ret a => trivial
  | act l upd next ih => exact fun s => ⟨0, hg s _ (hp s).1, ih s (hp s).2⟩

theorem Costs.pure (a : α) : Costs measure n (pure a : Prog L σ α) := trivial

theorem Costs.bind {p : Prog L σ α} {f : α → Prog L σ β} (hp : p.Costs measure n)
    (hf : ∀ a, (f a).Costs measure m) : (p >>= f).Costs measure (n + m) := by
  induction p generalizing n with
  | ret a => exact (hf a).mono (Nat.le_add_left m n)
  | act l upd next ih =>
    intro s
    obtain ⟨k, hk, hnext⟩ := hp s
    exact ⟨k + m, by omega, ih s hnext⟩

theorem Costs.atomic {f : σ → α × σ} (h : ∀ s, measure (f s).2 ≤ measure s + n) :
    Costs measure n (Prog.atomic l f) :=
  fun s => ⟨0, h s, trivial⟩

end

-- ---------------------------------------------------------------------------
-- How many actions are left
-- ---------------------------------------------------------------------------

variable {D : Discipline L σ} {A : σ → Prop}

/-- Amid the others the program takes `n` more actions, each from a state of
`A`, and ends in `Q`. -/
def Counts (D : Discipline L σ) (A : σ → Prop) (Q : α → σ → Prop) : Nat → Prog L σ α → σ → Prop
  | n, .ret a, s => n = 0 ∧ ∀ t, D.rely s t → Q a t
  | n, .act _ upd next, s => ∃ k, n = k + 1 ∧ ∀ t, D.rely s t → A t ∧ (next t).Counts D A Q k (upd t)

theorem Counts.mono {Q Q' : α → σ → Prop} (hq : ∀ a s, Q a s → Q' a s) {p : Prog L σ α}
    (h : p.Counts D A Q n s) : p.Counts D A Q' n s := by
  induction p generalizing n s with
  | ret a => exact ⟨h.1, fun t ht => hq a t (h.2 t ht)⟩
  | act l upd next ih =>
    obtain ⟨k, rfl, h⟩ := h
    exact ⟨k, rfl, fun t ht => ⟨(h t ht).1, ih t (h t ht).2⟩⟩

theorem Counts.stable {Q : α → σ → Prop} {p : Prog L σ α} (h : p.Counts D A Q n s) (hr : D.rely s t) :
    p.Counts D A Q n t := by
  cases p with
  | ret a => exact ⟨h.1, fun u hu => h.2 u (D.rely_trans hr hu)⟩
  | act l upd next =>
    obtain ⟨k, rfl, h⟩ := h
    exact ⟨k, rfl, fun u hu => h u (D.rely_trans hr hu)⟩

theorem Counts.bind {Q : β → σ → Prop} {p : Prog L σ α} {f : α → Prog L σ β}
    (h : p.Counts D A (fun a s => (f a).Counts D A Q m s) n s) : (p >>= f).Counts D A Q (n + m) s := by
  induction p generalizing n s with
  | ret a =>
    obtain ⟨rfl, h⟩ := h
    rw [Nat.zero_add]
    exact h s (D.rely_refl s)
  | act l upd next ih =>
    obtain ⟨k, rfl, h⟩ := h
    exact ⟨k + m, by omega, fun t ht => ⟨(h t ht).1, ih t (h t ht).2⟩⟩

def CountsFrom (D : Discipline L σ) (A : σ → Prop) (n : Nat) (P : σ → Prop) (p : Prog L σ α)
    (B : α → σ → Prop) : Prop :=
  ∀ s, P s → p.Counts D A B n s

section
variable {P : σ → Prop} {B : α → σ → Prop} {C : β → σ → Prop}

theorem CountsFrom.bind {p : Prog L σ α} {f : α → Prog L σ β} (hp : CountsFrom D A n P p B)
    (hf : ∀ a, CountsFrom D A m (B a) (f a) C) : CountsFrom D A (n + m) P (p >>= f) C :=
  fun s h => Counts.bind ((hp s h).mono fun a t hb => hf a t hb)

theorem CountsFrom.atomic {f : σ → α × σ} (hp : Stable D P) (hb : ∀ a, Stable D (B a))
    (ha : ∀ s, P s → A s) (h : ∀ s, P s → B (f s).1 (f s).2) : CountsFrom D A 1 P (atomic l f) B := by
  intro s hs
  refine ⟨0, rfl, fun t ht => ?_⟩
  have hpt := hp s t hs ht
  exact ⟨ha t hpt, rfl, fun u hu => hb _ _ u (h t hpt) hu⟩

end

end Prog

-- ---------------------------------------------------------------------------
-- Runs of a pool
-- ---------------------------------------------------------------------------

namespace Pool

open Prog

variable [DecidableEq T] {r : Rules T L σ ι} {p p' : Pool T L σ}

/-- The shared state is in `A`, and the programs keep it there. -/
def Keeping (A : σ → Prop) (p : Pool T L σ) : Prop :=
  A p.shared ∧ ∀ t, (p.thread t).Holds (.within (fun _ => True) A) (fun _ => A) p.shared

omit [DecidableEq T] in
theorem keeping_idle {A : σ → Prop} (h : A s) : Keeping A (.idle s : Pool T L σ) :=
  ⟨h, fun _ _ hr => hr h⟩

theorem Keeping.step {A : σ → Prop}
    (hcode : ∀ t task c, m = .start t task → r.code task t p.shared = some c → Within (fun _ => True) A c)
    (h : p.Keeping A) (hs : r.step p m = some p') : p'.Keeping A := by
  obtain ⟨hshared, hthread⟩ := h
  cases m with
  | start t task =>
    obtain ⟨c, -, hc, rfl⟩ := r.step_start hs
    refine ⟨hshared, fun u => ?_⟩
    by_cases hu : u = t
    · subst hu
      simp only [Function.update_self]
      exact hcode u task c rfl hc _ hshared
    · simpa only [Function.update_of_ne hu] using hthread u
  | step t =>
    obtain ⟨l, upd, next, hact, -, rfl⟩ := r.step_act hs
    have hown := hthread t
    rw [hact] at hown
    obtain ⟨hmay, hnext⟩ := hown.2 _ (Discipline.rely_refl _ _) trivial
    refine ⟨hmay hshared, fun u => ?_⟩
    by_cases hu : u = t
    · subst hu
      simpa only [Function.update_self] using hnext
    · simp only [Function.update_of_ne hu]
      exact (hthread u).stable hmay

/-- A property that the code of every task keeps holds in every state. -/
theorem keeping_run {A : σ → Prop} {moves : List (Move T ι)}
    (hcode : ∀ t task s c, .start t task ∈ moves → r.code task t s = some c → Within (fun _ => True) A c)
    (h : p.Keeping A) : Throughout r.step (Keeping A) p moves := by
  have hmem : Along r.step (fun _ m => m ∈ moves) p moves := along_of_forall fun _ hm => hm
  refine hmem.throughout (fun q m q' hq hm hs => hq.step (fun t task c hmt hc => ?_) hs) h
  exact hcode t task _ c (hmt ▸ hm) hc

/-- What the threads may still raise the measure by fits into the total. -/
def Budgeted (measure : σ → Nat) (total : Nat) (p : Pool T L σ) : Prop :=
  ∃ (left : T → Nat) (threads : Finset T), (∀ t ∉ threads, left t = 0) ∧
    (∀ t, (p.thread t).Costs measure (left t)) ∧ measure p.shared + ∑ t ∈ threads, left t ≤ total

theorem sum_insert_update {f : T → Nat} {threads : Finset T} (h : ∀ t ∉ threads, f t = 0) (t : T) (n : Nat) :
    ∑ u ∈ insert t threads, Function.update f t n u + f t = ∑ u ∈ threads, f u + n := by
  have hmem : t ∈ insert t threads := Finset.mem_insert_self t threads
  rw [Finset.sum_update_of_mem hmem, ← Finset.sum_insert_of_eq_zero_if_notMem (h t),
    ← Finset.add_sum_erase _ f hmem, Finset.sdiff_singleton_eq_erase]
  omega

def price (f : ι → Nat) : Move T ι → Nat
  | .start _ task => f task
  | .step _ => 0

def spent (f : ι → Nat) : List (Move T ι) → Nat
  | [] => 0
  | m :: moves => price f m + spent f moves

theorem Budgeted.step {measure : σ → Nat} {f : ι → Nat} {total : Nat}
    (hcode : ∀ t task s c, r.code task t s = some c → c.Costs measure (f task))
    (h : p.Budgeted measure total) (hs : r.step p m = some p') : p'.Budgeted measure (total + price f m) := by
  obtain ⟨left, threads, hzero, hcosts, htotal⟩ := h
  have hzero' : ∀ t n, ∀ u ∉ insert t threads, Function.update left t n u = 0 := by
    intro t n u hu
    rw [Finset.mem_insert, not_or] at hu
    rw [Function.update_of_ne hu.1, hzero u hu.2]
  cases m with
  | start t task =>
    obtain ⟨c, -, hc, rfl⟩ := r.step_start hs
    have hsum := sum_insert_update hzero t (f task)
    refine ⟨Function.update left t (f task), insert t threads, hzero' t _, fun u => ?_, ?_⟩
    · by_cases hu : u = t
      · subst hu
        simp only [Function.update_self]
        exact hcode u task _ c hc
      · simpa only [Function.update_of_ne hu] using hcosts u
    · simp only [price]
      omega
  | step t =>
    obtain ⟨l, upd, next, hact, -, rfl⟩ := r.step_act hs
    have hown := hcosts t
    rw [hact] at hown
    obtain ⟨k, hk, hnext⟩ := hown p.shared
    have hsum := sum_insert_update hzero t k
    refine ⟨Function.update left t k, insert t threads, hzero' t _, fun u => ?_, ?_⟩
    · by_cases hu : u = t
      · subst hu
        simpa only [Function.update_self] using hnext
      · simpa only [Function.update_of_ne hu] using hcosts u
    · simp only [price]
      omega

theorem Budgeted.run {measure : σ → Nat} {f : ι → Nat} {total : Nat}
    (hcode : ∀ t task s c, r.code task t s = some c → c.Costs measure (f task))
    (h : p.Budgeted measure total) (hrun : Atomic.run r.step p moves = some p') :
    p'.Budgeted measure (total + spent f moves) := by
  induction moves generalizing p total with
  | nil =>
    obtain rfl := Option.some.inj hrun
    exact h
  | cons m moves ih =>
    obtain ⟨q, hs, hrest⟩ := Option.bind_eq_some_iff.mp hrun
    rw [spent, ← Nat.add_assoc]
    exact ih (h.step hcode hs) hrest

/-- Over a run the measure grows by at most what its tasks cost. -/
theorem measure_le {measure : σ → Nat} {f : ι → Nat}
    (hcode : ∀ t task s c, r.code task t s = some c → c.Costs measure (f task))
    (hrun : run r.step (.idle s) moves = some p) : measure p.shared ≤ measure s + spent f moves := by
  have hidle : (idle s : Pool T L σ).Budgeted measure (measure s) :=
    ⟨fun _ => 0, ∅, fun _ _ => rfl, fun _ => trivial, by simp [idle]⟩
  obtain ⟨left, threads, -, -, htotal⟩ := hidle.run hcode hrun
  exact Nat.le_trans (Nat.le_add_right _ _) htotal

end Pool

end Atomic
