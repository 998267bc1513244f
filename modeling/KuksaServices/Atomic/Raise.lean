import Mathlib.Data.List.Forall2
import KuksaServices.Atomic.Prog

/-!
# Programs that may raise

A program of atomic actions that returns a value or raises. Raising undoes
nothing: the state stays as the actions so far have left it. Loops run over a
list, to its end (`forEach`) or until their body says stop (`forUntil`).
-/

namespace Atomic

variable {L σ α β : Type}

def Raise (L σ α : Type) := Prog L σ (Option α)

namespace Raise

def bind (p : Raise L σ α) (f : α → Raise L σ β) : Raise L σ β :=
  Prog.bind p fun
    | some a => f a
    | none => .ret none

instance : Monad (Raise L σ) where
  pure a := Prog.ret (some a)
  bind := bind

def raise : Raise L σ α := Prog.ret none

def atomic (l : L) (f : σ → α × σ) : Raise L σ α :=
  Prog.atomic l fun s => (some (f s).1, (f s).2)

/-- One action that may raise; it then leaves the state it gives. -/
def attempt (l : L) (f : σ → Option α × σ) : Raise L σ α := Prog.atomic l f

def peek (l : L) (f : σ → α) : Raise L σ α := atomic l fun s => (f s, s)

def forEach : List α → (α → Raise L σ Unit) → Raise L σ Unit
  | [], _ => pure ()
  | x :: xs, f => do
    f x
    forEach xs f

def forUntil : List α → (α → Raise L σ Bool) → Raise L σ Unit
  | [], _ => pure ()
  | x :: xs, f => do
    if ← f x then pure () else forUntil xs f

-- ---------------------------------------------------------------------------
-- Running alone
-- ---------------------------------------------------------------------------

def exec (p : Raise L σ α) (s : σ) : Option α × σ := Prog.exec p s

/-- The state a program ends in, unless it raises. -/
def after (p : Raise L σ α) (s : σ) : Option σ := (p.exec s).1.map fun _ => (p.exec s).2

@[simp] theorem exec_pure (a : α) (s : σ) : (pure a : Raise L σ α).exec s = (some a, s) := (rfl)

@[simp] theorem exec_raise (s : σ) : (raise : Raise L σ α).exec s = (none, s) := (rfl)

@[simp] theorem exec_atomic (l : L) (f : σ → α × σ) (s : σ) :
    (atomic l f).exec s = (some (f s).1, (f s).2) := (rfl)

@[simp] theorem exec_attempt (l : L) (f : σ → Option α × σ) (s : σ) :
    (attempt l f).exec s = f s := (rfl)

@[simp] theorem exec_peek (l : L) (f : σ → α) (s : σ) : (peek l f).exec s = (some (f s), s) := (rfl)

@[simp] theorem exec_bind (p : Raise L σ α) (f : α → Raise L σ β) (s : σ) :
    (p >>= f).exec s = (p.exec s).1.elim (none, (p.exec s).2) fun a => (f a).exec (p.exec s).2 := by
  refine (Prog.exec_bind p _ s).trans ?_
  change _ = (Prog.exec p s).1.elim _ _
  cases (Prog.exec p s).1 <;> rfl

theorem bind_some {p : Raise L σ α} {f : α → Raise L σ β} :
    (p >>= f).exec s = (some b, t) ↔ ∃ a u, p.exec s = (some a, u) ∧ (f a).exec u = (some b, t) := by
  rw [exec_bind]
  rcases p.exec s with ⟨_ | a, u⟩
  · simp
  · simp [and_assoc]

theorem exec_returned {p : Raise L σ Unit} (h : (p.exec s).1.isNone = false) :
    p.exec s = (some (), (p.exec s).2) := by
  rcases hexec : p.exec s with ⟨_ | _, t⟩
  · simp [hexec] at h
  · rfl

@[simp] theorem exec_ite [Decidable c] (p q : Raise L σ α) (s : σ) :
    (if c then p else q).exec s = if c then p.exec s else q.exec s := by
  split <;> rfl

theorem exec_forEach_append (xs ys : List α) (f : α → Raise L σ Unit) (s : σ) :
    (forEach (xs ++ ys) f).exec s = (forEach xs f >>= fun _ => forEach ys f).exec s := by
  induction xs generalizing s with
  | nil => simp [forEach]
  | cons x xs ih =>
    simp only [List.cons_append, forEach, exec_bind]
    rcases (f x).exec s with ⟨_ | _, t⟩
    · rfl
    · simpa using ih t

theorem forEach_keeps {J : σ → Prop} {f : α → Raise L σ Unit} {xs : List α}
    (h : ∀ x ∈ xs, ∀ s s', J s → (f x).exec s = (some (), s') → J s') (hs : J s)
    (hexec : (forEach xs f).exec s = (some (), s')) : J s' := by
  induction xs generalizing s with
  | nil =>
    cases hexec
    exact hs
  | cons x xs ih =>
    obtain ⟨_, u, hx, hrest⟩ := bind_some.mp hexec
    refine ih (fun y hy => h y (List.mem_cons_of_mem _ hy)) ?_ hrest
    exact h x List.mem_cons_self _ _ hs hx

theorem forEach_reaches {J K : σ → Prop} {f : α → Raise L σ Unit} {xs : List α} (hx : x ∈ xs)
    (hJ : ∀ y ∈ xs, ∀ s s', J s → (f y).exec s = (some (), s') → J s')
    (hK : ∀ y ∈ xs, ∀ s s', K s → (f y).exec s = (some (), s') → K s')
    (hreach : ∀ s s', J s → (f x).exec s = (some (), s') → K s') (hs : J s)
    (hexec : (forEach xs f).exec s = (some (), s')) : K s' := by
  induction xs generalizing s with
  | nil => cases hx
  | cons y xs ih =>
    obtain ⟨_, u, hy, hrest⟩ := bind_some.mp hexec
    have hKrest := fun z hz => hK z (List.mem_cons_of_mem _ hz)
    rcases List.mem_cons.mp hx with rfl | hx
    · exact forEach_keeps hKrest (hreach s u hs hy) hrest
    · exact ih hx (fun z hz => hJ z (List.mem_cons_of_mem _ hz)) hKrest
        (hJ y List.mem_cons_self s u hs hy) hrest

theorem forEach_returns {J : σ → Prop} {f : α → Raise L σ Unit} {xs : List α}
    (h : ∀ x ∈ xs, ∀ s, J s → ∃ s', (f x).exec s = (some (), s') ∧ J s') (hs : J s) :
    ∃ s', (forEach xs f).exec s = (some (), s') ∧ J s' := by
  induction xs generalizing s with
  | nil => exact ⟨s, rfl, hs⟩
  | cons x xs ih =>
    obtain ⟨u, hx, hu⟩ := h x List.mem_cons_self s hs
    obtain ⟨s', hrest, hs'⟩ := ih (fun y hy => h y (List.mem_cons_of_mem _ hy)) hu
    exact ⟨s', bind_some.mpr ⟨(), u, hx, hrest⟩, hs'⟩

end Raise

/-- What may be done to the state (`does`), from the states that meet `on`. -/
structure Frame (σ : Type) where
  on : σ → Prop
  does : σ → σ → Prop
  refl : ∀ s, does s s
  trans : ∀ {a b c}, does a b → does b c → does a c
  keeps : ∀ {s t}, on s → does s t → on t

namespace Raise

variable {F : Frame σ}

def Within (F : Frame σ) (p : Raise L σ α) : Prop := ∀ s, F.on s → F.does s (p.exec s).2

theorem Within.pure (a : α) : Within F (pure a : Raise L σ α) := fun s _ => F.refl s

theorem Within.raise : Within F (raise : Raise L σ α) := fun s _ => F.refl s

theorem Within.peek (l : L) (f : σ → α) : Within F (peek l f) := fun s _ => F.refl s

theorem Within.bind {p : Raise L σ α} {f : α → Raise L σ β} (hp : Within F p)
    (hf : ∀ a, Within F (f a)) : Within F (p >>= f) := by
  intro s hs
  rw [exec_bind]
  have hdoes := hp s hs
  cases (p.exec s).1 with
  | none => exact hdoes
  | some a => exact F.trans hdoes (hf a _ (F.keeps hs hdoes))

theorem Within.look {f : σ → β} {g : β → Raise L σ α} (h : ∀ s, F.on s → F.does s ((g (f s)).exec s).2) :
    Within F (Raise.peek l f >>= g) := by
  intro s hs
  simpa using h s hs

theorem Within.forEach {xs : List β} {f : β → Raise L σ Unit} (h : ∀ x ∈ xs, Within F (f x)) :
    Within F (forEach xs f) := by
  induction xs with
  | nil => exact .pure ()
  | cons x xs ih =>
    refine .bind (h x List.mem_cons_self) fun _ => ih fun y hy => ?_
    exact h y (List.mem_cons_of_mem _ hy)

theorem Within.forUntil {xs : List β} {f : β → Raise L σ Bool} (h : ∀ x ∈ xs, Within F (f x)) :
    Within F (forUntil xs f) := by
  induction xs with
  | nil => exact .pure ()
  | cons x xs ih =>
    refine .bind (h x List.mem_cons_self) fun stop => ?_
    split
    · exact .pure ()
    · exact ih fun y hy => h y (List.mem_cons_of_mem _ hy)

-- ---------------------------------------------------------------------------
-- Side by side
-- ---------------------------------------------------------------------------

/-- From related states, two programs that both return give the same and end
in related states. -/
def Lockstep (I : σ → σ → Prop) (p q : Raise L σ α) : Prop :=
  ∀ s t a b s' t', I s t → p.exec s = (some a, s') → q.exec t = (some b, t') → a = b ∧ I s' t'

variable {I : σ → σ → Prop}

theorem Lockstep.pure (a : α) : Lockstep I (pure a : Raise L σ α) (pure a) := by
  intro s t a' b s' t' hI hp hq
  cases hp
  cases hq
  exact ⟨rfl, hI⟩

theorem Lockstep.atomic {f g : σ → α × σ} (l : L)
    (h : ∀ s t, I s t → (f s).1 = (g t).1 ∧ I (f s).2 (g t).2) :
    Lockstep I (atomic l f) (atomic l g) := by
  intro s t a b s' t' hI hp hq
  cases hp
  cases hq
  exact h s t hI

theorem Lockstep.attempt {f g : σ → Option α × σ} (l : L)
    (h : ∀ s t, I s t → (f s).1 = (g t).1 ∧ I (f s).2 (g t).2) :
    Lockstep I (attempt l f) (attempt l g) := by
  intro s t a b s' t' hI hp hq
  simp only [exec_attempt] at hp hq
  have hboth := h s t hI
  rw [hp, hq] at hboth
  exact ⟨Option.some.inj hboth.1, hboth.2⟩

theorem Lockstep.bind {p q : Raise L σ α} {f g : α → Raise L σ β} (hp : Lockstep I p q)
    (hf : ∀ a, Lockstep I (f a) (g a)) : Lockstep I (p >>= f) (q >>= g) := by
  intro s t b b' s' t' hI hs ht
  obtain ⟨a, s₁, hs₁, hs⟩ := bind_some.mp hs
  obtain ⟨a', t₁, ht₁, ht⟩ := bind_some.mp ht
  obtain ⟨rfl, hI₁⟩ := hp _ _ _ _ _ _ hI hs₁ ht₁
  exact hf a _ _ _ _ _ _ hI₁ hs ht

theorem Lockstep.look {f g : σ → β} {p q : β → Raise L σ α} (l : L)
    (h : ∀ s t, I s t → ∀ a b s' t', (p (f s)).exec s = (some a, s') →
      (q (g t)).exec t = (some b, t') → a = b ∧ I s' t') :
    Lockstep I (peek l f >>= p) (peek l g >>= q) := by
  intro s t a b s' t' hI hs ht
  simp only [exec_bind, exec_peek, Option.elim_some] at hs ht
  exact h s t hI a b s' t' hs ht

theorem Lockstep.forEach {f g : α → Raise L σ Unit} {xs : List α}
    (h : ∀ x ∈ xs, Lockstep I (f x) (g x)) : Lockstep I (forEach xs f) (forEach xs g) := by
  induction xs with
  | nil => exact .pure ()
  | cons x xs ih =>
    refine .bind (h x List.mem_cons_self) fun _ => ih fun y hy => ?_
    exact h y (List.mem_cons_of_mem _ hy)

theorem Lockstep.forUntil {f g : α → Raise L σ Bool} {xs : List α}
    (h : ∀ x ∈ xs, Lockstep I (f x) (g x)) : Lockstep I (forUntil xs f) (forUntil xs g) := by
  induction xs with
  | nil => exact .pure ()
  | cons x xs ih =>
    refine .bind (h x List.mem_cons_self) fun stop => ?_
    split
    · exact .pure ()
    · exact ih fun y hy => h y (List.mem_cons_of_mem _ hy)

/-- Two loops keep the relation when their bodies do on the elements that
matter, taken in order, and each body by itself on all others. -/
theorem Lockstep.forEach_aligned {f g : α → Raise L σ Unit} {k : α → Bool} {xs ys : List α}
    (hleft : ∀ x ∈ xs, k x = false → ∀ s t s', I s t → (f x).exec s = (some (), s') → I s' t)
    (hright : ∀ y ∈ ys, k y = false → ∀ s t t', I s t → (g y).exec t = (some (), t') → I s t')
    (hboth : List.Forall₂ (fun x y => Lockstep I (f x) (g y)) (xs.filter k) (ys.filter k)) :
    Lockstep I (Raise.forEach xs f) (Raise.forEach ys g) := by
  induction xs generalizing ys with
  | nil =>
    rintro s t _ _ s' t' hI hs ht
    cases hs
    refine ⟨rfl, forEach_keeps (J := I s) (fun y hy t t' hI hexec => ?_) hI ht⟩
    have hnil := List.forall₂_nil_left_iff.mp hboth
    have hk : k y = false := by simpa using List.filter_eq_nil_iff.mp hnil y hy
    exact hright y hy hk s t t' hI hexec
  | cons x xs ih =>
    rintro s t _ _ s' t' hI hs ht
    obtain ⟨_, u, hx, hxs⟩ := bind_some.mp hs
    have hleft' := fun y hy => hleft y (List.mem_cons_of_mem _ hy)
    cases hk : k x with
    | false =>
      rw [List.filter_cons_of_neg (by simp [hk])] at hboth
      exact ih hleft' hright hboth _ _ _ _ _ _ (hleft x List.mem_cons_self hk _ _ _ hI hx) hxs ht
    | true =>
      -- the other loop first comes to the partner of `x`
      rw [List.filter_cons_of_pos hk] at hboth
      obtain ⟨y, rest, hxy, hrest, hfilter⟩ := List.forall₂_cons_left_iff.mp hboth
      obtain ⟨before, behind, rfl, hbefore, -, rfl⟩ := List.filter_eq_cons_iff.mp hfilter
      rw [exec_forEach_append] at ht
      obtain ⟨_, t₁, ht₁, ht⟩ := bind_some.mp ht
      obtain ⟨_, t₂, hy, hys⟩ := bind_some.mp ht
      have hI₁ : I s t₁ := by
        refine forEach_keeps (J := I s) (fun z hz t t' hI hexec => ?_) hI ht₁
        have hz' : k z = false := by simpa using hbefore z hz
        exact hright z (List.mem_append_left _ hz) hz' s t t' hI hexec
      obtain ⟨-, hI₂⟩ := hxy _ _ _ _ _ _ hI₁ hx hy
      refine ih hleft' (fun z hz => hright z ?_) hrest _ _ _ _ _ _ hI₂ hxs hys
      exact List.mem_append_right _ (List.mem_cons_of_mem _ hz)

-- ---------------------------------------------------------------------------
-- Amid others
-- ---------------------------------------------------------------------------

/-- Amid the others, from every state of `A` the program returns in `B` or
raises in `R`. -/
def Spec (D : Discipline L σ) (A : σ → Prop) (p : Raise L σ α) (B : α → σ → Prop)
    (R : σ → Prop) : Prop :=
  Prog.Triple D A p fun result s => result.elim (R s) fun a => B a s

section
variable {D : Discipline L σ} {A A' R : σ → Prop} {B : α → σ → Prop} {C : β → σ → Prop}

theorem Spec.pure (hb : Prog.Stable D (B a)) : Spec D (B a) (pure a : Raise L σ α) B R :=
  fun s h t hr => hb s t h hr

theorem Spec.raise (hr : Prog.Stable D R) : Spec D R (raise : Raise L σ α) B R :=
  fun s h t hrely => hr s t h hrely

theorem Spec.bind {p : Raise L σ α} {f : α → Raise L σ β} (hR : Prog.Stable D R)
    (hp : Spec D A p B R) (hf : ∀ a, Spec D (B a) (f a) C R) : Spec D A (p >>= f) C R := by
  refine Prog.Triple.bind hp ?_
  rintro (_ | a)
  · exact Spec.raise hR
  · exact hf a

theorem Spec.attempt {f : σ → Option α × σ} (hl : D.site l) (ha : Prog.Stable D A)
    (hb : ∀ a, Prog.Stable D (B a)) (hR : Prog.Stable D R)
    (h : ∀ s, A s → D.on l s →
      D.may l s (f s).2 ∧ (f s).1.elim (R (f s).2) fun a => B a (f s).2) :
    Spec D A (attempt l f) B R := by
  refine Prog.Triple.atomic hl ha ?_ h
  rintro (_ | a)
  · exact hR
  · exact hb a

theorem Spec.atomic {f : σ → α × σ} (hl : D.site l) (ha : Prog.Stable D A)
    (hb : ∀ a, Prog.Stable D (B a)) (hR : Prog.Stable D R)
    (h : ∀ s, A s → D.on l s → D.may l s (f s).2 ∧ B (f s).1 (f s).2) :
    Spec D A (atomic l f) B R :=
  Spec.attempt hl ha hb hR h

theorem Spec.pre {p : Raise L σ α} (h : Spec D A p B R) (ha : ∀ s, A' s → A s) :
    Spec D A' p B R := fun s hs => h s (ha s hs)

/-- `J` is said of the elements still to come. -/
theorem Spec.forEach {J : List α → σ → Prop} {f : α → Raise L σ Unit}
    (hJ : ∀ xs, Prog.Stable D (J xs)) (hR : Prog.Stable D R)
    (h : ∀ x xs, Spec D (J (x :: xs)) (f x) (fun _ => J xs) R) (xs : List α) :
    Spec D (J xs) (forEach xs f) (fun _ => J []) R := by
  induction xs with
  | nil => exact Spec.pure (B := fun _ => J []) (hJ [])
  | cons x xs ih => exact Spec.bind hR (h x xs) fun _ => ih

theorem Spec.forUntil {f : α → Raise L σ Bool} (ha' : Prog.Stable D A')
    (hR : Prog.Stable D R) (hend : ∀ s, A s → A' s)
    (h : ∀ x, Spec D A (f x) (fun stop => if stop then A' else A) R) (xs : List α) :
    Spec D A (forUntil xs f) (fun _ => A') R := by
  induction xs with
  | nil => exact (Spec.pure (B := fun _ => A') ha').pre hend
  | cons x xs ih =>
    refine Spec.bind hR (h x) ?_
    rintro (_ | _)
    · exact ih
    · exact Spec.pure (B := fun _ => A') ha'

end

end Raise

end Atomic
