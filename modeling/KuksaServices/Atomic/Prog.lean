import KuksaServices.Atomic.Runs

/-!
# Programs of atomic actions

A thread's program is a tree of atomic actions on a shared state. Every
action carries the site it stands at, updates the state in one step, and
chooses the rest of the program from the state it found. The same text is
run alone (`exec`), with fixed work done by others at given sites
(`execAmid`), or action by action between the actions of other threads.

`Holds` is the rely rule: whatever the others do within the discipline
before each action, the program keeps to it and ends in `Q`.
-/

namespace Atomic

variable {L σ α β : Type}

inductive Prog (L σ α : Type) where
  | ret (a : α)
  | act (site : L) (upd : σ → σ) (next : σ → Prog L σ α)

namespace Prog

def bind : Prog L σ α → (α → Prog L σ β) → Prog L σ β
  | .ret a, f => f a
  | .act l upd next, f => .act l upd fun s => (next s).bind f

instance : Monad (Prog L σ) where
  pure := .ret
  bind := bind

/-- One action that reads the state, updates it and returns a value. -/
def atomic (l : L) (f : σ → α × σ) : Prog L σ α :=
  .act l (fun s => (f s).2) fun s => .ret (f s).1

def peek (l : L) (f : σ → α) : Prog L σ α := atomic l fun s => (f s, s)

def pause (l : L) : Prog L σ Unit := atomic l fun s => ((), s)

def site? : Prog L σ α → Option L
  | .ret _ => none
  | .act l _ _ => some l

theorem bind_assoc (p : Prog L σ α) (f : α → Prog L σ β) (g : β → Prog L σ γ) :
    p >>= f >>= g = p >>= fun a => f a >>= g := by
  induction p with
  | ret a => rfl
  | act l upd next ih => exact congrArg (Prog.act l upd) (funext ih)

def void (p : Prog L σ α) : Prog L σ Unit := p >>= fun _ => pure ()

theorem void_bind (p : Prog L σ α) (f : α → Prog L σ β) :
    void (p >>= f) = p >>= fun a => void (f a) := bind_assoc p f _

-- ---------------------------------------------------------------------------
-- Running alone
-- ---------------------------------------------------------------------------

def exec : Prog L σ α → σ → α × σ
  | .ret a, s => (a, s)
  | .act _ upd next, s => (next s).exec (upd s)

-- not tagged as definitional, so that simp rewrites the instance of a test along with it
@[simp] theorem exec_pure (a : α) (s : σ) : (pure a : Prog L σ α).exec s = (a, s) := (rfl)

@[simp] theorem exec_bind (p : Prog L σ α) (f : α → Prog L σ β) (s : σ) :
    (p >>= f).exec s = (f (p.exec s).1).exec (p.exec s).2 := by
  induction p generalizing s with
  | ret a => rfl
  | act l upd next ih => exact ih s (upd s)

@[simp] theorem exec_atomic (l : L) (f : σ → α × σ) (s : σ) : (atomic l f).exec s = f s := (rfl)

@[simp] theorem exec_peek (l : L) (f : σ → α) (s : σ) : (peek l f).exec s = (f s, s) := (rfl)

@[simp] theorem exec_pause (l : L) (s : σ) : (pause l).exec s = ((), s) := (rfl)

@[simp] theorem exec_ite [Decidable c] (p q : Prog L σ α) (s : σ) :
    (if c then p else q).exec s = if c then p.exec s else q.exec s := by
  split <;> rfl

/-- `env l` is the work the other threads do just before the action at `l`. -/
def execAmid (env : L → σ → σ) : Prog L σ α → σ → α × σ
  | .ret a, s => (a, s)
  | .act l upd next, s => (next (env l s)).execAmid env (upd (env l s))

section
variable (env : L → σ → σ)

@[simp] theorem execAmid_pure (a : α) (s : σ) :
    (pure a : Prog L σ α).execAmid env s = (a, s) := (rfl)

@[simp] theorem execAmid_bind (p : Prog L σ α) (f : α → Prog L σ β) (s : σ) :
    (p >>= f).execAmid env s = (f (p.execAmid env s).1).execAmid env (p.execAmid env s).2 := by
  induction p generalizing s with
  | ret a => rfl
  | act l upd next ih => exact ih (env l s) (upd (env l s))

@[simp] theorem execAmid_atomic (l : L) (f : σ → α × σ) (s : σ) :
    (atomic l f).execAmid env s = f (env l s) := (rfl)

@[simp] theorem execAmid_peek (l : L) (f : σ → α) (s : σ) :
    (peek l f).execAmid env s = (f (env l s), env l s) := (rfl)

@[simp] theorem execAmid_pause (l : L) (s : σ) : (pause l).execAmid env s = ((), env l s) := (rfl)

@[simp] theorem execAmid_ite [Decidable c] (p q : Prog L σ α) (s : σ) :
    (if c then p else q).execAmid env s = if c then p.execAmid env s else q.execAmid env s := by
  split <;> rfl

def visits : Prog L σ α → σ → List (L × σ)
  | .ret _, _ => []
  | .act l upd next, s => (l, env l s) :: (next (env l s)).visits (upd (env l s))

@[simp] theorem visits_pure (a : α) (s : σ) : (pure a : Prog L σ α).visits env s = [] := (rfl)

@[simp] theorem visits_bind (p : Prog L σ α) (f : α → Prog L σ β) (s : σ) :
    (p >>= f).visits env s =
      p.visits env s ++ (f (p.execAmid env s).1).visits env (p.execAmid env s).2 := by
  induction p generalizing s with
  | ret a => rfl
  | act l upd next ih => exact congrArg _ (ih (env l s) (upd (env l s)))

@[simp] theorem visits_atomic (l : L) (f : σ → α × σ) (s : σ) :
    (atomic l f).visits env s = [(l, env l s)] := (rfl)

end

-- ---------------------------------------------------------------------------
-- Running amid interference
-- ---------------------------------------------------------------------------

end Prog

/-- What a thread relies on and keeps to: it acts at a `site` only, `rely` is
what the others do between two of its actions, `may` what its action at a
site does, and `on` when that action can be taken. -/
structure Discipline (L σ : Type) where
  site : L → Prop
  rely : σ → σ → Prop
  rely_refl : ∀ s, rely s s
  rely_trans : ∀ {a b c}, rely a b → rely b c → rely a c
  may : L → σ → σ → Prop
  on : L → σ → Prop

def Discipline.keeping (A : σ → Prop) : Discipline L σ where
  site _ := True
  rely s t := A s → A t
  rely_refl _ h := h
  rely_trans h h' ha := h' (h ha)
  may _ _ _ := True
  on _ _ := True

def Discipline.within (S : L → Prop) (A : σ → Prop) : Discipline L σ where
  site := S
  rely s t := A s → A t
  rely_refl _ h := h
  rely_trans h h' ha := h' (h ha)
  may _ s t := A s → A t
  on _ _ := True

namespace Prog

variable {D : Discipline L σ} {Q Q' : α → σ → Prop}

/-- From `s`, amid steps of the others before every action and at the end,
every action does what it may and the program ends in `Q`. -/
def Holds (D : Discipline L σ) (Q : α → σ → Prop) : Prog L σ α → σ → Prop
  | .ret a, s => ∀ t, D.rely s t → Q a t
  | .act l upd next, s => D.site l ∧ ∀ t, D.rely s t → D.on l t →
    D.may l t (upd t) ∧ (next t).Holds D Q (upd t)

theorem Holds.mono (hq : ∀ a s, Q a s → Q' a s) {p : Prog L σ α} (h : p.Holds D Q s) :
    p.Holds D Q' s := by
  induction p generalizing s with
  | ret a => exact fun t ht => hq a t (h t ht)
  | act l upd next ih =>
    refine ⟨h.1, fun t ht hon => ?_⟩
    obtain ⟨hmay, h⟩ := h.2 t ht hon
    exact ⟨hmay, ih t h⟩

theorem Holds.stable {p : Prog L σ α} (h : p.Holds D Q s) (hr : D.rely s t) : p.Holds D Q t := by
  cases p with
  | ret a => exact fun u hu => h u (D.rely_trans hr hu)
  | act l upd next => exact ⟨h.1, fun u hu => h.2 u (D.rely_trans hr hu)⟩

theorem Holds.bind {p : Prog L σ α} {f : α → Prog L σ β} {Q : β → σ → Prop}
    (h : p.Holds D (fun a s => (f a).Holds D Q s) s) : (p >>= f).Holds D Q s := by
  induction p generalizing s with
  | ret a => exact h s (D.rely_refl s)
  | act l upd next ih =>
    refine ⟨h.1, fun t ht hon => ?_⟩
    obtain ⟨hmay, h⟩ := h.2 t ht hon
    exact ⟨hmay, ih t h⟩

def Stable (D : Discipline L σ) (A : σ → Prop) : Prop := ∀ s t, A s → D.rely s t → A t

def Triple (D : Discipline L σ) (A : σ → Prop) (p : Prog L σ α) (B : α → σ → Prop) : Prop :=
  ∀ s, A s → p.Holds D B s

section
variable {A A' : σ → Prop} {B B' : α → σ → Prop} {C : β → σ → Prop}

theorem Triple.pure (hb : Stable D (B a)) : Triple D (B a) (pure a : Prog L σ α) B :=
  fun s h t hr => hb s t h hr

theorem Triple.bind {p : Prog L σ α} {f : α → Prog L σ β} (hp : Triple D A p B)
    (hf : ∀ a, Triple D (B a) (f a) C) : Triple D A (p >>= f) C := by
  intro s h
  apply Holds.bind
  exact (hp s h).mono fun a t hb => hf a t hb

theorem Triple.atomic {f : σ → α × σ} (hl : D.site l) (ha : Stable D A) (hb : ∀ a, Stable D (B a))
    (h : ∀ s, A s → D.on l s → D.may l s (f s).2 ∧ B (f s).1 (f s).2) :
    Triple D A (atomic l f) B := by
  intro s hs
  refine ⟨hl, fun t ht hon => ?_⟩
  obtain ⟨hmay, h⟩ := h t (ha s t hs ht) hon
  exact ⟨hmay, fun u hu => hb _ _ u h hu⟩

theorem Triple.conseq {p : Prog L σ α} (h : Triple D A p B) (ha : ∀ s, A' s → A s)
    (hb : ∀ a s, B a s → B' a s) : Triple D A' p B' :=
  fun s hs => (h s (ha s hs)).mono hb

end

theorem Holds.execAmid (hon : ∀ l s, D.on l s) (henv : ∀ l s, D.rely s (env l s)) {p : Prog L σ α}
    (h : p.Holds D Q s) : Q (p.execAmid env s).1 (p.execAmid env s).2 := by
  induction p generalizing s with
  | ret a => exact h s (D.rely_refl s)
  | act l upd next ih => exact ih (env l s) (h.2 (env l s) (henv l s) (hon l _)).2

theorem Holds.exec (hon : ∀ l s, D.on l s) {p : Prog L σ α} (h : p.Holds D Q s) :
    Q (p.exec s).1 (p.exec s).2 := by
  induction p generalizing s with
  | ret a => exact h s (D.rely_refl s)
  | act l upd next ih => exact ih s (h.2 s (D.rely_refl s) (hon l s)).2

def Preserves (A : σ → Prop) (p : Prog L σ α) : Prop := Triple (.keeping A) A p fun _ => A

section
variable {A : σ → Prop}

theorem Preserves.pure (a : α) : Preserves A (pure a : Prog L σ α) :=
  Triple.pure (B := fun _ => A) fun _ _ h hr => hr h

theorem Preserves.bind {p : Prog L σ α} {f : α → Prog L σ β} (hp : Preserves A p)
    (hf : ∀ a, Preserves A (f a)) : Preserves A (p >>= f) :=
  Triple.bind hp hf

theorem Preserves.atomic {f : σ → α × σ} (h : ∀ s, A s → A (f s).2) :
    Preserves A (Prog.atomic l f) :=
  Triple.atomic trivial (fun _ _ h hr => hr h) (fun _ _ _ h hr => hr h) fun s hs _ => ⟨trivial, h s hs⟩

theorem Preserves.peek (l : L) (f : σ → α) : Preserves A (peek l f) := .atomic fun _ h => h

theorem Preserves.pause (l : L) : Preserves A (pause l) := .atomic fun _ h => h

theorem Preserves.execAmid {p : Prog L σ α} (hp : Preserves A p)
    (henv : ∀ l s, A s → A (env l s)) (h : A s) : A (p.execAmid env s).2 :=
  (hp s h).execAmid (fun _ _ => trivial) henv

theorem Preserves.exec {p : Prog L σ α} (hp : Preserves A p) (h : A s) : A (p.exec s).2 :=
  (hp s h).exec fun _ _ => trivial

end

/-- Every action stands at a site of `S` and keeps `A`, amid others that keep
it: the intermediate states are those of `A` too. -/
def Within (S : L → Prop) (A : σ → Prop) (p : Prog L σ α) : Prop :=
  Triple (.within S A) A p fun _ => A

section
variable {S : L → Prop} {A : σ → Prop}

theorem Within.pure (a : α) : Within S A (pure a : Prog L σ α) :=
  Triple.pure (B := fun _ => A) fun _ _ h hr => hr h

theorem Within.bind {p : Prog L σ α} {f : α → Prog L σ β} (hp : Within S A p)
    (hf : ∀ a, Within S A (f a)) : Within S A (p >>= f) :=
  Triple.bind hp hf

theorem Within.atomic {f : σ → α × σ} (hl : S l) (h : ∀ s, A s → A (f s).2) :
    Within S A (Prog.atomic l f) :=
  Triple.atomic hl (fun _ _ h hr => hr h) (fun _ _ _ h hr => hr h) fun s hs _ => ⟨h s, h s hs⟩

theorem Within.execAmid {p : Prog L σ α} (hp : Within S A p)
    (henv : ∀ l s, A s → A (env l s)) (h : A s) : A (p.execAmid env s).2 :=
  (hp s h).execAmid (fun _ _ => trivial) henv

theorem Within.visits {p : Prog L σ α} (hp : Within S A p)
    (henv : ∀ l s, A s → A (env l s)) (h : A s) : ∀ v ∈ p.visits env s, S v.1 ∧ A v.2 := by
  have hholds := hp s h
  clear hp
  induction p generalizing s with
  | ret a =>
    intro v hv
    cases hv
  | act l upd next ih =>
    obtain ⟨hl, hnext⟩ := hholds
    obtain ⟨hmay, hnext⟩ := hnext (env l s) (henv l s) trivial
    have hfound := henv l s h
    rintro v (_ | ⟨_, hv⟩)
    · exact ⟨hl, hfound⟩
    · exact ih (env l s) (hmay hfound) hnext v hv

end

end Prog

end Atomic
