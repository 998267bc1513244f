import Mathlib.Data.List.Basic

/-!
# Logs that grow at the end

`Linked R l`: every element of the log is related to the one right before it
(`none` for the first). `Preceded P Q l`: every `P` element stands right after
a `Q` element. `lastOf f l`: the last of the values that `f` takes from the
log. `Separated P Q l`: between two `P` elements there is a `Q` element. The
log grows by one element at a time, so the rules to use are `Linked.snoc`,
`Preceded.snoc`, `lastOf_snoc` and `Separated.snoc`.
-/

namespace Atomic

variable {α : Type} {R : Option α → α → Prop} {P Q : α → Prop} {l : List α}

def Linked (R : Option α → α → Prop) (l : List α) : Prop :=
  ∀ before a after, l = before ++ a :: after → R before.getLast? a

theorem Linked.nil : Linked R [] := by
  intro before a after h
  simp at h

theorem Linked.snoc (h : Linked R l) (ha : R l.getLast? a) : Linked R (l ++ [a]) := by
  intro before x after hl
  rcases List.eq_nil_or_concat after with rfl | ⟨rest, y, rfl⟩
  · obtain ⟨rfl, hax⟩ := List.append_inj' hl rfl
    obtain rfl : a = x := by simpa using hax
    exact ha
  · have hl' : l ++ [a] = (before ++ x :: rest) ++ [y] := by simpa using hl
    exact h before x rest (List.append_inj' hl' rfl).1

theorem Linked.mono {R' : Option α → α → Prop} (h : Linked R l) (hr : ∀ b a, R b a → R' b a) :
    Linked R' l :=
  fun before a after hl => hr _ _ (h before a after hl)

theorem Linked.append {as : List α} (h : Linked R l) (has : ∀ a ∈ as, ∀ before, R before a) :
    Linked R (l ++ as) := by
  induction as generalizing l with
  | nil => rwa [List.append_nil]
  | cons a as ih =>
    have hsnoc := ih (h.snoc (has a List.mem_cons_self _)) fun b hb => has b (List.mem_cons_of_mem _ hb)
    rwa [List.append_assoc] at hsnoc

theorem Linked.next (h : Linked R (before ++ a :: b :: after)) : R (some a) b := by
  have hb := h (before ++ [a]) b after (by simp)
  simpa using hb

def Preceded (P Q : α → Prop) (l : List α) : Prop :=
  ∀ before a after, l = before ++ a :: after → P a → ∃ b, before.getLast? = some b ∧ Q b

theorem Preceded.nil : Preceded P Q [] :=
  Linked.nil (R := fun before a => P a → ∃ b, before = some b ∧ Q b)

theorem Preceded.snoc (h : Preceded P Q l) (ha : P a → ∃ b, l.getLast? = some b ∧ Q b) :
    Preceded P Q (l ++ [a]) :=
  Linked.snoc (R := fun before a => P a → ∃ b, before = some b ∧ Q b) h ha

def lastOf (f : α → Option β) (l : List α) : Option β := (l.filterMap f).getLast?

theorem lastOf_snoc (f : α → Option β) (l : List α) (a : α) :
    lastOf f (l ++ [a]) = (f a).or (lastOf f l) := by
  unfold lastOf
  rw [List.filterMap_append]
  cases h : f a with
  | none => simp [h]
  | some b => simp [h]

def Separated (P Q : α → Prop) (l : List α) : Prop :=
  ∀ before a mid b after, l = before ++ a :: (mid ++ b :: after) → P a → P b → ∃ c ∈ mid, Q c

/-- A `P` element that no `Q` element has followed yet. -/
def Pending (P Q : α → Prop) (l : List α) : Prop :=
  ∃ before a after, l = before ++ a :: after ∧ P a ∧ ∀ c ∈ after, ¬Q c

theorem Separated.nil : Separated P Q [] := by
  intro before a mid b after h
  simp at h

theorem Separated.snoc (h : Separated P Q l) (ha : P a → ¬Pending P Q l) : Separated P Q (l ++ [a]) := by
  intro before x mid y after hl hx hy
  rcases List.eq_nil_or_concat after with rfl | ⟨rest, z, rfl⟩
  · have hl' : l ++ [a] = (before ++ x :: mid) ++ [y] := by simpa using hl
    obtain ⟨rfl, hay⟩ := List.append_inj' hl' rfl
    obtain rfl : a = y := by simpa using hay
    by_contra hnone
    exact ha hy ⟨before, x, mid, rfl, hx, fun c hc hq => hnone ⟨c, hc, hq⟩⟩
  · have hl' : l ++ [a] = (before ++ x :: (mid ++ y :: rest)) ++ [z] := by simpa using hl
    exact h before x mid y rest (List.append_inj' hl' rfl).1 hx hy

theorem Separated.mono {Q' : α → Prop} (h : Separated P Q l) (hq : ∀ c, Q c → Q' c) : Separated P Q' l := by
  intro before a mid b after hl ha hb
  obtain ⟨c, hc, hqc⟩ := h before a mid b after hl ha hb
  exact ⟨c, hc, hq c hqc⟩

theorem not_pending_nil : ¬Pending P Q [] := by
  rintro ⟨before, a, after, h, -, -⟩
  simp at h

theorem Pending.of_snoc (h : Pending P Q (l ++ [a])) : P a ∨ Pending P Q l ∧ ¬Q a := by
  obtain ⟨before, x, after, hl, hx, hnone⟩ := h
  rcases List.eq_nil_or_concat after with rfl | ⟨rest, z, rfl⟩
  · obtain ⟨-, hax⟩ := List.append_inj' hl rfl
    obtain rfl : a = x := by simpa using hax
    exact .inl hx
  · have hl' : l ++ [a] = (before ++ x :: rest) ++ [z] := by simpa using hl
    obtain ⟨rfl, haz⟩ := List.append_inj' hl' rfl
    obtain rfl : a = z := by simpa using haz
    refine .inr ⟨⟨before, x, rest, rfl, hx, fun c hc => hnone c ?_⟩, hnone a ?_⟩
    · simp [hc]
    · simp

end Atomic
