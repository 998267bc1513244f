import Mathlib.Data.List.Pairwise

/-!
# A slot for the latest value

A slot keeps one value until it is taken for sending. Puts are numbered and
overwrite what is stored; a take may fill an empty slot; a value that could
not be sent goes back unless a newer one is stored by then. The puts that
were accepted, the one in flight and the one stored stand in one line, which
stays in order and ends with the latest put as long as nothing is lost
(`InLine`). Once something was accepted no filler is left (`Filled`).
-/

namespace Atomic

inductive Origin where
  | filler
  | put (n : Nat)
  deriving DecidableEq, Repr

def Origin.put? : Origin → Option Nat
  | .filler => none
  | .put n => some n

/-- One slot of a sender. `next` numbers the puts of all its slots; `settled`
tells that something was accepted since the last opening. -/
structure Slot where
  next : Nat
  latest : Option Nat
  stored : Option Origin
  flying : Bool
  flight : Option Origin
  accepted : List Nat
  settled : Bool
  deriving DecidableEq, Repr

namespace Slot

def puts (o : Option Origin) : List Nat := (o.bind Origin.put?).toList

/-- The steps of a slot; without `lossless` the stored value may be dropped
and what is accepted need not be the value in flight. -/
inductive Step (lossless : Bool) : Slot → Slot → Prop
  | idle : Step lossless s s
  | put : Step lossless s { s with
      next := s.next + 1, latest := some s.next, stored := some (.put s.next) }
  /-- A put into another slot. -/
  | skip : Step lossless s { s with next := s.next + 1 }
  | opening : Step lossless s { s with settled := false }
  /-- An empty slot may be filled before anything is accepted. -/
  | take (fill : Bool) (hf : s.flying = false) (hfill : fill = true → s.settled = false) :
    Step lossless s { s with
      stored := none, flying := true
      flight := s.stored.or (if fill then some .filler else none) }
  | accept (hf : s.flying = true) (hgot : lossless = true → got = puts s.flight) :
    Step lossless s { s with
      flying := false, flight := none, settled := true, accepted := s.accepted ++ got }
  | restore (hf : s.flying = true) : Step lossless s { s with
      stored := s.stored.or s.flight, flying := false, flight := none }
  | drop (hl : lossless = false) : Step lossless s { s with stored := none }

def line (s : Slot) : List Nat := s.accepted ++ puts s.flight ++ puts s.stored

structure Filled (s : Slot) : Prop where
  grounded : s.flying = false → s.flight = none
  fresh : s.flying = true → s.stored ≠ some .filler
  settled : s.settled = true → s.stored ≠ some .filler ∧ s.flight ≠ some .filler

structure InLine (s : Slot) : Prop where
  ordered : s.line.Pairwise (· < ·)
  bound : ∀ n ∈ s.line, n < s.next
  latest : s.latest = s.line.getLast?

@[simp] theorem puts_none : puts none = [] := rfl

@[simp] theorem puts_put (n : Nat) : puts (some (.put n)) = [n] := rfl

theorem puts_cases (o : Option Origin) : puts o = [] ∨ ∃ n, o = some (.put n) := by
  rcases o with _ | _ | n
  · exact .inl rfl
  · exact .inl rfl
  · exact .inr ⟨n, rfl⟩

-- ---------------------------------------------------------------------------
-- Fillers
-- ---------------------------------------------------------------------------

theorem Filled.step (h : Filled s) (hs : Step lossless s t) : Filled t := by
  cases hs with
  | idle => exact h
  | put => exact ⟨h.grounded, fun _ => nofun, fun hs => ⟨nofun, (h.settled hs).2⟩⟩
  | skip => exact ⟨h.grounded, h.fresh, h.settled⟩
  | opening => exact ⟨h.grounded, h.fresh, nofun⟩
  | take fill hf hfill =>
    refine ⟨nofun, fun _ => nofun, fun hs => ⟨nofun, ?_⟩⟩
    have hstored := (h.settled hs).1
    cases fill with
    | true => exact absurd (hs.symm.trans (hfill rfl)) nofun
    | false => simpa using hstored
  | accept hf => exact ⟨fun _ => rfl, nofun, fun _ => ⟨h.fresh hf, nofun⟩⟩
  | restore hf =>
    refine ⟨fun _ => rfl, nofun, fun hs => ⟨?_, nofun⟩⟩
    obtain ⟨hstored, hflight⟩ := h.settled hs
    cases hst : s.stored with
    | none => simpa using hflight
    | some o => simpa [hst] using hstored
  | drop => exact ⟨h.grounded, fun _ => nofun, fun hs => ⟨nofun, (h.settled hs).2⟩⟩

-- ---------------------------------------------------------------------------
-- The line
-- ---------------------------------------------------------------------------

theorem InLine.of_line (h : InLine s) (hline : t.line = s.line) (hnext : t.next = s.next)
    (hlatest : t.latest = s.latest) : InLine t :=
  ⟨hline ▸ h.ordered, hline ▸ hnext ▸ h.bound, hline ▸ hlatest ▸ h.latest⟩

theorem InLine.put (h : InLine s) : InLine { s with
    next := s.next + 1, latest := some s.next, stored := some (.put s.next) } := by
  have hsub : (s.accepted ++ puts s.flight).Sublist s.line := List.sublist_append_left ..
  have hbound : ∀ n ∈ s.accepted ++ puts s.flight, n < s.next :=
    fun n hn => h.bound n (hsub.subset hn)
  refine ⟨?_, ?_, by simp [line]⟩
  · simp only [line, puts_put]
    refine List.pairwise_append.mpr ⟨h.ordered.sublist hsub, List.pairwise_singleton .., ?_⟩
    intro a ha b hb
    obtain rfl := List.mem_singleton.mp hb
    exact hbound a ha
  · simp only [line, puts_put]
    intro n hn
    rcases List.mem_append.mp hn with hn | hn
    · exact Nat.lt_succ_of_lt (hbound n hn)
    · obtain rfl := List.mem_singleton.mp hn
      exact Nat.lt_succ_self _

theorem InLine.restore (h : InLine s) (hfresh : s.stored ≠ some .filler) : InLine { s with
    stored := s.stored.or s.flight, flying := false, flight := none } := by
  obtain ⟨next, latest, stored, flying, flight, accepted, settled⟩ := s
  rcases stored with _ | _ | n
  · -- the value in flight takes the free place
    exact h.of_line (by simp [line]) rfl rfl
  · exact absurd rfl hfresh
  · -- a newer value is stored, and the one in flight is dropped
    have hsub : (line ⟨next, latest, some (.put n), false, none, accepted, settled⟩).Sublist
        (line ⟨next, latest, some (.put n), flying, flight, accepted, settled⟩) := by
      simp [line]
    refine ⟨h.ordered.sublist hsub, fun n hn => h.bound n (hsub.subset hn), ?_⟩
    have hlatest := h.latest
    simp only [line, puts_put, List.getLast?_concat] at hlatest
    simpa [line] using hlatest

theorem InLine.step (h : InLine s) (hf : Filled s) (hs : Step true s t) : InLine t := by
  cases hs with
  | idle => exact h
  | put => exact h.put
  | skip => exact ⟨h.ordered, fun n hn => Nat.lt_succ_of_lt (h.bound n hn), h.latest⟩
  | opening => exact h.of_line rfl rfl rfl
  | take fill hfly =>
    refine h.of_line ?_ rfl rfl
    have hputs : puts (s.stored.or (if fill then some .filler else none)) = puts s.stored := by
      cases s.stored <;> cases fill <;> rfl
    simp [line, hputs, hf.grounded hfly]
  | accept hfly hgot =>
    obtain rfl := hgot rfl
    exact h.of_line (by simp [line]) rfl rfl
  | restore hfly => exact h.restore (hf.fresh hfly)
  | drop hl => cases hl

theorem InLine.latest_cases (h : InLine s) (hl : s.latest = some n) :
    s.stored = some (.put n) ∨ s.flight = some (.put n) ∨ s.accepted.getLast? = some n := by
  have hlast : s.line.getLast? = some n := h.latest.symm.trans hl
  unfold line at hlast
  rcases puts_cases s.stored with hstored | ⟨m, hstored⟩
  · rcases puts_cases s.flight with hflight | ⟨m, hflight⟩
    · rw [hstored, hflight, List.append_nil, List.append_nil] at hlast
      exact .inr (.inr hlast)
    · simp [hstored, hflight] at hlast
      exact .inr (.inl (hlast ▸ hflight))
  · simp [hstored] at hlast
    exact .inl (hlast ▸ hstored)

theorem InLine.accepted_ordered (h : InLine s) : s.accepted.Pairwise (· < ·) :=
  h.ordered.sublist ((List.sublist_append_left ..).trans (List.sublist_append_left ..))

theorem InLine.flight_of_latest (h : InLine s) (hl : s.latest = none) : puts s.flight = [] := by
  have hline : s.line = [] := List.getLast?_eq_none_iff.mp (h.latest.symm.trans hl)
  simp only [line, List.append_eq_nil_iff] at hline
  exact hline.1.2

end Slot

end Atomic
