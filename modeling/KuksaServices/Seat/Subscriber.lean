import Mathlib.Data.List.DropRight
import KuksaServices.Feeder.Feeder
import KuksaServices.Seat.Positions

/-!
# The life of the subscriber

`SeatPositionSubscriber::Run` subscribes again and again, and gives up when
the path was not found too often. An attempt that finishes with OK resets the
count of failures. One that has delivered responses and then ends with an
error, as when the broker restarts, does not, so the failures of the whole
life of the service add up.
-/

namespace KuksaServices.Seat

open Atomic (run Along Throughout throughout_iff_along)
open Feeder (Reply)

-- ---------------------------------------------------------------------------
-- The loop
-- ---------------------------------------------------------------------------

structure Attempt where
  responses : Nat
  status : Reply Unit
  deriving DecidableEq, Repr

def Attempt.finishedOk (a : Attempt) : Bool := a.status.isOk

def Attempt.notFound (a : Attempt) : Bool := a.status == .error .notFound

namespace SeatPositionSubscriber

inductive Place where
  | start
  | loop
  | connecting
  | reading
  | exited
  deriving DecidableEq, Repr

/-- `aborted` tells that `Run` has cleared `running_` itself; it and the
attempts are not in the code. -/
structure State (σ : Type) where
  running : Bool
  failures : Nat
  place : Place
  adjuster : σ
  responses : Nat
  attempts : List Attempt
  aborted : Bool

def State.initial (adjuster : σ) : State σ := ⟨false, 0, .start, adjuster, 0, [], false⟩

/-- What `Run` meets, and the call of `Shutdown`; that call also cancels a
subscription, which then finishes. -/
inductive Input where
  | go
  | waitForConnected (connected : Bool)
  | response (updates : List EntryUpdate)
  | finish (status : Reply Unit)
  | shutdown
  deriving DecidableEq, Repr

def finished (status : Reply Unit) (s : State σ) : State σ :=
  let s := { s with attempts := s.attempts ++ [⟨s.responses, status⟩], place := .loop }
  match status with
  | .ok _ => { s with failures := 0 }
  | .error .notFound =>
    let s := { s with failures := s.failures + 1 }
    if s.failures > 3 then { s with running := false, place := .exited, aborted := true } else s
  | .error _ => s

variable (adj : SeatAdjuster σ) (seatPosName : String)

def step (s : State σ) (input : Input) : Option (State σ) :=
  match s.place, input with
  | _, .shutdown => some { s with running := false }
  | .start, .go => some { s with running := true, failures := 0, place := .loop }
  | .loop, .go => some { s with place := if s.running then .connecting else .exited }
  | .connecting, .waitForConnected connected => some { s with
      place := if connected then .reading else .loop, responses := 0 }
  | .reading, .response updates => some { s with
      adjuster := onUpdates adj seatPosName s.adjuster updates, responses := s.responses + 1 }
  | .reading, .finish status => some (finished status s)
  | _, _ => none

end SeatPositionSubscriber

open SeatPositionSubscriber

-- ---------------------------------------------------------------------------
-- Giving up
-- ---------------------------------------------------------------------------

/-- Four attempts at least have ended without the path; between the first and
the last of them no attempt finished with OK or delivered a response. -/
def PathMissing (tried : List Attempt) : Prop :=
  ∃ earlier first between last, tried = earlier ++ first :: between ++ [last] ∧
    first.notFound = true ∧ last.notFound = true ∧ 2 ≤ between.countP Attempt.notFound ∧
    ∀ a ∈ between, a.finishedOk = false ∧ a.responses = 0

def GivesUpRightly (s : State σ) : Prop := s.aborted = true → PathMissing s.attempts

def sinceOk (attempts : List Attempt) : List Attempt := attempts.rtakeWhile (!·.finishedOk)

def sinceMissing (attempts : List Attempt) : List Attempt :=
  ((sinceOk attempts).dropWhile (!·.notFound)).tail

/-- When the path is not found for the fourth time since an attempt finished
with OK, no attempt since the first time has delivered a response. -/
def NothingSince (s : State σ) : Input → Prop
  | .finish (.error .notFound) => (sinceOk s.attempts).countP Attempt.notFound = 3 →
    ∀ a ∈ sinceMissing s.attempts, a.responses = 0
  | _ => True

section
variable {tried later : List Attempt} {a last : Attempt}

theorem sinceOk_snoc (tried : List Attempt) (a : Attempt) :
    sinceOk (tried ++ [a]) = if a.finishedOk then [] else sinceOk tried ++ [a] := by
  unfold sinceOk
  rw [List.rtakeWhile_concat]
  cases a.finishedOk <;> rfl

theorem sinceOk_append (h : ∀ a ∈ later, a.finishedOk = false) :
    sinceOk (tried ++ later) = sinceOk tried ++ later := by
  induction later using List.reverseRecOn with
  | nil => simp
  | append_singleton later a ih =>
    rw [← List.append_assoc, sinceOk_snoc, h a (by simp),
      ih fun b hb => h b (List.mem_append_left _ hb)]
    simp

theorem finishedOk_of_mem_sinceOk (h : a ∈ sinceOk tried) : a.finishedOk = false := by
  simpa using List.mem_rtakeWhile_imp h

theorem Attempt.finishedOk_of_notFound (h : a.notFound = true) : a.finishedOk = false := by
  unfold Attempt.notFound at h
  simp [Attempt.finishedOk, beq_iff_eq.mp h, Reply.isOk]

/-- The attempts since the last OK: those that did not miss the path, the
first that did, and the rest. -/
theorem sinceOk_split (h : 0 < (sinceOk tried).countP Attempt.notFound) :
    ∃ before first, sinceOk tried = before ++ first :: sinceMissing tried ∧
      before.countP Attempt.notFound = 0 ∧ first.notFound = true := by
  have hsplit := List.takeWhile_append_dropWhile (p := (!Attempt.notFound ·)) (l := sinceOk tried)
  have hbefore : ((sinceOk tried).takeWhile (!Attempt.notFound ·)).countP Attempt.notFound = 0 := by
    rw [List.countP_eq_zero]
    intro b hb
    simpa using List.mem_takeWhile_imp hb
  cases hdrop : (sinceOk tried).dropWhile (!Attempt.notFound ·) with
  | nil =>
    rw [hdrop, List.append_nil] at hsplit
    rw [hsplit] at hbefore
    omega
  | cons first rest =>
    have hfirst := List.head?_dropWhile_not (!Attempt.notFound ·) (sinceOk tried)
    simp only [hdrop, List.head?_cons] at hfirst
    refine ⟨_, first, ?_, hbefore, by simpa using hfirst⟩
    rw [sinceMissing, hdrop, List.tail_cons, ← hdrop, hsplit]

theorem pathMissing_iff (hlast : last.notFound = true)
    (hthree : (sinceOk tried).countP Attempt.notFound = 3) :
    PathMissing (tried ++ [last]) ↔ ∀ a ∈ sinceMissing tried, a.responses = 0 := by
  constructor
  · rintro ⟨earlier, first, between, last', hattempts, hfirst, -, htwo, hbetween⟩
    obtain ⟨hattempts, -⟩ := List.append_inj' hattempts rfl
    have hnot : ∀ a ∈ first :: between, a.finishedOk = false := by
      intro a ha
      rcases List.mem_cons.mp ha with rfl | ha
      · exact Attempt.finishedOk_of_notFound hfirst
      · exact (hbetween a ha).1
    have hsince : sinceOk tried = sinceOk earlier ++ first :: between := by
      rw [hattempts]
      exact sinceOk_append hnot
    rw [hsince, List.countP_append, List.countP_cons_of_pos hfirst] at hthree
    -- the first three are those, so none is missing before
    have hnone : ∀ a ∈ sinceOk earlier, a.notFound = false := by
      have hzero : (sinceOk earlier).countP Attempt.notFound = 0 := by omega
      simpa using List.countP_eq_zero.mp hzero
    have hdrop : sinceMissing tried = between := by
      rw [sinceMissing, hsince, List.dropWhile_append_of_pos (by simpa using hnone),
        List.dropWhile_cons_of_neg (by simp [hfirst]), List.tail_cons]
    rw [hdrop]
    exact fun a ha => (hbetween a ha).2
  · intro hnothing
    have hpos : 0 < (sinceOk tried).countP Attempt.notFound := by omega
    obtain ⟨before, first, hsplit, hzero, hfirst⟩ := sinceOk_split hpos
    obtain ⟨earlier, hearlier⟩ := List.rtakeWhile_suffix (!Attempt.finishedOk ·) tried
    refine ⟨earlier ++ before, first, sinceMissing tried, last, ?_, hfirst, hlast, ?_, ?_⟩
    · rw [List.append_assoc earlier, ← hsplit]
      exact congrArg (· ++ [last]) hearlier.symm
    · rw [hsplit, List.countP_append, hzero, List.countP_cons_of_pos hfirst] at hthree
      omega
    · intro a ha
      have hmem : a ∈ sinceOk tried := by
        rw [hsplit]
        simp [ha]
      exact ⟨finishedOk_of_mem_sinceOk hmem, hnothing a ha⟩

end

-- ---------------------------------------------------------------------------
-- Steps
-- ---------------------------------------------------------------------------

section
variable {adj : SeatAdjuster σ} {seatPosName : String} {s t : State σ} {input : Input}

structure Carries (s t : State σ) : Prop where
  attempts : t.attempts = s.attempts
  aborted : t.aborted = s.aborted
  failures : t.failures = s.failures ∨ s.place = .start ∧ t.failures = 0
  start : t.place = .start → s.place = .start
  exited : s.place = .exited → t.place = .exited

theorem step_cases (h : step adj seatPosName s input = some t) :
    Carries s t ∧ (∀ status, input ≠ .finish status) ∨
      ∃ status, input = .finish status ∧ s.place = .reading ∧ t = finished status s := by
  unfold step at h
  split at h <;> rename_i hp
  · -- shutdown
    obtain rfl := Option.some.inj h
    exact .inl ⟨⟨rfl, rfl, .inl rfl, fun hs => hs, fun hs => hs⟩, by simp⟩
  · -- start
    obtain rfl := Option.some.inj h
    exact .inl ⟨⟨rfl, rfl, .inr ⟨hp, rfl⟩, fun _ => hp, fun hs => by simp [hp] at hs⟩, by simp⟩
  · -- loop
    obtain rfl := Option.some.inj h
    refine .inl ⟨⟨rfl, rfl, .inl rfl, fun hs => ?_, fun hs => by simp [hp] at hs⟩, by simp⟩
    simp only at hs
    split at hs <;> cases hs
  · -- connecting
    obtain rfl := Option.some.inj h
    refine .inl ⟨⟨rfl, rfl, .inl rfl, fun hs => ?_, fun hs => by simp [hp] at hs⟩, by simp⟩
    simp only at hs
    split at hs <;> cases hs
  · -- reading, a response
    obtain rfl := Option.some.inj h
    exact .inl ⟨⟨rfl, rfl, .inl rfl, fun hs => hs, fun hs => hs⟩, by simp⟩
  · -- reading, the end
    obtain rfl := Option.some.inj h
    exact .inr ⟨_, rfl, hp, rfl⟩
  · cases h

structure Counts (s : State σ) : Prop where
  failures : s.failures = (sinceOk s.attempts).countP Attempt.notFound
  few : s.aborted = false → s.failures ≤ 3
  exited : s.aborted = true → s.place = .exited
  fresh : s.place = .start → s.attempts = []

theorem counts_initial (adjuster : σ) : Counts (State.initial adjuster) :=
  ⟨rfl, fun _ => Nat.zero_le 3, (fun h => by cases h), fun _ => rfl⟩

theorem Counts.carried (h : Counts s) (hc : Carries s t) : Counts t := by
  obtain ⟨hfailures, hfew, hexited, hfresh⟩ := h
  have hsame : t.failures = s.failures := by
    rcases hc.failures with hsame | ⟨hstart, hzero⟩
    · exact hsame
    · rw [hzero, hfailures, hfresh hstart]
      rfl
  refine ⟨?_, ?_, ?_, ?_⟩
  · rw [hsame, hc.attempts, hfailures]
  · rw [hc.aborted, hsame]
    exact hfew
  · rw [hc.aborted]
    exact fun ha => hc.exited (hexited ha)
  · rw [hc.attempts]
    exact fun hs => hfresh (hc.start hs)

@[simp] theorem finished_attempts (status : Reply Unit) (s : State σ) :
    (finished status s).attempts = s.attempts ++ [⟨s.responses, status⟩] := by
  unfold finished
  dsimp only
  split
  · rfl
  · split <;> rfl
  · rfl

theorem finished_ok (s : State σ) : (finished (.ok ()) s).failures = 0 ∧
    (finished (.ok ()) s).aborted = s.aborted ∧ (finished (.ok ()) s).place = .loop :=
  ⟨rfl, rfl, rfl⟩

theorem finished_notFound (s : State σ) :
    (finished (.error .notFound) s).failures = s.failures + 1 ∧
      (finished (.error .notFound) s).aborted = (s.aborted || decide (3 ≤ s.failures)) ∧
      (finished (.error .notFound) s).place = if 3 ≤ s.failures then .exited else .loop := by
  by_cases hthree : 3 ≤ s.failures
  · have hmore : s.failures + 1 > 3 := by omega
    simp [finished, hmore, hthree]
  · have hmore : ¬s.failures + 1 > 3 := by omega
    simp [finished, hmore, hthree]

theorem finished_other (hcode : code ≠ .notFound) (s : State σ) :
    (finished (.error code) s).failures = s.failures ∧
      (finished (.error code) s).aborted = s.aborted ∧ (finished (.error code) s).place = .loop := by
  unfold finished
  dsimp only
  split
  · rename_i heq
    cases heq
  · rename_i heq
    exact absurd (Reply.error.inj heq) hcode
  · exact ⟨rfl, rfl, rfl⟩

theorem Counts.reading (h : Counts s) (hp : s.place = .reading) : s.aborted = false := by
  cases ha : s.aborted with
  | false => rfl
  | true =>
    have hexited := h.exited ha
    simp [hp] at hexited

theorem Counts.finished (h : Counts s) (hp : s.place = .reading) (status : Reply Unit) :
    Counts (finished status s) := by
  have haborted := h.reading hp
  have hfew := h.few haborted
  have hsnoc := sinceOk_snoc s.attempts ⟨s.responses, status⟩
  cases status with
  | ok =>
    obtain ⟨hfailures, ha, hplace⟩ := finished_ok s
    refine ⟨?_, ?_, ?_, ?_⟩
    · rw [hfailures, finished_attempts, hsnoc]
      rfl
    · rw [hfailures]
      exact fun _ => Nat.zero_le 3
    · simp [ha, haborted]
    · simp [hplace]
  | error code =>
    by_cases hcode : code = .notFound
    · subst hcode
      obtain ⟨hfailures, ha, hplace⟩ := finished_notFound s
      refine ⟨?_, ?_, ?_, ?_⟩
      · rw [hfailures, finished_attempts, hsnoc, h.failures]
        simp [Attempt.finishedOk, Attempt.notFound, Reply.isOk]
      · rw [hfailures, ha, haborted]
        intro hfalse
        simp at hfalse
        omega
      · rw [ha, haborted, hplace]
        intro htrue
        rw [if_pos (by simpa using htrue)]
      · rw [hplace]
        intro hs
        split at hs <;> cases hs
    · obtain ⟨hfailures, ha, hplace⟩ := finished_other hcode s
      refine ⟨?_, ?_, ?_, ?_⟩
      · rw [hfailures, finished_attempts, hsnoc, h.failures]
        simp [Attempt.finishedOk, Attempt.notFound, Reply.isOk, hcode]
      · rw [hfailures]
        exact fun _ => hfew
      · simp [ha, haborted]
      · simp [hplace]

theorem Counts.step (h : Counts s) (hs : step adj seatPosName s input = some t) : Counts t := by
  rcases step_cases hs with ⟨hc, -⟩ | ⟨status, -, hp, rfl⟩
  · exact h.carried hc
  · exact h.finished hp status

theorem Counts.finished_iff (h : Counts s) (hp : s.place = .reading) (status : Reply Unit) :
    GivesUpRightly (SeatPositionSubscriber.finished status s) ↔ NothingSince s (.finish status) := by
  have haborted := h.reading hp
  have hfew := h.few haborted
  cases status with
  | ok =>
    refine iff_of_true ?_ trivial
    intro htrue
    rw [(finished_ok s).2.1, haborted] at htrue
    cases htrue
  | error code =>
    by_cases hcode : code = .notFound
    · subst hcode
      unfold GivesUpRightly
      rw [finished_attempts, (finished_notFound s).2.1, haborted, h.failures]
      by_cases hthree : (sinceOk s.attempts).countP Attempt.notFound = 3
      · simp only [hthree, NothingSince, Bool.false_or, decide_true, true_implies, Nat.le_refl]
        exact pathMissing_iff (by simp [Attempt.notFound]) hthree
      · have hless : ¬3 ≤ (sinceOk s.attempts).countP Attempt.notFound := by
          rw [h.failures] at hfew
          omega
        refine iff_of_true (by simp [hless]) ?_
        intro hcount
        exact absurd hcount hthree
    · refine iff_of_true ?_ ?_
      · simp [GivesUpRightly, finished_other hcode, haborted]
      · unfold NothingSince
        split
        · rename_i heq
          simp only [Input.finish.injEq, Reply.error.injEq] at heq
          exact absurd heq hcode
        · trivial

end

/-- For every adjuster and path and every run of the subscriber, with
`Shutdown` called at any time. -/
theorem gives_up_rightly_iff (adj : SeatAdjuster σ) (seatPosName : String) (adjuster : σ)
    (inputs : List Input) :
    Throughout (step adj seatPosName) GivesUpRightly (.initial adjuster) inputs ↔
      Along (step adj seatPosName) NothingSince (.initial adjuster) inputs := by
  refine throughout_iff_along (I := Counts) (fun _ _ _ h hs => h.step hs) ?_ (counts_initial adjuster) ?_
  · intro s input t h hright hs
    rcases step_cases hs with ⟨hc, hother⟩ | ⟨status, rfl, hp, rfl⟩
    · refine iff_of_true ?_ ?_
      · unfold GivesUpRightly
        rw [hc.aborted, hc.attempts]
        exact hright
      · unfold NothingSince
        split
        · exact absurd rfl (hother _)
        · trivial
    · exact h.finished_iff hp status
  · intro haborted
    cases haborted

def Attempt.inputs (a : Attempt) : List Input :=
  [.go, .waitForConnected true] ++ List.replicate a.responses (.response []) ++ [.finish a.status]

def Attempt.missing : Attempt := ⟨0, .error .notFound⟩

def Attempt.working : Attempt := ⟨1, .error .unavailable⟩

def restarts : List Attempt := [.missing, .working, .missing, .working, .missing, .working]

theorem restarts_add_up :
    ∃ s, run (step (seatAdjusterImpl (.ticking 600 fun _ => none) 1)
          "Vehicle.Cabin.Seat.Row1.Pos1.Position") (.initial Session.bench.opened)
        (.go :: (restarts ++ [Attempt.missing]).flatMap Attempt.inputs) = some s ∧
      s.aborted = true ∧ s.running = false ∧ ¬GivesUpRightly s := by
  refine ⟨_, rfl, rfl, rfl, fun h => ?_⟩
  have hmissing : PathMissing (restarts ++ [Attempt.missing]) := h rfl
  rw [pathMissing_iff (by decide) (by decide)] at hmissing
  revert hmissing
  decide

end KuksaServices.Seat
