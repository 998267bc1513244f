import KuksaServices.Atomic.Progress
import KuksaServices.Seat.Subscriber

/-!
# The end of the subscriber

`main.cc` calls `Shutdown` of the subscriber and then joins its thread. A
subscription lasts until the broker ends it or its context is cancelled, so
`Run` needs no broker to end only where the subscription it reads has been
cancelled and no other follows. `Shutdown` looks once whether there is a
context. Where `Run` is on its way to one at that moment, between the test of
`running_` and the call, `join` waits for the broker (`ends_by_itself_iff`).
-/

namespace KuksaServices.Seat

open Atomic (run Along Throughout)
open Feeder (Reply)

namespace SeatPositionSubscriber

/-- How far `Shutdown` is; `TryCancel` through a null pointer crashes. -/
inductive Closing where
  | ahead
  | cleared
  | found
  | returned
  | crashed
  deriving DecidableEq, Repr

/-- `context` is `subscriber_context_`: whether its call has been cancelled. -/
structure Threads (σ : Type) where
  subscriber : State σ
  context : Option Bool
  closing : Closing

def Threads.initial (adjuster : σ) : Threads σ := ⟨.initial adjuster, none, .ahead⟩

/-- What `Run` meets, its two assignments of the context, and the lines of
`Shutdown`. -/
inductive Move where
  | meets (input : Input)
  | create
  | drop
  | clear
  | look
  | tryCancel
  deriving DecidableEq, Repr

def Threads.goesOn (t : Threads σ) : Bool :=
  match t.subscriber.place with
  | .reading => t.context.isSome
  | .loop => t.context.isNone
  | _ => true

variable (adj : SeatAdjuster σ) (seatPosName : String)

def threadsStep (t : Threads σ) : Move → Option (Threads σ)
  | .meets input =>
    if input ≠ .shutdown ∧ t.goesOn = true then
      (step adj seatPosName t.subscriber input).map fun s => { t with subscriber := s }
    else none
  | .create =>
    if t.subscriber.place = .reading ∧ t.context = none then some { t with context := some false } else none
  | .drop =>
    if t.subscriber.place = .loop ∧ t.context.isSome = true then some { t with context := none } else none
  | .clear =>
    if t.closing = .ahead then
      (step adj seatPosName t.subscriber .shutdown).map fun s => { t with subscriber := s, closing := .cleared }
    else none
  | .look =>
    if t.closing = .cleared then
      some { t with closing := if t.context.isSome then .found else .returned }
    else none
  | .tryCancel =>
    if t.closing = .found then
      some { t with
        context := t.context.map fun _ => true
        closing := if t.context.isSome then .returned else .crashed }
    else none

def Move.ofRun : Move → Bool
  | .meets _ | .create | .drop => true
  | _ => false

/-- No response is read from a call that has been cancelled. -/
def Prompt (t : Threads σ) : Move → Prop
  | .meets (.response _) => t.context ≠ some true
  | _ => True

/-- After some steps of its own `Run` has ended, whatever the broker does. -/
def EndsByItself (t : Threads σ) : Prop :=
  ∃ n, ∀ moves u, Along (threadsStep adj seatPosName) Prompt t moves →
    run (threadsStep adj seatPosName) t moves = some u → n ≤ moves.countP Move.ofRun →
    u.subscriber.place = .exited

/-- When `Shutdown` returns, `running_` is still cleared; and where it finds
no context, `Run` is not on its way to one. -/
def InTime (t : Threads σ) : Move → Prop
  | .look => t.context = none →
    t.subscriber.running = false ∧ (t.subscriber.place = .loop ∨ t.subscriber.place = .exited)
  | .tryCancel => t.context.isSome = true → t.subscriber.running = false
  | _ => True

-- ---------------------------------------------------------------------------
-- Steps
-- ---------------------------------------------------------------------------

section
variable {adj : SeatAdjuster σ} {seatPosName : String} {s s' : State σ} {t u : Threads σ} {m : Move}

inductive Line (s s' : State σ) : Input → Prop
  | start (hp : s.place = .start) (hplace : s'.place = .loop) : Line s s' .go
  | loop (hp : s.place = .loop) (hplace : s'.place = if s.running then .connecting else .exited)
      (hrunning : s'.running = s.running) : Line s s' .go
  | connecting (connected : Bool) (hp : s.place = .connecting)
      (hplace : s'.place = if connected then .reading else .loop) (hrunning : s'.running = s.running) :
      Line s s' (.waitForConnected connected)
  | response (updates : List EntryUpdate) (hp : s.place = .reading) (hplace : s'.place = .reading)
      (hrunning : s'.running = s.running) : Line s s' (.response updates)
  | finish (status : Reply Unit) (hp : s.place = .reading)
      (hplace : s'.place = .loop ∧ s'.running = s.running ∨ s'.place = .exited ∧ s'.running = false) :
      Line s s' (.finish status)

theorem finished_ends (status : Reply Unit) (s : State σ) :
    (finished status s).place = .loop ∧ (finished status s).running = s.running ∨
      (finished status s).place = .exited ∧ (finished status s).running = false := by
  unfold finished
  dsimp only
  split
  · exact .inl ⟨rfl, rfl⟩
  · split
    · exact .inr ⟨rfl, rfl⟩
    · exact .inl ⟨rfl, rfl⟩
  · exact .inl ⟨rfl, rfl⟩

theorem line_of_step (hinput : input ≠ .shutdown) (h : step adj seatPosName s input = some s') :
    Line s s' input := by
  unfold step at h
  split at h <;> rename_i hp
  · exact absurd rfl hinput
  · obtain rfl := Option.some.inj h
    exact .start hp rfl
  · obtain rfl := Option.some.inj h
    exact .loop hp rfl rfl
  · obtain rfl := Option.some.inj h
    exact .connecting _ hp rfl rfl
  · obtain rfl := Option.some.inj h
    exact .response _ hp hp rfl
  · obtain rfl := Option.some.inj h
    exact .finish _ hp (finished_ends _ _)
  · cases h

structure Placed (t : Threads σ) : Prop where
  context : t.context.isSome = true →
    t.subscriber.place = .reading ∨ t.subscriber.place = .loop ∨ t.subscriber.place = .exited
  exited : t.subscriber.place = .exited → t.subscriber.running = false

/-- `Run` is told to end and reads nothing but what has been cancelled. -/
structure Released (t : Threads σ) : Prop where
  cleared : t.subscriber.running = false
  started : t.subscriber.place ≠ .start
  connected : t.subscriber.place ≠ .connecting
  cancelled : t.subscriber.place = .reading → t.context = some true

theorem threadsStep_meets (h : threadsStep adj seatPosName t (.meets input) = some u) :
    Line t.subscriber u.subscriber input ∧ u.context = t.context ∧ u.closing = t.closing ∧
      t.goesOn = true := by
  obtain ⟨⟨hinput, hgoes⟩, h⟩ := Option.ite_none_right_eq_some.mp h
  obtain ⟨s, hs, rfl⟩ := Option.map_eq_some_iff.mp h
  exact ⟨line_of_step hinput hs, rfl, rfl, hgoes⟩

theorem Placed.step (h : Placed t) (hs : threadsStep adj seatPosName t m = some u) : Placed u := by
  cases m with
  | meets input =>
    obtain ⟨hline, hcontext, -, hgoes⟩ := threadsStep_meets hs
    cases hline with
    | start hp hplace =>
      refine ⟨fun hc => .inr (.inl hplace), fun he => ?_⟩
      rw [hplace] at he
      cases he
    | loop hp hplace hrunning =>
      rw [Threads.goesOn, hp] at hgoes
      refine ⟨fun hc => ?_, fun he => ?_⟩
      · rw [hcontext] at hc
        simp [Option.isNone_iff_eq_none.mp hgoes] at hc
      · rw [hrunning]
        rw [hplace] at he
        simpa using he
    | connecting connected hp hplace hrunning =>
      refine ⟨fun hc => ?_, fun he => ?_⟩
      · rw [hplace]
        cases connected <;> simp
      · rw [hplace] at he
        cases connected <;> cases he
    | response updates hp hplace hrunning =>
      refine ⟨fun _ => .inl hplace, fun he => ?_⟩
      rw [hplace] at he
      cases he
    | finish status hp hplace =>
      rcases hplace with ⟨hloop, -⟩ | ⟨hexited, hrunning⟩
      · refine ⟨fun _ => .inr (.inl hloop), fun he => ?_⟩
        rw [hloop] at he
        cases he
      · exact ⟨fun _ => .inr (.inr hexited), fun _ => hrunning⟩
  | create =>
    obtain ⟨⟨hp, -⟩, hs⟩ := Option.ite_none_right_eq_some.mp hs
    obtain rfl := Option.some.inj hs
    exact ⟨fun _ => .inl hp, h.exited⟩
  | drop =>
    obtain ⟨-, hs⟩ := Option.ite_none_right_eq_some.mp hs
    obtain rfl := Option.some.inj hs
    exact ⟨by simp, h.exited⟩
  | clear =>
    obtain ⟨-, hs⟩ := Option.ite_none_right_eq_some.mp hs
    obtain rfl := Option.some.inj hs
    exact ⟨h.context, fun _ => rfl⟩
  | look =>
    obtain ⟨-, hs⟩ := Option.ite_none_right_eq_some.mp hs
    obtain rfl := Option.some.inj hs
    exact ⟨h.context, h.exited⟩
  | tryCancel =>
    obtain ⟨-, hs⟩ := Option.ite_none_right_eq_some.mp hs
    obtain rfl := Option.some.inj hs
    exact ⟨fun hc => h.context (by simpa using hc), h.exited⟩

theorem Released.step (h : Released t) (hreturned : t.closing = .returned)
    (hs : threadsStep adj seatPosName t m = some u) : Released u ∧ u.closing = .returned := by
  cases m with
  | meets input =>
    obtain ⟨hline, hcontext, hclosing, hgoes⟩ := threadsStep_meets hs
    refine ⟨?_, hclosing.trans hreturned⟩
    cases hline with
    | start hp hplace => exact absurd hp h.started
    | loop hp hplace hrunning =>
      rw [h.cleared] at hplace
      exact ⟨hrunning.trans h.cleared, by simp [hplace], by simp [hplace], by simp [hplace]⟩
    | connecting connected hp hplace hrunning => exact absurd hp h.connected
    | response updates hp hplace hrunning =>
      exact ⟨hrunning.trans h.cleared, by simp [hplace], by simp [hplace], fun _ => hcontext.trans (h.cancelled hp)⟩
    | finish status hp hplace =>
      rcases hplace with ⟨hloop, hrunning⟩ | ⟨hexited, hrunning⟩
      · exact ⟨hrunning.trans h.cleared, by simp [hloop], by simp [hloop], by simp [hloop]⟩
      · exact ⟨hrunning, by simp [hexited], by simp [hexited], by simp [hexited]⟩
  | create =>
    obtain ⟨⟨hp, hnone⟩, -⟩ := Option.ite_none_right_eq_some.mp hs
    rw [h.cancelled hp] at hnone
    cases hnone
  | drop =>
    obtain ⟨⟨hp, -⟩, hs⟩ := Option.ite_none_right_eq_some.mp hs
    obtain rfl := Option.some.inj hs
    exact ⟨⟨h.cleared, h.started, h.connected, by simp [hp]⟩, hreturned⟩
  | clear => simp [threadsStep, hreturned] at hs
  | look => simp [threadsStep, hreturned] at hs
  | tryCancel => simp [threadsStep, hreturned] at hs

-- ---------------------------------------------------------------------------
-- Ending
-- ---------------------------------------------------------------------------

/-- The steps a released `Run` takes before the one that ends it. -/
def Threads.leaving (t : Threads σ) : Nat :=
  match t.subscriber.place with
  | .reading => 2
  | .loop => if t.context.isSome then 1 else 0
  | _ => 0

theorem Threads.leaving_le (t : Threads σ) : t.leaving ≤ 2 := by
  unfold Threads.leaving
  split
  · exact Nat.le_refl _
  · split <;> omega
  · exact Nat.zero_le _

theorem Released.nearer (h : Released t) (hprompt : Prompt t m) (hown : m.ofRun = true)
    (hs : threadsStep adj seatPosName t m = some u) :
    u.subscriber.place = .exited ∨ u.leaving < t.leaving := by
  cases m with
  | meets input =>
    obtain ⟨hline, hcontext, -, hgoes⟩ := threadsStep_meets hs
    cases hline with
    | start hp hplace => exact absurd hp h.started
    | loop hp hplace hrunning =>
      rw [h.cleared] at hplace
      exact .inl hplace
    | connecting connected hp hplace hrunning => exact absurd hp h.connected
    | response updates hp hplace hrunning => exact absurd (h.cancelled hp) hprompt
    | finish status hp hplace =>
      rcases hplace with ⟨hloop, -⟩ | ⟨hexited, -⟩
      · refine .inr ?_
        simp [Threads.leaving, hp, hloop, hcontext, h.cancelled hp]
      · exact .inl hexited
  | create =>
    obtain ⟨⟨hp, hnone⟩, -⟩ := Option.ite_none_right_eq_some.mp hs
    rw [h.cancelled hp] at hnone
    cases hnone
  | drop =>
    obtain ⟨⟨hp, hc⟩, hs⟩ := Option.ite_none_right_eq_some.mp hs
    obtain rfl := Option.some.inj hs
    exact .inr (by simp [Threads.leaving, hp, hc])
  | clear => cases hown
  | look => cases hown
  | tryCancel => cases hown

theorem exited_stays (hp : t.subscriber.place = .exited) (hs : threadsStep adj seatPosName t m = some u) :
    u.subscriber.place = .exited := by
  cases m with
  | meets input =>
    obtain ⟨hline, -⟩ := threadsStep_meets hs
    cases hline with
    | start hat => simp [hp] at hat
    | loop hat => simp [hp] at hat
    | connecting _ hat => simp [hp] at hat
    | response _ hat => simp [hp] at hat
    | finish _ hat => simp [hp] at hat
  | create =>
    obtain ⟨⟨hreading, -⟩, -⟩ := Option.ite_none_right_eq_some.mp hs
    simp [hp] at hreading
  | drop =>
    obtain ⟨⟨hloop, -⟩, -⟩ := Option.ite_none_right_eq_some.mp hs
    simp [hp] at hloop
  | clear =>
    obtain ⟨-, hs⟩ := Option.ite_none_right_eq_some.mp hs
    obtain rfl := Option.some.inj hs
    exact hp
  | look =>
    obtain ⟨-, hs⟩ := Option.ite_none_right_eq_some.mp hs
    obtain rfl := Option.some.inj hs
    exact hp
  | tryCancel =>
    obtain ⟨-, hs⟩ := Option.ite_none_right_eq_some.mp hs
    obtain rfl := Option.some.inj hs
    exact hp

theorem Released.ends (h : Released t) (hreturned : t.closing = .returned) :
    EndsByItself adj seatPosName t := by
  refine ⟨3, fun moves u hprompt hrun hlong => ?_⟩
  have hnear := t.leaving_le
  refine Atomic.ends_within_rank (I := fun t => Released t ∧ t.closing = .returned)
    (fun t => t.subscriber.place = .exited) Threads.leaving Move.ofRun
    (fun _ _ _ h _ hs => h.1.step h.2 hs) (fun _ _ _ hp hs => exited_stays hp hs)
    (fun _ _ _ h _ hc hown hs => h.1.nearer hc hown hs) ?_ ⟨h, hreturned⟩ hprompt hrun (by omega)
  -- after its return `Shutdown` takes no further step
  rintro t m u ⟨-, hreturned⟩ - hother hs
  cases m with
  | meets input => cases hother
  | create => cases hother
  | drop => cases hother
  | clear => simp [threadsStep, hreturned] at hs
  | look => simp [threadsStep, hreturned] at hs
  | tryCancel => simp [threadsStep, hreturned] at hs

-- ---------------------------------------------------------------------------
-- Waiting for the broker
-- ---------------------------------------------------------------------------

theorem EndsByItself.step (h : EndsByItself adj seatPosName t)
    (hs : threadsStep adj seatPosName t m = some u) (hprompt : Prompt t m) : EndsByItself adj seatPosName u := by
  obtain ⟨n, hends⟩ := h
  refine ⟨n, fun moves v hc hrun hlong => hends (m :: moves) v ?_ ?_ ?_⟩
  · exact (Atomic.along_cons hs).mpr ⟨hprompt, hc⟩
  · rw [Atomic.run_cons hs]
    exact hrun
  · rw [List.countP_cons]
    exact hlong.trans (Nat.le_add_right _ _)

theorem reads_on (adj : SeatAdjuster σ) (seatPosName : String) (hp : t.subscriber.place = .reading)
    (hc : t.context = some false) (n : Nat) :
    ∃ u, run (threadsStep adj seatPosName) t (List.replicate n (.meets (.response []))) = some u ∧
      Along (threadsStep adj seatPosName) Prompt t (List.replicate n (.meets (.response []))) ∧
      u.subscriber.place = .reading := by
  induction n generalizing t with
  | zero => exact ⟨t, rfl, trivial, hp⟩
  | succ n ih =>
    have hs : threadsStep adj seatPosName t (.meets (.response [])) = some { t with subscriber := { t.subscriber with
        adjuster := onUpdates adj seatPosName t.subscriber.adjuster []
        responses := t.subscriber.responses + 1 } } := by
      simp [threadsStep, Threads.goesOn, hp, hc, SeatPositionSubscriber.step]
    obtain ⟨u, hrun, halong, hu⟩ := ih (t := { t with subscriber := { t.subscriber with
      adjuster := onUpdates adj seatPosName t.subscriber.adjuster []
      responses := t.subscriber.responses + 1 } }) hp hc
    refine ⟨u, ?_, ?_, hu⟩
    · rw [List.replicate_succ, Atomic.run_cons hs]
      exact hrun
    · rw [List.replicate_succ, Atomic.along_cons hs]
      exact ⟨by simp [Prompt, hc], halong⟩

theorem reads_without_end (hp : t.subscriber.place = .reading) (hc : t.context = some false) :
    ¬EndsByItself adj seatPosName t := by
  rintro ⟨n, hends⟩
  obtain ⟨u, hrun, halong, hu⟩ := reads_on adj seatPosName hp hc n
  have hlong : n ≤ (List.replicate n (Move.meets (.response []))).countP Move.ofRun := by
    rw [List.countP_replicate]
    exact Nat.le_refl n
  have hexited := hends _ u halong hrun hlong
  rw [hu] at hexited
  cases hexited

theorem creates (hp : t.subscriber.place = .reading) (hc : t.context = none) :
    ¬EndsByItself adj seatPosName t := by
  intro h
  have hs : threadsStep adj seatPosName t .create = some { t with context := some false } := by
    simp [threadsStep, hp, hc]
  exact absurd (h.step hs trivial) (reads_without_end hp rfl)

theorem connects (hp : t.subscriber.place = .connecting) (hc : t.context = none) :
    ¬EndsByItself adj seatPosName t := by
  intro h
  have hs : threadsStep adj seatPosName t (.meets (.waitForConnected true)) = some { t with
      subscriber := { t.subscriber with place := .reading, responses := 0 } } := by
    simp [threadsStep, Threads.goesOn, hp, SeatPositionSubscriber.step]
  exact absurd (h.step hs trivial) (creates rfl hc)

theorem loops (hp : t.subscriber.place = .loop) (hr : t.subscriber.running = true) :
    ¬EndsByItself adj seatPosName t := by
  have hgoes : ∀ v : Threads σ, v.subscriber.place = .loop → v.subscriber.running = true → v.context = none →
      ¬EndsByItself adj seatPosName v := by
    intro v hp hr hc h
    have hs : threadsStep adj seatPosName v (.meets .go) = some { v with
        subscriber := { v.subscriber with place := .connecting } } := by
      simp [threadsStep, Threads.goesOn, hp, hc, hr, SeatPositionSubscriber.step]
    exact absurd (h.step hs trivial) (connects rfl hc)
  cases hc : t.context with
  | none => exact hgoes t hp hr hc
  | some c =>
    intro h
    have hs : threadsStep adj seatPosName t .drop = some { t with context := none } := by
      simp [threadsStep, hp, hc]
    exact absurd (h.step hs trivial) (hgoes _ hp hr rfl)

theorem starts (hp : t.subscriber.place = .start) : ¬EndsByItself adj seatPosName t := by
  intro h
  have hs : threadsStep adj seatPosName t (.meets .go) = some { t with
      subscriber := { t.subscriber with running := true, failures := 0, place := .loop } } := by
    simp [threadsStep, Threads.goesOn, hp, SeatPositionSubscriber.step]
  exact absurd (h.step hs trivial) (loops rfl rfl)

theorem subscribes_again (hp : t.subscriber.place = .reading) (hc : t.context = some true)
    (hr : t.subscriber.running = true) : ¬EndsByItself adj seatPosName t := by
  intro h
  have hs : threadsStep adj seatPosName t (.meets (.finish (.ok ()))) = some { t with
      subscriber := finished (.ok ()) t.subscriber } := by
    simp [threadsStep, Threads.goesOn, hp, hc, SeatPositionSubscriber.step]
  exact absurd (h.step hs trivial) (loops rfl hr)

theorem Placed.ends_iff (h : Placed t) (hreturned : t.closing = .returned) :
    EndsByItself adj seatPosName t ↔ Released t := by
  refine ⟨fun hends => ⟨?_, ?_, ?_, ?_⟩, fun hreleased => hreleased.ends hreturned⟩
  · rw [← Bool.not_eq_true]
    intro hr
    cases hp : t.subscriber.place with
    | start => exact starts hp hends
    | loop => exact loops hp hr hends
    | connecting =>
      have hc : t.context = none := by
        by_contra hne
        have hplaces := h.context (Option.isSome_iff_ne_none.mpr hne)
        simp [hp] at hplaces
      exact connects hp hc hends
    | reading =>
      cases hc : t.context with
      | none => exact creates hp hc hends
      | some cancelled =>
        cases cancelled with
        | false => exact reads_without_end hp hc hends
        | true => exact subscribes_again hp hc hr hends
    | exited =>
      rw [h.exited hp] at hr
      cases hr
  · exact fun hp => starts hp hends
  · intro hp
    have hc : t.context = none := by
      by_contra hne
      have hplaces := h.context (Option.isSome_iff_ne_none.mpr hne)
      simp [hp] at hplaces
    exact connects hp hc hends
  · intro hp
    cases hc : t.context with
    | none => exact absurd hends (creates hp hc)
    | some cancelled =>
      cases cancelled with
      | false => exact absurd hends (reads_without_end hp hc)
      | true => rfl

theorem Placed.released_iff (h : Placed t) (hreleased : t.closing = .returned → Released t)
    (hs : threadsStep adj seatPosName t m = some u) :
    (u.closing = .returned → Released u) ↔ InTime t m := by
  cases m with
  | meets input =>
    refine iff_of_true (fun hreturned => ?_) trivial
    have hsame := (threadsStep_meets hs).2.2.1.symm.trans hreturned
    exact ((hreleased hsame).step hsame hs).1
  | create =>
    refine iff_of_true (fun hreturned => ?_) trivial
    have hsame : t.closing = .returned := by
      obtain ⟨-, hs⟩ := Option.ite_none_right_eq_some.mp hs
      obtain rfl := Option.some.inj hs
      exact hreturned
    exact ((hreleased hsame).step hsame hs).1
  | drop =>
    refine iff_of_true (fun hreturned => ?_) trivial
    have hsame : t.closing = .returned := by
      obtain ⟨-, hs⟩ := Option.ite_none_right_eq_some.mp hs
      obtain rfl := Option.some.inj hs
      exact hreturned
    exact ((hreleased hsame).step hsame hs).1
  | clear =>
    obtain ⟨-, hs⟩ := Option.ite_none_right_eq_some.mp hs
    obtain rfl := Option.some.inj hs
    exact iff_of_true (by simp) trivial
  | look =>
    obtain ⟨-, hs⟩ := Option.ite_none_right_eq_some.mp hs
    obtain rfl := Option.some.inj hs
    cases hc : t.context with
    | none =>
      simp only [Option.isSome_none, Bool.false_eq_true, if_false, true_implies, InTime, hc]
      constructor
      · intro hu
        refine ⟨hu.cleared, ?_⟩
        cases hp : t.subscriber.place with
        | start => exact absurd hp hu.started
        | loop => exact .inl rfl
        | connecting => exact absurd hp hu.connected
        | reading => exact absurd (hu.cancelled hp) (by simp)
        | exited => exact .inr rfl
      · rintro ⟨hr, hplace⟩
        rcases hplace with hp | hp <;> exact ⟨hr, by simp [hp], by simp [hp], by simp [hp]⟩
    | some cancelled => exact iff_of_true (by simp) (by simp [InTime, hc])
  | tryCancel =>
    obtain ⟨-, hs⟩ := Option.ite_none_right_eq_some.mp hs
    obtain rfl := Option.some.inj hs
    cases hc : t.context with
    | none => exact iff_of_true (by simp) (by simp [InTime, hc])
    | some cancelled =>
      simp only [Option.isSome_some, if_true, true_implies, InTime, hc, Option.map_some]
      constructor
      · exact fun hu => hu.cleared
      · intro hr
        have hplaces := h.context (by simp [hc])
        rcases hplaces with hp | hp | hp <;> exact ⟨hr, by simp [hp], by simp [hp], by simp [hp]⟩

end

/-- For every adjuster, whatever the broker sends and however `Shutdown` and
`Run` are interleaved. -/
theorem ends_by_itself_iff (adj : SeatAdjuster σ) (seatPosName : String) (adjuster : σ) (moves : List Move) :
    Throughout (threadsStep adj seatPosName) (fun t => t.closing = .returned → EndsByItself adj seatPosName t)
        (.initial adjuster) moves ↔
      Along (threadsStep adj seatPosName) InTime (.initial adjuster) moves := by
  refine Atomic.throughout_iff_along (I := Placed) (fun _ _ _ h hs => h.step hs) ?_ ⟨by simp [Threads.initial], ?_⟩ ?_
  · intro t m u h hends hs
    rw [← h.released_iff (fun hreturned => (h.ends_iff hreturned).mp (hends hreturned)) hs]
    exact imp_congr_right fun hreturned => (h.step hs).ends_iff hreturned
  · intro hp
    cases hp
  · intro hreturned
    cases hreturned

def benchLate : List Move := [.meets .go, .meets .go, .clear, .look, .meets (.waitForConnected true), .create]

theorem join_waits_for_broker :
    ∃ t, run (threadsStep (seatAdjusterImpl (.ticking 600 fun _ => none) 1)
          "Vehicle.Cabin.Seat.Row1.Pos1.Position") (.initial Session.bench.opened) benchLate = some t ∧
      t.subscriber.running = false ∧ t.closing = .returned ∧
      ¬EndsByItself (seatAdjusterImpl (.ticking 600 fun _ => none) 1)
        "Vehicle.Cabin.Seat.Row1.Pos1.Position" t :=
  ⟨_, rfl, rfl, rfl, reads_without_end rfl rfl⟩

/-- The subscription ends between the two lines of `Shutdown`. -/
example : (run (threadsStep (seatAdjusterImpl (.ticking 600 fun _ => none) 1)
    "Vehicle.Cabin.Seat.Row1.Pos1.Position") (.initial Session.bench.opened)
    [.meets .go, .meets .go, .meets (.waitForConnected true), .create, .clear, .look,
      .meets (.finish (.ok ())), .drop, .tryCancel]).map Threads.closing = some .crashed := rfl

end SeatPositionSubscriber

end KuksaServices.Seat
