import KuksaServices.Atomic.Progress

/-!
# The lock of the CAN simulator

`cansim_lib` takes the place of `socket` and `close`, and there is one mock
socket for all threads, under a lock. `sim_close_fd` returns without unlocking
where it does not find its descriptor, which `close` looked up before it had
the lock. All threads can get the lock at all times exactly if each `close`
that gets it still finds its descriptor (`lock_free_iff`); two that overlap do
not.

The engine behind the socket is left out, as are the other hooked functions:
none of them uses the lock.
-/

namespace KuksaServices.Seat.CanSim

open Atomic

inductive Place where
  | outside
  /-- In `sim_alloc_fd`, before the lock. -/
  | allocating
  | choosing
  | activating (fd : Int)
  | allocated (fd : Int)
  /-- In `sim_is_mocked_fd`, with the first half of the test. -/
  | testing (fd : Int)
  /-- In `sim_close_fd`, before the lock. -/
  | closing (fd : Int)
  | checking (fd : Int)
  | closed
  deriving DecidableEq, Repr

/-- Between `pthread_mutex_lock` and `pthread_mutex_unlock`. -/
def Place.holds : Place → Bool
  | .choosing | .activating _ | .allocated _ | .checking _ | .closed => true
  | _ => false

def socketInvalid : Int := -1
def mockFd : Int := 1023

/-- `returned` has what the calls have returned. -/
structure SimContext where
  lock : Option Nat
  mockSocket : Int
  mockActive : Bool
  place : Nat → Place
  returned : List (Nat × Int)

def simInitContext : SimContext where
  lock := none
  mockSocket := socketInvalid
  mockActive := false
  place _ := .outside
  returned := []

def SimContext.goTo (s : SimContext) (t : Nat) (place : Place) : SimContext :=
  { s with place := Function.update s.place t place }

def SimContext.leave (s : SimContext) (t : Nat) (result : Int) : SimContext :=
  { s.goTo t .outside with returned := s.returned ++ [(t, result)] }

def SimContext.acquire (s : SimContext) (t : Nat) (place : Place) : Option SimContext :=
  if s.lock.isNone then some { s.goTo t place with lock := some t } else none

/-- A call of a thread, or its next action; libc is asked what it returns. -/
inductive Move where
  | socket (t : Nat)
  | close (t : Nat) (fd : Int) (libc : Int)
  | goesOn (t : Nat) (libc : Int)
  deriving DecidableEq, Repr

def simStep (s : SimContext) : Move → Option SimContext
  | .socket t => if s.place t = .outside then some (s.goTo t .allocating) else none
  | .close t fd libc =>
    if s.place t = .outside then
      if fd = s.mockSocket then some (s.goTo t (.testing fd)) else some (s.leave t libc)
    else none
  | .goesOn t libc =>
    match s.place t with
    | .outside => none
    | .allocating => s.acquire t .choosing
    | .choosing =>
      if s.mockSocket = socketInvalid then some { s.goTo t (.activating mockFd) with mockSocket := mockFd }
      else some (s.goTo t (.allocated (-1)))
    | .activating fd => some { s.goTo t (.allocated fd) with mockActive := true }
    | .allocated fd => some { s.leave t fd with lock := none }
    | .testing fd => if s.mockActive then some (s.goTo t (.closing fd)) else some (s.leave t libc)
    | .closing fd => s.acquire t (.checking fd)
    | .checking fd =>
      if s.mockSocket = fd then some { s.goTo t .closed with mockSocket := socketInvalid }
      -- no unlock; `close` returns 0 all the same
      else some (s.leave t 0)
    | .closed => some { s.leave t 0 with lock := none }

def CanLock (s : SimContext) (t : Nat) : Prop :=
  ∃ moves s', run simStep s moves = some s' ∧ s'.lock = some t

/-- A `close` that gets the lock finds its descriptor. -/
def StillOpen (s : SimContext) : Move → Prop
  | .goesOn t _ => ∀ fd, s.place t = .closing fd → s.mockSocket = fd
  | _ => True

-- ---------------------------------------------------------------------------
-- The lock
-- ---------------------------------------------------------------------------

def Exclusive (s : SimContext) : Prop := ∀ t, (s.place t).holds = true → s.lock = some t

def Releasable (s : SimContext) : Prop :=
  ∀ t, s.lock = some t → (s.place t).holds = true ∧ ∀ fd, s.place t = .checking fd → s.mockSocket = fd

structure Moved (s s' : SimContext) (t : Nat) (place : Place) (lock : Option Nat) : Prop where
  place : s'.place = Function.update s.place t place
  lock : s'.lock = lock

inductive Acts (s s' : SimContext) (m : Move) : Prop
  | passes (t : Nat) (place : Place) (h : Moved s s' t place s.lock) (hsame : s'.mockSocket = s.mockSocket)
      (hout : (s.place t).holds = false) (hin : place.holds = false) (hm : StillOpen s m)
  | locks (t : Nat) (place : Place) (h : Moved s s' t place (some t)) (hsame : s'.mockSocket = s.mockSocket)
      (hfree : s.lock = none) (hin : place.holds = true)
      (hm : StillOpen s m ↔ ∀ fd, place = .checking fd → s.mockSocket = fd)
  | works (t : Nat) (place : Place) (h : Moved s s' t place s.lock) (hout : (s.place t).holds = true)
      (hfound : ∀ fd, s.place t = .checking fd → s.mockSocket = fd) (hin : place.holds = true)
      (hdone : ∀ fd, place ≠ .checking fd) (hm : StillOpen s m)
  | unlocks (t : Nat) (h : Moved s s' t .outside none) (hout : (s.place t).holds = true)
      (hdone : ∀ fd, s.place t ≠ .checking fd) (hm : StillOpen s m)
  | leaks (t : Nat) (fd : Int) (h : Moved s s' t .outside s.lock) (hplace : s.place t = .checking fd)
      (hlost : s.mockSocket ≠ fd)

section
variable {s s' : SimContext} {t u : Nat} {place : Place} {m : Move}

@[simp] theorem goTo_own (s : SimContext) (t : Nat) (place : Place) : (s.goTo t place).place t = place :=
  Function.update_self ..

@[simp] theorem leave_own (s : SimContext) (t : Nat) (result : Int) : (s.leave t result).place t = .outside :=
  Function.update_self ..

theorem acquire_some (h : s.acquire t place = some s') :
    s.lock = none ∧ Moved s s' t place (some t) ∧ s'.mockSocket = s.mockSocket := by
  unfold SimContext.acquire at h
  split at h
  · next hfree =>
    obtain rfl := Option.some.inj h
    exact ⟨Option.isNone_iff_eq_none.mp hfree, ⟨rfl, rfl⟩, rfl⟩
  · cases h

theorem simStep_cases (h : simStep s m = some s') : Acts s s' m := by
  cases m with
  | socket t =>
    simp only [simStep] at h
    split at h
    · next hplace =>
      obtain rfl := Option.some.inj h
      exact .passes t .allocating ⟨rfl, rfl⟩ rfl (by rw [hplace]; rfl) rfl trivial
    · cases h
  | close t fd libc =>
    simp only [simStep] at h
    split at h
    · next hplace =>
      split at h
      · obtain rfl := Option.some.inj h
        exact .passes t (.testing fd) ⟨rfl, rfl⟩ rfl (by rw [hplace]; rfl) rfl trivial
      · obtain rfl := Option.some.inj h
        exact .passes t .outside ⟨rfl, rfl⟩ rfl (by rw [hplace]; rfl) rfl trivial
    · cases h
  | goesOn t libc =>
    cases hplace : s.place t with
    | outside => simp [simStep, hplace] at h
    | allocating =>
      simp only [simStep, hplace] at h
      obtain ⟨hfree, hmoved, hsame⟩ := acquire_some h
      exact .locks t .choosing hmoved hsame hfree rfl
        (iff_of_true (fun fd hclosing => by simp [hplace] at hclosing) (fun fd hchecking => by cases hchecking))
    | closing fd =>
      simp only [simStep, hplace] at h
      obtain ⟨hfree, hmoved, hsame⟩ := acquire_some h
      exact .locks t (.checking fd) hmoved hsame hfree rfl (by simp [StillOpen, hplace])
    | choosing =>
      simp only [simStep, hplace] at h
      split at h
      · obtain rfl := Option.some.inj h
        exact .works t _ ⟨rfl, rfl⟩ (by rw [hplace]; rfl) (by simp [hplace]) rfl (by simp) (by simp [StillOpen, hplace])
      · obtain rfl := Option.some.inj h
        exact .works t _ ⟨rfl, rfl⟩ (by rw [hplace]; rfl) (by simp [hplace]) rfl (by simp) (by simp [StillOpen, hplace])
    | activating fd =>
      simp only [simStep, hplace] at h
      obtain rfl := Option.some.inj h
      exact .works t _ ⟨rfl, rfl⟩ (by rw [hplace]; rfl) (by simp [hplace]) rfl (by simp) (by simp [StillOpen, hplace])
    | allocated fd =>
      simp only [simStep, hplace] at h
      obtain rfl := Option.some.inj h
      exact .unlocks t ⟨rfl, rfl⟩ (by rw [hplace]; rfl) (by simp [hplace]) (by simp [StillOpen, hplace])
    | testing fd =>
      simp only [simStep, hplace] at h
      split at h
      · obtain rfl := Option.some.inj h
        exact .passes t _ ⟨rfl, rfl⟩ rfl (by rw [hplace]; rfl) rfl (by simp [StillOpen, hplace])
      · obtain rfl := Option.some.inj h
        exact .passes t _ ⟨rfl, rfl⟩ rfl (by rw [hplace]; rfl) rfl (by simp [StillOpen, hplace])
    | checking fd =>
      simp only [simStep, hplace] at h
      split at h
      · next hfound =>
        obtain rfl := Option.some.inj h
        exact .works t _ ⟨rfl, rfl⟩ (by rw [hplace]; rfl) (by simp [hplace, hfound]) rfl (by simp)
          (by simp [StillOpen, hplace])
      · next hlost =>
        obtain rfl := Option.some.inj h
        exact .leaks t fd ⟨rfl, rfl⟩ hplace hlost
    | closed =>
      simp only [simStep, hplace] at h
      obtain rfl := Option.some.inj h
      exact .unlocks t ⟨rfl, rfl⟩ (by rw [hplace]; rfl) (by simp [hplace]) (by simp [StillOpen, hplace])

variable {lock : Option Nat}

theorem Moved.own (h : Moved s s' t place lock) : s'.place t = place := by
  rw [h.place, Function.update_self]

theorem Moved.other (h : Moved s s' t place lock) (hu : u ≠ t) : s'.place u = s.place u := by
  rw [h.place, Function.update_of_ne hu]

/-- Two threads with the lock are one. -/
theorem Exclusive.same (h : Exclusive s) (ht : (s.place t).holds = true) (hu : s.lock = some u) : u = t :=
  Option.some.inj (hu.symm.trans (h t ht))

theorem Exclusive.step (h : Exclusive s) (hs : simStep s m = some s') : Exclusive s' := by
  intro u hu
  cases simStep_cases hs with
  | passes t place hmoved hsame hout hin hm =>
    by_cases hut : u = t
    · rw [hut, hmoved.own, hin] at hu
      cases hu
    · rw [hmoved.other hut] at hu
      rw [hmoved.lock]
      exact h u hu
  | locks t place hmoved hsame hfree hin hm =>
    by_cases hut : u = t
    · rw [hmoved.lock, hut]
    · rw [hmoved.other hut] at hu
      cases hfree.symm.trans (h u hu)
  | works t place hmoved hout hfound hin hdone hm =>
    by_cases hut : u = t
    · rw [hmoved.lock, hut]
      exact h t hout
    · rw [hmoved.other hut] at hu
      rw [hmoved.lock]
      exact h u hu
  | unlocks t hmoved hout hdone hm =>
    by_cases hut : u = t
    · rw [hut, hmoved.own] at hu
      cases hu
    · rw [hmoved.other hut] at hu
      exact absurd (h.same hout (h u hu)) hut
  | leaks t fd hmoved hplace hlost =>
    by_cases hut : u = t
    · rw [hut, hmoved.own] at hu
      cases hu
    · rw [hmoved.other hut] at hu
      rw [hmoved.lock]
      exact h u hu

/-- The lock stays with one that will unlock, where a `close` that has just
got it finds its descriptor. -/
theorem Releasable.step_iff (h : Releasable s) (hx : Exclusive s) (hs : simStep s m = some s') :
    Releasable s' ↔ StillOpen s m := by
  cases simStep_cases hs with
  | passes t place hmoved hsame hout hin hm =>
    refine iff_of_true (fun u hu => ?_) hm
    rw [hmoved.lock] at hu
    have hut : u ≠ t := by
      rintro rfl
      rw [(h u hu).1] at hout
      cases hout
    rw [hmoved.other hut, hsame]
    exact h u hu
  | locks t place hmoved hsame hfree hin hm =>
    rw [hm]
    constructor
    · intro hr fd hchecking
      rw [← hsame]
      exact (hr t hmoved.lock).2 fd (hmoved.own.trans hchecking)
    · intro hfound u hu
      obtain rfl : t = u := Option.some.inj (hmoved.lock.symm.trans hu)
      rw [hmoved.own, hsame]
      exact ⟨hin, hfound⟩
  | works t place hmoved hout hfound hin hdone hm =>
    refine iff_of_true (fun u hu => ?_) hm
    obtain rfl := hx.same hout (hmoved.lock.symm.trans hu)
    rw [hmoved.own]
    exact ⟨hin, fun fd hchecking => absurd hchecking (hdone fd)⟩
  | unlocks t hmoved hout hdone hm =>
    refine iff_of_true (fun u hu => ?_) hm
    rw [hmoved.lock] at hu
    cases hu
  | leaks t fd hmoved hplace hlost =>
    have hlock : s.lock = some t := hx t (by rw [hplace]; rfl)
    exact absurd ((h t hlock).2 fd hplace) hlost

-- ---------------------------------------------------------------------------
-- Getting the lock
-- ---------------------------------------------------------------------------

/-- How many of its actions unlock. -/
def Place.left : Place → Nat
  | .choosing => 3
  | .activating _ | .checking _ => 2
  | .allocated _ | .closed => 1
  | _ => 0

theorem Releasable.goesOn (h : Releasable s) (hlock : s.lock = some t) : ∃ s',
    simStep s (.goesOn t 0) = some s' ∧ (s'.lock = none ∨ s'.lock = some t) ∧
      (s'.place t).left < (s.place t).left := by
  obtain ⟨hholds, hfound⟩ := h t hlock
  cases hplace : s.place t with
  | outside => simp [hplace, Place.holds] at hholds
  | allocating => simp [hplace, Place.holds] at hholds
  | testing fd => simp [hplace, Place.holds] at hholds
  | closing fd => simp [hplace, Place.holds] at hholds
  | choosing =>
    simp only [simStep, hplace]
    split
    · exact ⟨_, rfl, .inr hlock, by simp [Place.left]⟩
    · exact ⟨_, rfl, .inr hlock, by simp [Place.left]⟩
  | activating fd =>
    simp only [simStep, hplace]
    exact ⟨_, rfl, .inr hlock, by simp [Place.left]⟩
  | allocated fd =>
    simp only [simStep, hplace]
    exact ⟨_, rfl, .inl rfl, by simp [Place.left]⟩
  | checking fd =>
    have hstill : s.mockSocket = fd := hfound fd hplace
    simp only [simStep, hplace, if_pos hstill]
    exact ⟨_, rfl, .inr hlock, by simp [Place.left]⟩
  | closed =>
    simp only [simStep, hplace]
    exact ⟨_, rfl, .inl rfl, by simp [Place.left]⟩

theorem Releasable.frees (h : Releasable s) (hx : Exclusive s) :
    ∃ moves s', run simStep s moves = some s' ∧ s'.lock = none ∧ Exclusive s' := by
  cases hlock : s.lock with
  | none => exact ⟨[], s, rfl, hlock, hx⟩
  | some t =>
    have hstep : ∀ s : SimContext, Exclusive s ∧ Releasable s ∧ (s.lock = none ∨ s.lock = some t) → ¬s.lock = none →
        ∃ s', simStep s (.goesOn t 0) = some s' ∧
          (Exclusive s' ∧ Releasable s' ∧ (s'.lock = none ∨ s'.lock = some t)) ∧
            (s'.place t).left < (s.place t).left := by
      rintro s ⟨hx, h, hlock⟩ hheld
      replace hlock := hlock.resolve_left hheld
      obtain ⟨s', hs, hlock', hleft⟩ := h.goesOn hlock
      have hm : StillOpen s (.goesOn t 0) := by
        intro fd hclosing
        have hholds := (h t hlock).1
        rw [hclosing] at hholds
        cases hholds
      exact ⟨s', hs, ⟨hx.step hs, (h.step_iff hx hs).mpr hm, hlock'⟩, hleft⟩
    obtain ⟨k, s', -, hrun, ⟨hx', -⟩, hfree⟩ := reaches_of_rank hstep ⟨hx, h, .inr hlock⟩
    exact ⟨_, s', hrun, hfree, hx'⟩

theorem canLock_on (s' : SimContext) (hs : simStep s m = some s') (h : CanLock s' t) : CanLock s t := by
  obtain ⟨moves, u, hrun, hlock⟩ := h
  exact ⟨m :: moves, u, by rw [run_cons hs, hrun], hlock⟩

theorem canLock_acquires (place : Place) (hfree : s.lock = none) (hs : simStep s m = s.acquire t place) :
    CanLock s t := by
  rw [SimContext.acquire, if_pos (by rw [hfree]; rfl)] at hs
  exact canLock_on _ hs ⟨[], _, rfl, rfl⟩

theorem canLock_outside (hfree : s.lock = none) (h : s.place t = .outside) : CanLock s t := by
  have hcalls : simStep s (.socket t) = some (s.goTo t .allocating) := by simp [simStep, h]
  exact canLock_on _ hcalls (canLock_acquires (m := .goesOn t 0) .choosing hfree (by simp [simStep]))

theorem canLock_of_free (hx : Exclusive s) (hfree : s.lock = none) (t : Nat) : CanLock s t := by
  have hnone : (s.place t).holds = false := by
    rw [← Bool.not_eq_true]
    intro hholds
    cases hfree.symm.trans (hx t hholds)
  cases hplace : s.place t with
  | outside => exact canLock_outside hfree hplace
  | allocating => exact canLock_acquires (m := .goesOn t 0) .choosing hfree (by simp [simStep, hplace])
  | closing fd => exact canLock_acquires (m := .goesOn t 0) (.checking fd) hfree (by simp [simStep, hplace])
  | testing fd =>
    by_cases hactive : s.mockActive = true
    · have hpasses : simStep s (.goesOn t 0) = some (s.goTo t (.closing fd)) := by simp [simStep, hplace, hactive]
      exact canLock_on _ hpasses (canLock_acquires (m := .goesOn t 0) (.checking fd) hfree (by simp [simStep]))
    · have hleaves : simStep s (.goesOn t 0) = some (s.leave t 0) := by simp [simStep, hplace, hactive]
      exact canLock_on _ hleaves (canLock_outside hfree (leave_own s t 0))
  | choosing => simp [hplace, Place.holds] at hnone
  | activating fd => simp [hplace, Place.holds] at hnone
  | allocated fd => simp [hplace, Place.holds] at hnone
  | checking fd => simp [hplace, Place.holds] at hnone
  | closed => simp [hplace, Place.holds] at hnone

theorem Releasable.canLock (h : Releasable s) (hx : Exclusive s) (t : Nat) : CanLock s t := by
  obtain ⟨moves, s', hrun, hfree, hx'⟩ := h.frees hx
  obtain ⟨moves', u, hrun', hlock⟩ := canLock_of_free hx' hfree t
  refine ⟨moves ++ moves', u, ?_, hlock⟩
  rw [run_append, hrun]
  exact hrun'

-- ---------------------------------------------------------------------------
-- A lock that nobody unlocks
-- ---------------------------------------------------------------------------

/-- The thread has the lock and is out of its call, or about to be. -/
def Keeps (t : Nat) (s : SimContext) : Prop :=
  s.lock = some t ∧ ((s.place t).holds = false ∨ ∃ fd, s.place t = .checking fd ∧ s.mockSocket ≠ fd)

theorem Keeps.step (h : Keeps t s) (hx : Exclusive s) (hs : simStep s m = some s') : Keeps t s' := by
  obtain ⟨hlock, hplace⟩ := h
  cases simStep_cases hs with
  | passes u place hmoved hsame hout hin hm =>
    refine ⟨hmoved.lock.trans hlock, ?_⟩
    by_cases htu : t = u
    · rw [htu, hmoved.own]
      exact .inl hin
    · rw [hmoved.other htu, hsame]
      exact hplace
  | locks u place hmoved hsame hfree hin hm =>
    rw [hfree] at hlock
    cases hlock
  | works u place hmoved hout hfound hin hdone hm =>
    obtain rfl := hx.same hout hlock
    rcases hplace with hnone | ⟨fd, hchecking, hlost⟩
    · rw [hnone] at hout
      cases hout
    · exact absurd (hfound fd hchecking) hlost
  | unlocks u hmoved hout hdone hm =>
    obtain rfl := hx.same hout hlock
    rcases hplace with hnone | ⟨fd, hchecking, -⟩
    · rw [hnone] at hout
      cases hout
    · exact absurd hchecking (hdone fd)
  | leaks u fd hmoved hchecking hlost =>
    have hout : (s.place u).holds = true := by
      rw [hchecking]
      rfl
    obtain rfl := hx.same hout hlock
    refine ⟨hmoved.lock.trans hlock, .inl ?_⟩
    rw [hmoved.own]
    rfl

theorem Keeps.not_canLock (h : Keeps t s) (hx : Exclusive s) (hut : u ≠ t) : ¬CanLock s u := by
  rintro ⟨moves, s', hrun, hlock⟩
  have hall : Throughout simStep (fun s => Exclusive s ∧ Keeps t s) s moves :=
    throughout_of_keeps (fun s m s' h hs => ⟨h.1.step hs, h.2.step h.1 hs⟩) ⟨hx, h⟩
  obtain ⟨-, hkept, -⟩ := hall.last hrun
  exact hut (Option.some.inj (hlock.symm.trans hkept))

theorem keeps_of_not_releasable (h : ¬Releasable s) : ∃ t, Keeps t s := by
  by_contra hnone
  refine h fun t hlock => ?_
  by_contra hnot
  refine hnone ⟨t, hlock, ?_⟩
  by_contra hneither
  simp only [not_or, not_exists, not_and, not_not, Bool.not_eq_false] at hneither
  exact hnot hneither

theorem releasable_iff (hx : Exclusive s) : (∀ t, CanLock s t) ↔ Releasable s := by
  constructor
  · intro hall
    by_contra hnot
    obtain ⟨t, hkeeps⟩ := keeps_of_not_releasable hnot
    exact hkeeps.not_canLock hx (Nat.succ_ne_self t) (hall (t + 1))
  · intro h t
    exact h.canLock hx t

theorem canLock_or_kept (hx : Exclusive s) :
    (∀ t, CanLock s t) ∨ ∃ t, s.lock = some t ∧ ∀ u, u ≠ t → ¬CanLock s u := by
  by_cases h : Releasable s
  · exact .inl ((releasable_iff hx).mpr h)
  · obtain ⟨t, hkeeps⟩ := keeps_of_not_releasable h
    exact .inr ⟨t, hkeeps.1, fun u hut => hkeeps.not_canLock hx hut⟩

end

/-- For every number of threads and however their calls are interleaved. A lock
that not all can get stays with one thread for good. -/
theorem lock_free_iff (moves : List Move) :
    (Throughout simStep (fun s => ∀ t, CanLock s t) simInitContext moves ↔
      Along simStep StillOpen simInitContext moves) ∧
    Throughout simStep
      (fun s => (∀ t, CanLock s t) ∨ ∃ t, s.lock = some t ∧ ∀ u, u ≠ t → ¬CanLock s u) simInitContext moves := by
  have hnone : Exclusive simInitContext := by
    intro t h
    cases h
  constructor
  · refine throughout_iff_along (I := Exclusive) (fun _ _ _ h hs => h.step hs) ?_ hnone ?_
    · intro s m s' hx h hs
      rw [releasable_iff (hx.step hs)]
      exact ((releasable_iff hx).mp h).step_iff hx hs
    · exact (releasable_iff hnone).mpr fun t h => by cases h
  · exact (throughout_of_keeps (fun _ _ _ h hs => h.step hs) hnone).mono fun _ hx => canLock_or_kept hx

def benchTwice : List Move :=
  [.socket 0, .goesOn 0 0, .goesOn 0 0, .goesOn 0 0, .goesOn 0 0, .close 0 1023 (-1), .close 1 1023 (-1),
    .goesOn 0 0, .goesOn 1 0, .goesOn 0 0, .goesOn 0 0, .goesOn 0 0, .goesOn 1 0, .goesOn 1 0]

example : (run simStep simInitContext benchTwice).map (fun s => (s.lock, s.place 1, s.returned)) =
    some (some 1, .outside, [(0, 1023), (0, 0), (1, 0)]) := by
  decide

end KuksaServices.Seat.CanSim
