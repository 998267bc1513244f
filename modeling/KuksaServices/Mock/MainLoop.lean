import Mathlib.Algebra.BigOperators.Group.List.Basic
import Mathlib.Tactic.Linarith
import KuksaServices.Mock.Animators

/-!
# The clock of the main loop

`main_loop` gives the time since its last time stamp to the triggers and to
the animators. It takes the next stamp from the clock at the end of the turn,
so that the time the turn has taken is given to nobody. No time is lost, and
no animation ends late, exactly when every tick but the last takes no time
(`no_time_lost_iff`).
-/

namespace KuksaServices.Mock

open Atomic (Raise Frame Throughout Along)

variable {script : Script} {s t : Service} {r : Ref} {b : Behavior} {deltaTime time : ℚ}
  {animator : ValueAnimator}

-- ---------------------------------------------------------------------------
-- The loop with its clock
-- ---------------------------------------------------------------------------

/-- Before `check_for_new_mocks`, behind it, or left by an exception. -/
inductive LoopPoint where
  | checking
  | ticking
  | ended
  deriving DecidableEq, Repr

structure MainLoop where
  service : Service
  point : LoopPoint
  lastTick : ℚ
  /-- That of the last tick; at first the stamp of the constructor. -/
  currentTickTime : ℚ
  /-- The `delta_time` of every tick. -/
  deltas : List ℚ
  /-- When the animator of an action was made, as long as the action is
  loaded. -/
  started : Ref → Option ℚ

def Service.animator? (s : Service) (r : Ref) : Option ValueAnimator := (s.heap.actions r).animator?

def Service.isLoaded (s : Service) (r : Ref) : Bool :=
  s.mocked.any fun element => element.2.behaviors.any (·.action == r)

def MainLoop.follow (s : MainLoop) (t : Service) (time : Ref → ℚ) : MainLoop :=
  { s with
    service := t
    started := fun r =>
      if t.isLoaded r then
        if t.animator? r = s.service.animator? r then s.started r else some (time r)
      else none }

/-- The rest of a turn, with the two readings of the clock. -/
def MainLoop.tick (script : Script) (start finish : ℚ) (made : Ref → ℚ) (s : MainLoop) : MainLoop :=
  let deltaTime := start - s.lastTick
  let s := { s with currentTickTime := start, deltas := s.deltas ++ [deltaTime] }
  match (execute script deltaTime).exec s.service with
  | (none, t) => { s with service := t, point := .ended }
  | (some _, t) =>
    let s := s.follow t fun r => max start (min finish (made r))
    match (animate script deltaTime).exec s.service with
    | (none, t) => { s with service := t, point := .ended }
    | (some _, t) => { s with service := t, point := .checking, lastTick := finish }

/-- The inputs have what the clock shows: at the two readings of a tick, and
when the animator of an action is made. -/
inductive ClockInput where
  | connect (made : Ref → ℚ)
  | check (made : Ref → ℚ)
  | tick (start finish : ℚ) (made : Ref → ℚ)
  | edit (e : Edit)
  | receive (name : EventType) (path : Path) (value : Value)
  | setExternally (path : Path) (value : Value)

/-- The readings do not decrease. -/
def mainLoopStep (script : Script) (s : MainLoop) : ClockInput → Option MainLoop
  | .connect made =>
    some (s.follow ((onDatabrokerConnected script).exec s.service).2 fun r => max s.lastTick (made r))
  | .check made =>
    if s.point = .checking ∧ s.service.registered = true then
      let (result, t) := (checkForNewMocks script false).exec s.service
      some { s.follow t fun r => max s.lastTick (made r) with
        point := if result.isSome then .ticking else .ended }
    else none
  | .tick start finish made =>
    if s.point = .ticking ∧ s.lastTick ≤ start ∧ start ≤ finish then
      some (s.tick script start finish made)
    else none
  | .edit e => some { s with service := edit e s.service }
  | .receive name path value => some { s with service := receive name path value s.service }
  | .setExternally path value => some { s with service := setExternally path value s.service }

def MainLoop.start (s : Service) (stamp : ℚ) : MainLoop := ⟨s, .checking, stamp, stamp, [], fun _ => none⟩

/-- The time given makes up the time from `stamp` to the last tick, and what
has been playing for more than its duration is done. -/
structure NoTimeLost (stamp : ℚ) (s : MainLoop) : Prop where
  given : s.deltas.sum = s.currentTickTime - stamp
  complete : s.point ≠ .ended → ∀ r started animator, s.started r = some started →
    s.service.animator? r = some animator → animator.repeatMode = .once →
      max 0 animator.duration < s.currentTickTime - started → animator.done = true

/-- No time has passed between the two readings of the tick before. -/
def NoGap (s : MainLoop) : ClockInput → Prop
  | .tick .. => s.lastTick = s.currentTickTime
  | _ => True

-- ---------------------------------------------------------------------------
-- New animators
-- ---------------------------------------------------------------------------

def restarting : Frame Service where
  on _ := True
  does s t := ∀ r, t.animator? r = s.animator? r ∨ ∃ a, t.animator? r = some a ∧ a.animTime = 0
  refl _ _ := .inl rfl
  trans h h' r := by
    rcases h' r with hsame | hnew
    · rw [hsame]
      exact h r
    · exact .inr hnew
  keeps _ _ := trivial

theorem restarting_of_actions (h : t.heap.actions = s.heap.actions) : restarting.does s t := by
  intro r
  left
  rw [Service.animator?, Service.animator?, h]

theorem restarting_setValue (r : Ref) (value : Value) : Raise.Within restarting (setValue r value) :=
  fun s _ => restarting_of_actions (congrArg Heap.actions (setValue_heap r value s))

theorem new?_animTime {interp1d : Interp1d}
    (h : ValueAnimator.new? interp1d values duration repeatMode r = some animator) :
    animator.animTime = 0 := by
  obtain ⟨_, -, h⟩ := Option.bind_eq_some_iff.mp h
  obtain ⟨_, -, rfl⟩ := Option.map_eq_some_iff.mp h
  rfl

theorem restarting_executeAction (b : Behavior) (trigger : TriggerResult) (r : Ref) (path : Path) :
    Raise.Within restarting (executeAction script b trigger r path) := by
  refine executeAction_within (fun _ _ _ => restarting_of_actions rfl) (restarting_setValue r) ?_ trigger
    path
  intro s a values animator _ hnew r'
  by_cases heq : r' = b.action
  · subst heq
    exact .inr ⟨animator, by simp [Service.animator?, Service.setAction, Action.animator?], new?_animTime hnew⟩
  · refine .inl ?_
    simp only [Service.animator?, Service.setAction, Function.update_of_ne heq]

theorem restarting_execute (deltaTime : ℚ) : Raise.Within restarting (execute script deltaTime) := by
  refine .bind (.peek _ _) fun mocked => .forEach fun element _ => .forUntil fun b _ => ?_
  exact visitBehavior_within (fun _ _ _ => restarting_of_actions rfl)
    (fun s _ => restarting_of_actions (check_actions b _ deltaTime s))
    (fun _ _ => restarting_of_actions rfl) fun result => restarting_executeAction b result _ _

theorem restarting_forceBehavior (d : Registration) (dataType : DataType) (b : Behavior) :
    Raise.Within restarting (forceBehavior script d dataType b) := by
  refine .bind (fun s _ => restarting_of_actions rfl) fun _ => .bind (.peek _ _) fun trigger => ?_
  exact .bind (fun s _ => restarting_of_actions rfl) fun r => restarting_executeAction b trigger r d.path

theorem restarting_check (changed : Bool) : Raise.Within restarting (checkForNewMocks script changed) := by
  refine .bind (.peek _ _) fun changed => ?_
  split
  · refine .bind ?_ fun mocked => fun s _ => restarting_of_actions rfl
    refine .bind (fun s _ => restarting_of_actions rfl) fun _ => ?_
    exact loadRegistry_within (fun _ _ _ _ => restarting_of_actions rfl) restarting_forceBehavior
  · exact .pure _

theorem restarting_connect : Raise.Within restarting (onDatabrokerConnected script) := by
  refine .bind (.peek _ _) fun registered => ?_
  split
  · exact .pure _
  · refine .bind (restarting_check true) fun _ => .bind (.peek _ _) fun mocked => .forEach fun element _ => ?_
    refine .bind (.peek _ _) fun d => ?_
    split
    · intro s _
      obtain ⟨_, _, _, hframe⟩ := setDatapoint_frame d.path d.value s
      rw [hframe]
      exact restarting_of_actions rfl
    · exact .pure _

-- ---------------------------------------------------------------------------
-- The animation pass
-- ---------------------------------------------------------------------------

def ValueAnimator.Reached (time : ℚ) (a : ValueAnimator) : Prop :=
  a.repeatMode = .once → a.done = true ∨ time ≤ a.animTime

def ValueAnimator.Bounded (a : ValueAnimator) : Prop :=
  a.repeatMode = .once → a.done = true ∨ a.animTime ≤ a.duration

theorem ValueAnimator.Reached.mono (h : animator.Reached time) (hle : time' ≤ time) :
    animator.Reached time' :=
  fun honce => (h honce).imp_right hle.trans

theorem ValueAnimator.Reached.tick (h : animator.Reached time) (hdone : animator.done = false)
    (interp1d : Interp1d) (deltaTime : ℚ) :
    (animator.tick interp1d deltaTime).Reached (time + deltaTime) ∧
      (animator.tick interp1d deltaTime).Bounded := by
  by_cases honce : animator.repeatMode = .once
  · have hreached : time ≤ animator.animTime := (h honce).resolve_left (by simp [hdone])
    by_cases hover : animator.animTime + deltaTime > animator.duration
    · have htick : (animator.tick interp1d deltaTime).done = true := by
        simp [ValueAnimator.tick, ValueAnimator.advance, hover, honce]
      exact ⟨fun _ => .inl htick, fun _ => .inl htick⟩
    · have htick : (animator.tick interp1d deltaTime).animTime = animator.animTime + deltaTime := by
        simp [ValueAnimator.tick, ValueAnimator.advance, hover]
      refine ⟨fun _ => .inr ?_, fun _ => .inr ?_⟩
      · rw [htick]
        linarith
      · rw [htick]
        exact not_lt.mp hover
  · exact ⟨fun h => absurd h honce, fun h => absurd h honce⟩

theorem animator_of_play (script : Script) (deltaTime : ℚ) (b : Behavior) (s : Service) (r : Ref) :
    (((animateBehavior script deltaTime b).exec s).2.animator? r = s.animator? r ∧
      (b.action = r → ∀ a, s.animator? r = some a → a.done = true)) ∨
    ∃ a, s.animator? r = some a ∧ a.done = false ∧
      ((animateBehavior script deltaTime b).exec s).2.animator? r =
        some (a.tick script.interp1d deltaTime) := by
  rcases animateBehavior_cases script deltaTime b s with ⟨hdone, hsame⟩ | ⟨a, animator, ha, hsome, hdone, hexec⟩
  · rw [hsame]
    refine .inl ⟨rfl, ?_⟩
    rintro rfl
    exact hdone
  · rw [hexec, Service.animator?, setValue_heap]
    by_cases heq : b.action = r
    · subst heq
      refine .inr ⟨animator, ?_, hdone, ?_⟩
      · simp [Service.animator?, ha, Action.animator?, hsome]
      · simp [Service.setAnimator, Service.setAction, Action.animator?]
    · refine .inl ⟨?_, fun h => absurd h heq⟩
      simp only [Service.setAnimator, Service.setAction, Function.update_of_ne (Ne.symm heq),
        Service.animator?]

def OfAnimator (r : Ref) (P : ValueAnimator → Prop) (s : Service) : Prop := ∀ a, s.animator? r = some a → P a

/-- The pass comes to another behavior or to that of the animator. -/
theorem OfAnimator.keep {P : ValueAnimator → Prop}
    (htick : ∀ a, P a → a.done = false → P (a.tick script.interp1d deltaTime)) (h : OfAnimator r P s)
    (hexec : (animateBehavior script deltaTime b).exec s = (some (), t)) : OfAnimator r P t := by
  intro a ha
  have hcases := animator_of_play script deltaTime b s r
  rw [hexec] at hcases
  rcases hcases with ⟨hsame, -⟩ | ⟨a', ha', hgoing, htick'⟩
  · exact h a (hsame ▸ ha)
  · obtain rfl := Option.some.inj (ha.symm.trans htick')
    exact htick a' (h a' ha') hgoing

theorem OfAnimator.play {P Q : ValueAnimator → Prop}
    (htick : ∀ a, P a → a.done = false → Q (a.tick script.interp1d deltaTime))
    (hdone : ∀ a, P a → a.done = true → Q a) (hb : b.action = r) (h : OfAnimator r P s)
    (hexec : (animateBehavior script deltaTime b).exec s = (some (), t)) : OfAnimator r Q t := by
  intro a ha
  have hcases := animator_of_play script deltaTime b s r
  rw [hexec] at hcases
  rcases hcases with ⟨hsame, hall⟩ | ⟨a', ha', hgoing, htick'⟩
  · rw [hsame] at ha
    exact hdone a (h a ha) (hall hb a ha)
  · obtain rfl := Option.some.inj (ha.symm.trans htick')
    exact htick a' (h a' ha') hgoing

theorem reached_of_animate (h : OfAnimator r (·.Reached time) s) (hr : s.isLoaded r = true)
    (hdelta : 0 ≤ deltaTime) (hexec : (animate script deltaTime).exec s = (some (), t)) :
    OfAnimator r (fun a => a.Reached (time + deltaTime) ∧ a.Bounded) t := by
  obtain ⟨element, he, hany⟩ := List.any_eq_true.mp hr
  obtain ⟨b, hb, haction⟩ := List.any_eq_true.mp hany
  have hlater : time ≤ time + deltaTime := by linarith
  have hbefore : ∀ (b : Behavior) v v', OfAnimator r (·.Reached time) v →
      (animateBehavior script deltaTime b).exec v = (some (), v') → OfAnimator r (·.Reached time) v' := by
    intro b v v' hv hplay
    exact hv.keep (fun a ha hgoing => (ha.tick hgoing _ _).1.mono hlater) hplay
  have hafter : ∀ (b : Behavior) v v', OfAnimator r (fun a => a.Reached (time + deltaTime) ∧ a.Bounded) v →
      (animateBehavior script deltaTime b).exec v = (some (), v') →
        OfAnimator r (fun a => a.Reached (time + deltaTime) ∧ a.Bounded) v' := by
    intro b v v' hv hplay
    refine hv.keep (fun a ha hgoing => ?_) hplay
    obtain ⟨hreached, hbounded⟩ := ha.1.tick hgoing script.interp1d deltaTime
    exact ⟨hreached.mono (by linarith), hbounded⟩
  have hplayed : ∀ v v', OfAnimator r (·.Reached time) v →
      (animateBehavior script deltaTime b).exec v = (some (), v') →
        OfAnimator r (fun a => a.Reached (time + deltaTime) ∧ a.Bounded) v' := by
    intro v v' hv hplay
    refine hv.play (fun a ha hgoing => ha.tick hgoing _ _) ?_ (by simpa using haction) hplay
    exact fun a _ hdone => ⟨fun _ => .inl hdone, fun _ => .inl hdone⟩
  -- within the pass the loop over the datapoint, and within that the behavior
  simp only [animate, Raise.exec_bind, Raise.exec_peek, Option.elim_some] at hexec
  refine Raise.forEach_reaches he ?_ ?_ ?_ h hexec
  · exact fun e _ v v' hv => Raise.forEach_keeps (fun b _ => hbefore b) hv
  · exact fun e _ v v' hv => Raise.forEach_keeps (fun b _ => hafter b) hv
  · intro v v' hv
    exact Raise.forEach_reaches hb (fun b _ => hbefore b) (fun b _ => hafter b) hplayed hv

-- ---------------------------------------------------------------------------
-- Steps without a gap
-- ---------------------------------------------------------------------------

def MainLoop.PlayingAt (now : ℚ) (s : MainLoop) : Prop :=
  ∀ r began, s.started r = some began →
    OfAnimator r (fun a => a.Reached (now - began) ∧ (0 < now - began → a.Bounded)) s.service

structure OnTime (stamp : ℚ) (s : MainLoop) : Prop where
  given : s.deltas.sum = s.currentTickTime - stamp
  stamps : s.point ≠ .ended → s.currentTickTime ≤ s.lastTick
  playing : s.point ≠ .ended → s.PlayingAt s.currentTickTime

section
variable {stamp now start finish began : ℚ} {made at' : Ref → ℚ} {s : MainLoop}

theorem OnTime.noTimeLost (h : OnTime stamp s) : NoTimeLost stamp s := by
  refine ⟨h.given, fun hpoint r began animator hbegan hanimator honce hover => ?_⟩
  obtain ⟨hreached, hbounded⟩ := h.playing hpoint r began hbegan animator hanimator
  obtain ⟨hpos, hover⟩ := max_lt_iff.mp hover
  rcases hreached honce with hdone | hreached
  · exact hdone
  · exact (hbounded hpos honce).resolve_right (by linarith)

theorem MainLoop.follow_started (h : (s.follow t at').started r = some began) : t.isLoaded r = true ∧
    (t.animator? r = s.service.animator? r ∧ s.started r = some began ∨
      t.animator? r ≠ s.service.animator? r ∧ began = at' r) := by
  simp only [MainLoop.follow] at h
  split at h
  · rename_i hloaded
    refine ⟨hloaded, ?_⟩
    split at h
    · rename_i hsame
      exact .inl ⟨hsame, h⟩
    · rename_i hnew
      exact .inr ⟨hnew, (Option.some.inj h).symm⟩
  · cases h

theorem MainLoop.PlayingAt.follow (h : s.PlayingAt now) (hrestarting : restarting.does s.service t)
    (hat : ∀ r, now ≤ at' r) : (s.follow t at').PlayingAt now := by
  intro r began hbegan animator hanimator
  obtain ⟨-, ⟨hsame, hbegan⟩ | ⟨hnew, rfl⟩⟩ := MainLoop.follow_started hbegan
  · exact h r began hbegan animator (hsame ▸ hanimator)
  · obtain ⟨a, ha, hzero⟩ := (hrestarting r).resolve_left hnew
    obtain rfl := Option.some.inj (ha.symm.trans hanimator)
    have hle := hat r
    refine ⟨fun _ => .inr ?_, fun hpos => ?_⟩
    · rw [hzero]
      linarith
    · linarith

theorem MainLoop.tick_given (script : Script) (start finish : ℚ) (made : Ref → ℚ) (s : MainLoop) :
    (s.tick script start finish made).deltas = s.deltas ++ [start - s.lastTick] ∧
      (s.tick script start finish made).currentTickTime = start := by
  unfold MainLoop.tick
  dsimp only
  split
  · exact ⟨rfl, rfl⟩
  · split <;> exact ⟨rfl, rfl⟩

/-- The time given grows by what has passed since the tick before just when
nothing passed between its readings. -/
theorem tick_given_iff (h : s.deltas.sum = s.currentTickTime - stamp) :
    (s.tick script start finish made).deltas.sum =
        (s.tick script start finish made).currentTickTime - stamp ↔ s.lastTick = s.currentTickTime := by
  obtain ⟨hdeltas, htime⟩ := s.tick_given script start finish made
  rw [hdeltas, htime, List.sum_append, List.sum_singleton, h]
  constructor
  · intro hsum
    linarith
  · intro hgap
    linarith

theorem MainLoop.tick_cases (script : Script) (start finish : ℚ) (made : Ref → ℚ) (s : MainLoop) :
    (s.tick script start finish made).point = .ended ∨ ∃ t u,
      (execute script (start - s.lastTick)).exec s.service = (some (), t) ∧
        (animate script (start - s.lastTick)).exec t = (some (), u) ∧
        s.tick script start finish made =
          { s.follow t fun r => max start (min finish (made r)) with
            service := u
            point := .checking
            lastTick := finish
            currentTickTime := start
            deltas := s.deltas ++ [start - s.lastTick] } := by
  unfold MainLoop.tick
  dsimp only
  rcases hexecute : (execute script (start - s.lastTick)).exec s.service with ⟨_ | _, t⟩
  · exact .inl rfl
  · rcases hanimate : (animate script (start - s.lastTick)).exec t with ⟨_ | _, u⟩
    · left
      simp only [MainLoop.follow, hanimate]
    · refine .inr ⟨t, u, rfl, hanimate, ?_⟩
      simp only [MainLoop.follow, hanimate]

theorem OnTime.tick (h : OnTime stamp s) (hgap : s.lastTick = s.currentTickTime) (hpoint : s.point ≠ .ended)
    (hstart : s.lastTick ≤ start) (hfinish : start ≤ finish) :
    OnTime stamp (s.tick script start finish made) := by
  have hgiven : (s.tick script start finish made).deltas.sum =
      (s.tick script start finish made).currentTickTime - stamp := (tick_given_iff h.given).mpr hgap
  rcases s.tick_cases script start finish made with hended | ⟨t, u, hexecute, hanimate, htick⟩
  · exact ⟨hgiven, fun hrunning => absurd hended hrunning, fun hrunning => absurd hended hrunning⟩
  · refine ⟨hgiven, fun _ => ?_, fun _ => ?_⟩
    · rw [htick]
      exact hfinish
    · have hrestarting : restarting.does s.service
          ((execute script (start - s.lastTick)).exec s.service).2 := restarting_execute _ s.service trivial
      rw [hexecute] at hrestarting
      have hfollow : (s.follow t fun r => max start (min finish (made r))).PlayingAt s.currentTickTime :=
        (h.playing hpoint).follow hrestarting fun r => le_max_of_le_left (hgap ▸ hstart)
      rw [htick]
      intro r began hbegan animator hanimator
      have hfollowed : (s.follow t fun r => max start (min finish (made r))).started r = some began := hbegan
      obtain ⟨hloaded, -⟩ := MainLoop.follow_started hfollowed
      have hbefore : OfAnimator r (·.Reached (s.currentTickTime - began)) t :=
        fun a ha => (hfollow r began hfollowed a ha).1
      obtain ⟨hreached, hbounded⟩ := reached_of_animate hbefore hloaded (sub_nonneg.mpr hstart) hanimate
        animator hanimator
      have htime : start - began = s.currentTickTime - began + (start - s.lastTick) := by linarith
      exact ⟨hreached.mono htime.le, fun _ => hbounded⟩

-- ---------------------------------------------------------------------------
-- Runs
-- ---------------------------------------------------------------------------

theorem onTime_start (t : Service) (stamp : ℚ) : OnTime stamp (.start t stamp) := by
  refine ⟨?_, fun _ => le_refl _, fun _ r began hbegan => ?_⟩
  · simp [MainLoop.start]
  · cases hbegan

/-- What comes between two ticks gives no time. -/
theorem OnTime.follow (h : OnTime stamp s) (hrestarting : restarting.does s.service t)
    (point : LoopPoint) (hpoint : point ≠ .ended → s.point ≠ .ended) :
    OnTime stamp { s.follow t fun r => max s.lastTick (made r) with point := point } := by
  refine ⟨h.given, fun hrunning => h.stamps (hpoint hrunning), fun hrunning => ?_⟩
  have hstamps := h.stamps (hpoint hrunning)
  exact (h.playing (hpoint hrunning)).follow hrestarting fun r => le_max_of_le_left hstamps

theorem OnTime.heap (h : OnTime stamp s) (hheap : t.heap = s.service.heap) :
    OnTime stamp { s with service := t } := by
  refine ⟨h.given, h.stamps, fun hrunning r began hbegan animator hanimator => ?_⟩
  simp only [Service.animator?, hheap] at hanimator
  exact h.playing hrunning r began hbegan animator hanimator

theorem OnTime.step {u : MainLoop} (h : OnTime stamp s) (hgap : NoGap s input)
    (hstep : mainLoopStep script s input = some u) : OnTime stamp u := by
  cases input with
  | connect made =>
    obtain rfl := Option.some.inj hstep
    exact h.follow (restarting_connect s.service trivial) s.point id
  | check made =>
    simp only [mainLoopStep] at hstep
    split at hstep
    · rename_i hchecking
      obtain rfl := Option.some.inj hstep
      refine h.follow (restarting_check false s.service trivial) _ fun _ => ?_
      rw [hchecking.1]
      decide
    · cases hstep
  | tick start finish made =>
    simp only [mainLoopStep] at hstep
    split at hstep
    · rename_i hticking
      obtain rfl := Option.some.inj hstep
      refine h.tick hgap ?_ hticking.2.1 hticking.2.2
      rw [hticking.1]
      decide
    · cases hstep
  | edit e =>
    obtain rfl := Option.some.inj hstep
    exact h.heap rfl
  | receive name path value =>
    obtain rfl := Option.some.inj hstep
    refine h.heap ?_
    unfold receive
    split <;> rfl
  | setExternally path value =>
    obtain rfl := Option.some.inj hstep
    exact h.heap rfl

theorem OnTime.noGap {u : MainLoop} (h : OnTime stamp s) (hstep : mainLoopStep script s input = some u)
    (hu : NoTimeLost stamp u) : NoGap s input := by
  cases input with
  | tick start finish made =>
    simp only [mainLoopStep] at hstep
    split at hstep
    · obtain rfl := Option.some.inj hstep
      exact (tick_given_iff h.given).mp hu.given
    · cases hstep
  | _ => trivial

end

/-- For every service and every run of the main loop, whatever is executed and
played in it and whatever time that takes. -/
theorem no_time_lost_iff (script : Script) (s : Service) (stamp : ℚ) (inputs : List ClockInput) :
    Throughout (mainLoopStep script) (NoTimeLost stamp) (.start s stamp) inputs ↔
      Along (mainLoopStep script) NoGap (.start s stamp) inputs := by
  refine Atomic.throughout_iff_along_of_keeps (Q := OnTime stamp) (fun _ h => h.noTimeLost) ?_
    (onTime_start s stamp)
  intro w input w' hw hstep
  refine ⟨⟨hw.noGap hstep, fun hgap => (hw.step hgap hstep).noTimeLost⟩, fun hlost => ?_⟩
  exact hw.step (hw.noGap hstep hlost) hstep

/-- A turn that returns is one of the service, for the time since the last
stamp. -/
theorem tick_of_turn {s u v : MainLoop} (hcheck : mainLoopStep script s (.check made) = some u)
    (htick : mainLoopStep script u (.tick start finish made') = some v) (hv : v.point = .checking) :
    (tick script (start - s.lastTick)).exec s.service = (some (), v.service) := by
  simp only [mainLoopStep] at hcheck htick
  split at hcheck
  · split at htick
    · rename_i hticking
      obtain rfl := Option.some.inj hcheck
      obtain rfl := Option.some.inj htick
      rcases hexec : (checkForNewMocks script false).exec s.service with ⟨_ | _, t⟩
      · simp [hexec] at hticking
      · simp only [hexec, Option.isSome_some, if_true] at hv ⊢
        rcases MainLoop.tick_cases script start finish made' _ with hended | ⟨t', w, hexecute, hanimate, heq⟩
        · rw [hended] at hv
          cases hv
        · rw [heq]
          exact Raise.bind_some.mpr ⟨(), t, hexec, Raise.bind_some.mpr ⟨(), t', hexecute, hanimate⟩⟩
    · cases htick
  · cases hcheck

-- ---------------------------------------------------------------------------
-- A slow tick
-- ---------------------------------------------------------------------------

/-- The lamp is loaded at 0, with an animation of ten seconds. The first tick
takes from 6 to 12. -/
def benchSlowTick : List ClockInput :=
  [.check fun _ => 0, .tick 6 12 fun _ => 6, .check fun _ => 12, .tick 14 14 fun _ => 14]

theorem slow_tick_loses_time :
    ∃ s, Atomic.run (mainLoopStep .benchFade) (.start .benchFade 0) benchSlowTick = some s ∧
      s.deltas = [6, 2] ∧ s.currentTickTime = 14 ∧ s.started 0 = some 0 ∧
      (s.service.animator? 0).map (fun a => (a.duration, a.done)) = some (10, false) ∧
      ¬ Throughout (mainLoopStep .benchFade) (NoTimeLost 0) (.start .benchFade 0) benchSlowTick := by
  have hend : (Atomic.run (mainLoopStep .benchFade) (.start .benchFade 0) benchSlowTick).map (fun s =>
      (s.deltas, s.currentTickTime, s.started 0,
        (s.service.animator? 0).map fun a => (a.duration, a.done))) =
      some ([6, 2], 14, some 0, some (10, false)) := by
    decide +kernel
  obtain ⟨s, hrun, hs⟩ := Option.map_eq_some_iff.mp hend
  simp only [Prod.mk.injEq] at hs
  obtain ⟨hdeltas, htime, hstarted, hanimator⟩ := hs
  refine ⟨s, hrun, hdeltas, htime, hstarted, hanimator, fun h => ?_⟩
  have hgiven := (h.last hrun).given
  rw [hdeltas, htime] at hgiven
  revert hgiven
  decide +kernel

end KuksaServices.Mock
