import KuksaServices.Mock.Reloads

/-!
# Animators of the loaded actions

The animation pass of the main loop asks the animator of every animation it
comes to. The forced executions of a load make one, except on a datapoint of
a discrete type, where an execution only logs an error. Such an action has no
animator unless it got one elsewhere, and the pass then raises, which ends
the loop for all datapoints.
-/

namespace KuksaServices.Mock

open Atomic (Raise Along Throughout)

variable {script : Script} {s t u : Service} {A B : Ref → Prop} {n : Ref} {b : Behavior}
  {d : Registration} {path : Path}

-- ---------------------------------------------------------------------------
-- What a load does to the actions
-- ---------------------------------------------------------------------------

/-- The types on which an animation is not executed. -/
def DataType.isDiscrete (dataType : DataType) : Bool := dataType == .boolean || dataType == .string

/-- The animations among `A` have got an animator on a datapoint from `n` on;
all other actions are as they were. -/
structure Forces (n : Ref) (A : Ref → Prop) (s t : Service) : Prop where
  others : ∀ r, ¬A r → t.heap.actions r = s.heap.actions r
  sets : ∀ r a, s.heap.actions r = .set a → t.heap.actions r = .set a
  animations : ∀ r, A r → ∀ a, s.heap.actions r = .animation a → ∃ a' animator,
    t.heap.actions r = .animation a' ∧ a'.animator = some animator ∧ n ≤ animator.datapoint

theorem Forces.none (h : t.heap.actions = s.heap.actions) : Forces n (fun _ => False) s t :=
  ⟨fun _ _ => by rw [h], fun _ _ ha => by rw [h, ha], fun _ hA => hA.elim⟩

theorem Forces.trans (h : Forces n A s t) (h' : Forces n B t u) :
    Forces n (fun r => A r ∨ B r) s u := by
  refine ⟨fun r hr => ?_, fun r a ha => h'.sets r a (h.sets r a ha), fun r hr a ha => ?_⟩
  · obtain ⟨hA, hB⟩ := not_or.mp hr
    exact (h'.others r hB).trans (h.others r hA)
  · by_cases hA : A r
    · obtain ⟨a', animator, ha', hsome, hn⟩ := h.animations r hA a ha
      by_cases hB : B r
      · exact h'.animations r hB a' ha'
      · exact ⟨a', animator, (h'.others r hB).trans ha', hsome, hn⟩
    · exact h'.animations r (hr.resolve_left hA) a ((h.others r hA).trans ha)

theorem Forces.congr (h : Forces n A s t) (hAB : ∀ r, A r ↔ B r) : Forces n B s t := by
  obtain rfl : A = B := funext fun r => propext (hAB r)
  exact h

theorem Forces.heap (h : Forces n A s t) (hs : s'.heap = s.heap) (ht : t'.heap = t.heap) :
    Forces n A s' t' := by
  obtain ⟨hothers, hsets, hanimations⟩ := h
  rw [← hs, ← ht] at hothers hsets hanimations
  exact ⟨hothers, hsets, hanimations⟩

theorem Forces.isSome {a : AnimationAction} (h : Forces n A s t) (hA : A r)
    (ha : t.heap.actions r = .animation a) : a.animator.isSome = true := by
  cases hs : s.heap.actions r with
  | set a' => cases ha.symm.trans (h.sets r a' hs)
  | animation a' =>
    obtain ⟨a'', animator, ha'', hsome, -⟩ := h.animations r hA a' hs
    cases ha.symm.trans ha''
    simp [hsome]

theorem setValue_heap (r : Ref) (value : Value) (s : Service) :
    ((setValue r value).exec s).2.heap = s.heap := by
  obtain ⟨_, _, _, _, h⟩ := setValue_frame r value s
  rw [h]

theorem check_actions (b : Behavior) (path : Path) (deltaTime : ℚ) (s : Service) :
    (checkTriggerOf b path deltaTime s).2.heap.actions = s.heap.actions := by
  unfold checkTriggerOf
  dsimp only
  split <;> rfl

/-- An animation that returns has made an animator, unless the datapoint is of
a discrete type. -/
theorem AnimationAction.execute_some {a : AnimationAction}
    (h : (a.execute script action trigger r path).exec s = (some (), t)) :
    t.heap.actions = s.heap.actions ∧ (s.datapoints r).hasDiscreteValueType = true ∨
      (s.datapoints r).hasDiscreteValueType = false ∧ ∃ animator, animator.datapoint = r ∧
        t.heap.actions =
          Function.update s.heap.actions action (.animation { a with animator := some animator }) := by
  simp only [AnimationAction.execute, Raise.bind_some, Raise.exec_peek, Prod.mk.injEq,
    Option.some.injEq] at h
  obtain ⟨_, _, ⟨rfl, rfl⟩, h⟩ := h
  cases hdiscrete : (s.datapoints r).hasDiscreteValueType with
  | true =>
    simp only [hdiscrete, if_true, Raise.exec_pure, Prod.mk.injEq, true_and] at h
    subst h
    exact .inl ⟨rfl, rfl⟩
  | false =>
    simp only [hdiscrete, Bool.false_eq_true, if_false] at h
    obtain ⟨values, v, hresolve, h⟩ := Raise.bind_some.mp h
    -- the values are resolved without a change of the actions
    have hkept : ((if a.dynamic then resolveValues trigger path a.values
        else pure a.values : Py (List Value)).exec s).2.heap.actions = s.heap.actions :=
      a.values_within (F := Keeping fun v => v.heap.actions = s.heap.actions) (fun _ _ _ hv => hv) trigger path
        s rfl rfl
    rw [hresolve] at hkept
    simp only [startAnimator, Raise.exec_attempt] at h
    split at h
    · rename_i animator hnew
      simp only [Prod.mk.injEq, true_and] at h
      subst h
      refine .inr ⟨rfl, animator, new?_datapoint hnew, ?_⟩
      rw [← hkept]
      rfl
    · cases h

/-- An execution that returns has made an animator just for an animation on a
datapoint that is not of a discrete type. -/
theorem executeAction_some (h : (executeAction script b trigger r path).exec s = (some (), t)) :
    t.heap.actions = s.heap.actions ∧
        ((s.datapoints r).hasDiscreteValueType = true ∨ ∃ a, s.heap.actions b.action = .set a) ∨
      (s.datapoints r).hasDiscreteValueType = false ∧ ∃ a animator,
        s.heap.actions b.action = .animation a ∧ animator.datapoint = r ∧ t.heap.actions =
          Function.update s.heap.actions b.action (.animation { a with animator := some animator }) := by
  simp only [executeAction, Raise.exec_bind, Raise.exec_peek, Option.elim_some] at h
  cases haction : s.heap.actions b.action with
  | set a =>
    simp only [haction] at h
    have hkept : ((a.execute trigger r path).exec s).2.heap.actions = s.heap.actions :=
      a.execute_within (F := Keeping fun v => v.heap.actions = s.heap.actions) (fun _ _ _ hv => hv)
        (fun value v _ hv => (congrArg Heap.actions (setValue_heap r value v)).trans hv) trigger path s rfl rfl
    rw [h] at hkept
    exact .inl ⟨hkept, .inr ⟨a, rfl⟩⟩
  | animation a =>
    simp only [haction] at h
    rcases a.execute_some h with ⟨hactions, hdiscrete⟩ | ⟨hdiscrete, animator, hr, hactions⟩
    · exact .inl ⟨hactions, .inl hdiscrete⟩
    · exact .inr ⟨hdiscrete, a, animator, rfl, hr, hactions⟩

def forcedOn (dataType : DataType) (b : Behavior) (r : Ref) : Prop :=
  dataType.isDiscrete = false ∧ b.action = r

theorem forceBehavior_some (hn : n ≤ s.fresh)
    (h : (forceBehavior script d dataType b).exec s = (some (), t)) :
    Forces n (forcedOn dataType b) s t := by
  simp only [forceBehavior, newDatapoint, Raise.bind_some, Raise.exec_atomic, Raise.exec_peek,
    Prod.mk.injEq, Option.some.injEq] at h
  obtain ⟨_, v, ⟨-, rfl⟩, trigger, _, ⟨-, rfl⟩, r, w, ⟨rfl, rfl⟩, h⟩ := h
  rcases executeAction_some h with ⟨hactions, hor⟩ | ⟨hdiscrete, a, animator, ha, hdatapoint, hactions⟩
  · refine ⟨fun _ _ => congrFun hactions _, fun r a ha => (congrFun hactions r).trans ha, ?_⟩
    rintro r ⟨hno, rfl⟩ a ha
    rcases hor with hdiscrete | ⟨a', ha'⟩
    · have hyes : dataType.isDiscrete = true := by
        simpa [Service.allocate, DataPoint.hasDiscreteValueType, DataType.isDiscrete] using hdiscrete
      simp [hno] at hyes
    · cases ha.symm.trans ha'
  · have hno : dataType.isDiscrete = false := by
      simpa [Service.allocate, DataPoint.hasDiscreteValueType, DataType.isDiscrete] using hdiscrete
    refine ⟨fun r hr => ?_, fun r a' ha' => ?_, ?_⟩
    · have hne : r ≠ b.action := fun heq => hr ⟨hno, heq.symm⟩
      rw [hactions, Function.update_of_ne hne]
      rfl
    · have hne : r ≠ b.action := by
        rintro rfl
        cases ha.symm.trans ha'
      rw [hactions, Function.update_of_ne hne]
      exact ha'
    · rintro r ⟨-, rfl⟩ a' -
      refine ⟨{ a with animator := some animator }, animator, ?_, rfl, hdatapoint ▸ hn⟩
      rw [hactions, Function.update_self]

theorem forceBehaviors_some (hn : n ≤ s.fresh)
    (h : (Raise.forEach bs (forceBehavior script d dataType)).exec s = (some (), t)) :
    Forces n (fun r => ∃ b ∈ bs, forcedOn dataType b r) s t := by
  induction bs generalizing s with
  | nil =>
    cases h
    exact (Forces.none rfl).congr (by simp)
  | cons b bs ih =>
    obtain ⟨_, v, hb, hbs⟩ := Raise.bind_some.mp h
    have hfresh := (loading_exec (within_forceBehavior d dataType b) hn hb).fresh
    exact ((forceBehavior_some hn hb).trans (ih (Nat.le_trans hn hfresh) hbs)).congr (by simp)

def Registration.Forces (script : Script) (registry : Registry) (d : Registration) (r : Ref) : Prop :=
  ∃ dataType, script.dataType d.path = some dataType ∧
    ∃ b ∈ loadedBehaviors script registry d, forcedOn dataType b r

theorem loadBehaviors_forces (hn : n ≤ s.fresh)
    (h : (loadBehaviors script d).exec s = (some behaviors, t)) :
    Forces n (d.Forces script s.registry) s t := by
  simp only [loadBehaviors, getMetadata, Raise.bind_some, Raise.exec_attempt, Prod.mk.injEq] at h
  obtain ⟨dataType, _, ⟨htype, rfl⟩, h⟩ := h
  cases hs : dataType.isSupported with
  | false =>
    simp only [hs, Bool.false_eq_true, if_false, Raise.exec_pure, Prod.mk.injEq,
      Option.some.injEq] at h
    obtain ⟨-, rfl⟩ := h
    exact (Forces.none rfl).congr (by simp [Registration.Forces, loadedBehaviors, htype, hs])
  | true =>
    simp only [hs, if_true, Raise.bind_some, Raise.exec_peek, Raise.exec_pure, Prod.mk.injEq,
      Option.some.injEq] at h
    obtain ⟨_, _, ⟨rfl, rfl⟩, _, _, hforced, rfl, rfl⟩ := h
    refine (forceBehaviors_some hn hforced).congr fun r => ?_
    simp [Registration.Forces, loadedBehaviors, htype, hs]

theorem loadAllBehaviors_forces {l : List (Registration × (Path × MockedDataPoint))} (hn : n ≤ s.fresh)
    (h : (loadAllBehaviors script l).exec s = (some mocked, t)) :
    Forces n (fun r => ∃ x ∈ l, x.1.Forces script s.registry r) s t := by
  induction l generalizing s mocked with
  | nil =>
    simp only [loadAllBehaviors, Raise.exec_pure, Prod.mk.injEq] at h
    obtain ⟨-, rfl⟩ := h
    exact (Forces.none rfl).congr (by simp)
  | cons x l ih =>
    obtain ⟨d, path, m⟩ := x
    simp only [loadAllBehaviors, Raise.bind_some, Raise.exec_pure, Prod.mk.injEq,
      Option.some.injEq] at h
    obtain ⟨behaviors, u, hb, rest, _, hrest, -, rfl⟩ := h
    have htouches := loading_exec (within_loadBehaviors d) hn hb
    refine ((loadBehaviors_forces hn hb).trans (ih (Nat.le_trans hn htouches.fresh) hrest)).congr fun r => ?_
    simp [Registration.Forces, loadedBehaviors_congr htouches.registry.lists]

def Registry.Forces (script : Script) (registry : Registry) (r : Ref) : Prop :=
  ∃ d ∈ registry.mocked, d.Forces script registry r

theorem load_forces (h : (load script).exec s = (some mocked, t)) :
    Forces s.fresh (t.registry.Forces script) s t := by
  rw [exec_load] at h
  simp only [loadRegistry, Raise.bind_some, Raise.exec_peek, Raise.exec_pure, Prod.mk.injEq,
    Option.some.injEq] at h
  obtain ⟨ds, _, ⟨rfl, rfl⟩, l, s₂, hl, l', s₃, hl', required, _, ⟨rfl, rfl⟩, rest, s₄, hrest, -, rfl⟩ := h
  obtain ⟨made, hds, -, -, rfl, hheap, -, -⟩ := loadMockedDatapoints_some hl
  obtain ⟨others, -, -, -, -, -, hheap', -⟩ := loadRequired_some hrest
  have h₂ := loading_exec (within_loadMockedDatapoints _) (Nat.le_refl (runMockPy script s).fresh) hl
  have h₃ := loading_exec (within_loadAllBehaviors _) h₂.fresh hl'
  have h₄ := loading_exec (within_loadRequired _ _) (Nat.le_trans h₂.fresh h₃.fresh) hrest
  have hforces : Forces s.fresh _ s s₄ := (loadAllBehaviors_forces h₂.fresh hl').heap hheap.symm hheap'
  refine hforces.congr fun r => ?_
  have hmocked : s₄.registry.mocked = made.map Prod.fst :=
    ((h₂.trans h₃).trans h₄).registry.mocked.trans hds.symm
  have hlists : s₂.registry.lists = s₄.registry.lists := (h₃.trans h₄).registry.lists.symm
  rw [← hds, List.zip_map']
  simp [Registry.Forces, Registration.Forces, hmocked, loadedBehaviors_congr hlists]

-- ---------------------------------------------------------------------------
-- Animators
-- ---------------------------------------------------------------------------

/-- Every animation that the animation pass comes to has an animator. -/
def HasAnimators (s : Service) : Prop :=
  ∀ e ∈ s.mocked, ∀ b ∈ e.2.behaviors, ∀ a, s.heap.actions b.action = .animation a →
    a.animator.isSome = true

structure PassReturns (script : Script) (s : Service) : Prop where
  animators : HasAnimators s
  returns : ∀ deltaTime, ∃ t, (animate script deltaTime).exec s = (some (), t)

/-- Every animation on a datapoint of a discrete type has an animator from
before the load, or it is forced on a datapoint of another type too. -/
def Animatable (script : Script) (s : Service) : Prop :=
  ∀ d ∈ (runMockPy script s).registry.mocked, (script.dataType d.path).any DataType.isDiscrete = true →
    ∀ b ∈ loadedBehaviors script (runMockPy script s).registry d,
      ∀ a, s.heap.actions b.action = .animation a →
        a.animator.isSome = true ∨ (runMockPy script s).registry.Forces script b.action

theorem HasAnimators.congr (h : HasAnimators s) (hm : t.mocked = s.mocked)
    (ha : t.heap.actions = s.heap.actions) : HasAnimators t := by
  unfold HasAnimators
  rw [hm, ha]
  exact h

theorem HasAnimators.setAnimator (h : HasAnimators s) (action : Ref) (a : AnimationAction)
    (animator : ValueAnimator) : HasAnimators (s.setAnimator action a animator) := by
  intro e he b hb a' ha'
  by_cases heq : b.action = action
  · subst heq
    simp only [Service.setAnimator, Service.setAction, Function.update_self, Action.animation.injEq] at ha'
    rw [← ha']
    rfl
  · simp only [Service.setAnimator, Service.setAction, Function.update_of_ne heq] at ha'
    exact h e he b hb a' ha'

theorem HasAnimators.setValue (h : HasAnimators s) (r : Ref) (value : Value) :
    HasAnimators ((setValue r value).exec s).2 :=
  h.congr (setValue_mocks r value s).1 (congrArg Heap.actions (setValue_heap r value s))

theorem carried_hasAnimators (r action : Ref) : Carried HasAnimators r action where
  require _ _ h := h.congr rfl rfl
  animator _ a animator h _ _ := h.setAnimator action a animator
  setValue _ value h := h.setValue r value

theorem loadable_hasAnimators : Loadable 0 HasAnimators where
  fresh s _ := Nat.zero_le s.fresh
  requireAll _ _ h := h.congr rfl rfl
  allocate _ _ _ h := h.congr rfl rfl
  carried r action _ := (carried_hasAnimators r action).allocated

theorem prepared_hasAnimators : Prepared HasAnimators where
  requireAll _ _ h := h.congr rfl rfl
  check s b path deltaTime h :=
    h.congr (check_mocks b path deltaTime s).1 (check_actions b path deltaTime s)

theorem HasAnimators.play (h : HasAnimators s) (script : Script) (deltaTime : ℚ) (b : Behavior) :
    HasAnimators ((animateBehavior script deltaTime b).exec s).2 :=
  play_keeps script deltaTime b (fun a _ _ _ _ => (h.setAnimator _ a _).setValue _ _) h

theorem setValue_returns (r : Ref) (value : Value) (s : Service) :
    ((setValue r value).exec s).1 = some () := by
  simp only [setValue, Raise.exec_bind, Raise.exec_atomic, Option.elim_some, Raise.exec_ite,
    Raise.exec_peek, Raise.exec_pure, exec_setDatapoint]
  split <;> rfl

theorem animateBehavior_returns (script : Script) (deltaTime : ℚ)
    (h : ∀ a, s.heap.actions b.action = .animation a → a.animator.isSome = true) :
    ((animateBehavior script deltaTime b).exec s).1 = some () := by
  simp only [animateBehavior, Raise.exec_bind, Raise.exec_peek, Option.elim_some]
  cases haction : s.heap.actions b.action with
  | set a => rfl
  | animation a =>
    obtain ⟨animator, hsome⟩ := Option.isSome_iff_exists.mp (h a haction)
    simp only [hsome, Raise.exec_ite, Raise.exec_bind, Raise.exec_atomic, Option.elim_some,
      Raise.exec_pure]
    split
    · rfl
    · exact setValue_returns _ _ _

/-- With all animators the animation pass returns. -/
theorem HasAnimators.passReturns (h : HasAnimators s) (script : Script) : PassReturns script s := by
  refine ⟨h, fun deltaTime => ?_⟩
  have hpass : ∃ t, (Raise.forEach s.mocked fun element =>
      Raise.forEach element.2.behaviors (animateBehavior script deltaTime)).exec s = (some (), t) ∧
        t.mocked = s.mocked ∧ HasAnimators t := by
    refine Raise.forEach_returns (fun element he v hv => ?_) ⟨rfl, h⟩
    refine Raise.forEach_returns ?_ hv
    rintro b hb w ⟨hm, hw⟩
    have hmocks : OfMocks fun t => t.mocked = s.mocked := fun _ _ hm _ _ h => hm.trans h
    refine ⟨((animateBehavior script deltaTime b).exec w).2, Prod.ext ?_ rfl,
      hmocks.play script deltaTime b hm, hw.play script deltaTime b⟩
    exact animateBehavior_returns script deltaTime (hw element (hm ▸ he) b hb)
  obtain ⟨t, hexec, -⟩ := hpass
  exact ⟨t, by simpa [animate] using hexec⟩

-- ---------------------------------------------------------------------------
-- Runs
-- ---------------------------------------------------------------------------

theorem Registry.Reads.forces {r r' : Registry} (h : r.Reads r') (action : Ref) :
    r'.Forces script action ↔ r.Forces script action := by
  simp [Registry.Forces, Registration.Forces, h.mocked, loadedBehaviors_congr h.lists]

theorem Registry.forces_of_mem {r : Registry} (hd : d ∈ r.mocked)
    (htype : (script.dataType d.path).any DataType.isDiscrete = false)
    (hb : b ∈ loadedBehaviors script r d) : r.Forces script b.action := by
  cases hdata : script.dataType d.path with
  | none => simp [loadedBehaviors, hdata] at hb
  | some dataType =>
    rw [hdata] at htype
    exact ⟨d, hd, dataType, hdata, b, hb, by simpa using htype, rfl⟩

theorem Registry.isDiscrete_of_mem {r : Registry} (hd : d ∈ r.mocked) (hb : b ∈ loadedBehaviors script r d)
    (hf : ¬ r.Forces script b.action) : (script.dataType d.path).any DataType.isDiscrete = true := by
  by_contra hno
  exact hf (Registry.forces_of_mem hd (by simpa using hno) hb)

/-- A load that returns leaves all animators in place exactly when it found
the mocks animatable. -/
theorem hasAnimators_of_reload (h : (reload script).exec s = (some (), t)) :
    HasAnimators t ↔ Animatable script s := by
  simp only [reload, Raise.bind_some, Raise.exec_atomic, Prod.mk.injEq, true_and] at h
  obtain ⟨mocked, u, hexec, rfl⟩ := h
  have hforces := load_forces hexec
  obtain ⟨made, others, rfl, hload⟩ := load_some hexec
  have hreads := hload.touches.registry
  have hmade : ∀ d, d ∈ (runMockPy script s).registry.mocked ↔ d ∈ made.map Prod.fst := by
    intro d
    rw [← hreads.mocked, hload.registrations]
  constructor
  · intro hall d hd _ b hb a ha
    by_cases hf : u.registry.Forces script b.action
    · exact .inr ((hreads.forces _).mp hf)
    · obtain ⟨x, hx, rfl⟩ := List.mem_map.mp ((hmade d).mp hd)
      refine .inl (hall _ (List.mem_append_left _ (List.mem_map.mpr ⟨x, hx, rfl⟩)) b ?_ a ?_)
      · rw [loadedBehaviors_congr hreads.lists]
        exact hb
      · exact (hforces.others _ hf).trans ha
  · intro hanimatable e he b hb a ha
    simp only [adopt, loadedMocks, List.mem_append, List.mem_map] at he
    rcases he with ⟨x, hx, rfl⟩ | ⟨x, hx, rfl⟩
    · have hd := (hmade x.1).mpr (List.mem_map_of_mem hx)
      rw [loadedBehaviors_congr hreads.lists] at hb
      by_cases hf : u.registry.Forces script b.action
      · exact hforces.isSome hf ha
      · have hsame := (hforces.others _ hf).symm.trans ha
        rw [hreads.forces] at hf
        exact (hanimatable x.1 hd (Registry.isDiscrete_of_mem hd hb hf) b hb a hsame).resolve_right hf
    · cases hb

def LoadsAnimatable (script : Script) (s : Running) : TurnInput → Prop
  | .check => isChanged s.service = true → ∀ t, (reload script).exec s.service = (some (), t) →
    Animatable script s.service
  | _ => True

theorem passReturns_iff : PassReturns script s ↔ HasAnimators s :=
  ⟨PassReturns.animators, fun h => h.passReturns script⟩

theorem HasAnimators.reload_raises (h : HasAnimators s) (hexec : (reload script).exec s = (none, t)) :
    HasAnimators t := by
  have hload : HasAnimators ((load script).exec s).2 := by
    rw [exec_load]
    have hrun : HasAnimators (runMockPy script s) := h.congr rfl rfl
    exact loadRegistry_keeps loadable_hasAnimators _ hrun hrun
  rwa [load_of_raise hexec] at hload

theorem HasAnimators.check_iff {s t : Running} (h : HasAnimators s.service)
    (hstep : turnStep script s .check = some t) :
    HasAnimators t.service ↔ LoadsAnimatable script s .check := by
  cases turned_of_step hstep with
  | unchanged hc => exact iff_of_true h (by simp [LoadsAnimatable, hc])
  | loaded hc hreload =>
    rw [hasAnimators_of_reload hreload]
    exact ⟨fun ha _ _ _ => ha, fun ha => ha hc _ hreload⟩
  | raised hc hreload =>
    refine iff_of_true (h.reload_raises hreload) fun _ t ht => ?_
    cases hreload.symm.trans ht
  | outside pending broker hl => cases hl

theorem HasAnimators.step {s t : Running} (h : HasAnimators s.service)
    (hstep : turnStep script s input = some t) (hc : input ≠ .check) : HasAnimators t.service := by
  cases turned_of_step hstep with
  | unchanged => exact h
  | loaded => exact absurd rfl hc
  | raised => exact absurd rfl hc
  | visit deltaTime =>
    exact visit_keeps script _ _ deltaTime _ prepared_hasAnimators (fun _ h => h.congr rfl rfl)
      (carried_hasAnimators _ _) h
  | play deltaTime => exact h.play script deltaTime _
  | outside pending broker => exact h.congr rfl rfl

/-- For every load that returns and every run of the main loop after it: the
animation pass always returns exactly when each load of the run finds its
mocks animatable. -/
theorem animation_pass_iff (script : Script) (s t : Service)
    (h : (reload script).exec s = (some (), t)) (inputs : List TurnInput) :
    Throughout (turnStep script) (fun s => PassReturns script s.service) ⟨t, false⟩ inputs ↔
      Animatable script s ∧ Along (turnStep script) (LoadsAnimatable script) ⟨t, false⟩ inputs := by
  simp only [passReturns_iff]
  have hiff : HasAnimators t → (Throughout (turnStep script) (fun s => HasAnimators s.service)
      ⟨t, false⟩ inputs ↔ Along (turnStep script) (LoadsAnimatable script) ⟨t, false⟩ inputs) := by
    refine fun h0 => Atomic.throughout_iff_along_of_keeps (Q := fun s => HasAnimators s.service)
      (fun _ h => h) (fun s input t h hstep => ⟨?_, fun ht => ht⟩) h0
    by_cases hc : input = .check
    · subst hc
      exact h.check_iff hstep
    · refine iff_of_true (h.step hstep hc) ?_
      cases input with
      | check => exact absurd rfl hc
      | _ => trivial
  constructor
  · intro hall
    exact ⟨(hasAnimators_of_reload h).mp hall.start, (hiff hall.start).mp hall⟩
  · rintro ⟨hanimatable, hc⟩
    exact (hiff ((hasAnimators_of_reload h).mpr hanimatable)).mpr hc

-- ---------------------------------------------------------------------------
-- A switch that fades
-- ---------------------------------------------------------------------------

def benchLamp : Path × MockedDataPoint := ("Lamp", ⟨1, true, [⟨0, 0, 0⟩]⟩)

def benchLampOn : List TurnInput :=
  [.check, .receive .actuatorTarget "Lamp" (.number 5), .visit benchLamp ⟨0, 0, 0⟩ 1,
    .play benchLamp ⟨0, 0, 0⟩ 1]

theorem animation_pass_bench :
    ((reload .benchFade).exec .benchFade).1 = some () ∧
      Throughout (turnStep .benchFade) (fun s => PassReturns .benchFade s.service)
        ⟨((reload .benchFade).exec .benchFade).2, false⟩ benchLampOn ∧
      (Atomic.run (turnStep .benchFade) ⟨((reload .benchFade).exec .benchFade).2, false⟩ benchLampOn).map
        (fun s => assignedTo "Lamp" s.service.log) = some [.number 1] := by
  refine ⟨by decide +kernel, (animation_pass_iff .benchFade .benchFade _ rfl _).mpr ⟨?_, ?_⟩,
    by decide +kernel⟩
  · intro d _ hdiscrete
    cases hdiscrete
  · refine ⟨fun _ t _ d _ hdiscrete => ?_, trivial, trivial, trivial, trivial⟩
    cases hdiscrete

/-- The same lamp is a switch. -/
def Script.benchSwitch : Script := { Script.benchFade with dataType := fun _ => some .boolean }

/-- It is loaded without an error, and the first turn ends the main loop. -/
theorem switch_ends_loop :
    ((reload .benchSwitch).exec .benchFade).1 = some () ∧
      ((tick .benchSwitch 1).exec ((reload .benchSwitch).exec .benchFade).2).1 = none ∧
      ¬ HasAnimators ((reload .benchSwitch).exec .benchFade).2 ∧
      ¬ PassReturns .benchSwitch ((reload .benchSwitch).exec .benchFade).2 := by
  have hpass : ¬ PassReturns .benchSwitch ((reload .benchSwitch).exec .benchFade).2 := by
    intro h
    obtain ⟨t, ht⟩ := h.returns 1
    have hsome : ((animate .benchSwitch 1).exec ((reload .benchSwitch).exec .benchFade).2).1 = some () :=
      congrArg Prod.fst ht
    exact absurd hsome (by decide +kernel)
  exact ⟨by decide +kernel, by decide +kernel, fun h => hpass (h.passReturns _), hpass⟩

end KuksaServices.Mock
