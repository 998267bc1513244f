import KuksaServices.Atomic.Log
import KuksaServices.Mock.Animators

/-!
# Who drives a datapoint

Execution picks one behavior of a datapoint, but the animation pass plays the
animators of all of them. A behavior that is executed while the animation of
another one plays does not end it, so both go on to assign values. As long as
every behavior is executed on a datapoint that no other animation plays on,
each value comes from the behavior executed last (`one_driver`).
-/

namespace KuksaServices.Mock

open Atomic (Raise Along lastOf lastOf_snoc)

variable {script : Script} {J : Service → Prop} {s t : Service} {b c : Behavior} {p : Path} {r : Ref}
  {element : Path × MockedDataPoint} {a : ValueAnimator} {F : Footprint}

-- ---------------------------------------------------------------------------
-- Objects that exist
-- ---------------------------------------------------------------------------

/-- The mocks are loaded, and every animator is on a datapoint that exists. -/
structure Grounded (s : Service) : Prop where
  loaded : Loaded s
  distinct : s.registry.Distinct
  animators : ∀ r a, (s.heap.actions r).animator? = some a → a.datapoint < s.fresh

theorem Grounded.touched (h : Grounded s) (ht : Touches F s t) : Grounded t := by
  refine ⟨h.loaded.touched ht, ht.registry.distinct h.distinct, fun r a ha => ?_⟩
  rcases ht.animators r with hsame | ⟨a', ha', -, hlt⟩
  · rw [hsame] at ha
    exact Nat.lt_of_lt_of_le (h.animators r a ha) ht.fresh
  · rw [ha] at ha'
    cases ha'
    exact hlt

theorem Grounded.environment (h : Grounded s) (pending : List Event) (broker : Path → Option Value)
    (hd : registry.Distinct) :
    Grounded { s with registry := registry, pending := pending, broker := broker } :=
  ⟨h.loaded.environment registry pending broker, hd, h.animators⟩

theorem grounded_of_reload (hd : s.registry.Distinct)
    (ha : ∀ r a, (s.heap.actions r).animator? = some a → a.datapoint < s.fresh)
    (hexec : (reload script).exec s = (some (), t)) : Grounded t := by
  obtain ⟨u, made, others, hload, rfl⟩ := reload_some hexec
  refine ⟨hload.loaded hd, hload.distinct hd, fun r a har => ?_⟩
  rcases hload.animators r with hsame | ⟨a', ha', -, hlt, -⟩
  · have har : (u.heap.actions r).animator? = some a := har
    rw [hsame] at har
    exact Nat.lt_of_lt_of_le (ha r a har) hload.touches.fresh
  · cases ha'.symm.trans har
    exact hlt

def Footprint.visit (element : Path × MockedDataPoint) (b : Behavior) : Footprint :=
  ⟨element.1, {b.trigger}, {b.action}, {element.2.datapoint}, Set.univ, {element.1}⟩

theorem Grounded.touches_visit (h : Grounded s) (he : element ∈ s.mocked) (script : Script)
    (b : Behavior) (deltaTime : ℚ) : Touches (.visit element b) s
      ((visitBehavior script element.1 element.2.datapoint deltaTime b).exec s).2 := by
  have howns : Owns (.visit element b) element.2.datapoint s := by
    refine ⟨rfl, h.loaded.allocated element he, fun _ => ⟨?_, trivial⟩⟩
    exact h.loaded.path element he
  have helement : Element (.visit element b) element.2.datapoint [b] s := by
    refine ⟨howns, fun c hc => ?_⟩
    obtain rfl := List.mem_singleton.mp hc
    exact ⟨rfl, rfl, fun _ _ => trivial⟩
  exact within_visit (F := .visit element b) List.mem_cons_self deltaTime s helement

def Footprint.play (s : Service) (b : Behavior) (a : ValueAnimator) : Footprint :=
  ⟨"", ∅, {b.action}, {a.datapoint}, Set.univ,
    {p | (s.datapoints a.datapoint).hasListener = true ∧ (s.datapoints a.datapoint).path = p}⟩

theorem Grounded.play_cases (h : Grounded s) (script : Script) (b : Behavior) (deltaTime : ℚ) :
    ((animateBehavior script deltaTime b).exec s).2 = s ∨
      ∃ a, (s.heap.actions b.action).animator? = some a ∧ a.done = false ∧
        Touches (.play s b a) s ((animateBehavior script deltaTime b).exec s).2 := by
  rcases animateBehavior_cases script deltaTime b s with ⟨-, hsame⟩ | ⟨a, animator, ha, hsome, hdone, -⟩
  · exact .inl hsame
  · have hanimator : (s.heap.actions b.action).animator? = some animator := by
      simpa [ha, Action.animator?] using hsome
    have hplays : Plays (.play s b animator) b s := by
      refine ⟨rfl, fun a' ha' _ => ?_⟩
      cases hanimator.symm.trans ha'
      exact ⟨rfl, h.animators _ _ hanimator, fun hl => ⟨⟨hl, rfl⟩, trivial⟩⟩
    exact .inr ⟨animator, hanimator, hdone, touches_animateBehavior hplays deltaTime⟩

theorem Grounded.play (h : Grounded s) (script : Script) (b : Behavior) (deltaTime : ℚ) :
    Grounded ((animateBehavior script deltaTime b).exec s).2 := by
  rcases h.play_cases script b deltaTime with hsame | ⟨a, -, -, ht⟩
  · rw [hsame]
    exact h
  · exact h.touched ht

-- ---------------------------------------------------------------------------
-- The behavior executed last
-- ---------------------------------------------------------------------------

def Deed.executedOn? (p : Path) : Deed → Option Behavior
  | .executed path b => if path = p then some b else none
  | _ => none

def lastExecuted (p : Path) (log : List Deed) : Option Behavior := lastOf (Deed.executedOn? p) log

def OfExecuted (J : Service → Prop) : Prop :=
  ∀ s t : Service, (∀ p, lastExecuted p t.log = lastExecuted p s.log) → J s → J t

theorem lastExecuted_record (s : Service) (d : Deed) (h : ∀ p, d.executedOn? p = none) (p : Path) :
    lastExecuted p (s.record d).log = lastExecuted p s.log := by
  rw [lastExecuted, Service.record, lastOf_snoc, h, Option.none_or, lastExecuted]

theorem lastExecuted_check (b : Behavior) (path : Path) (deltaTime : ℚ) (s : Service) (p : Path) :
    lastExecuted p (checkTriggerOf b path deltaTime s).2.log = lastExecuted p s.log := by
  unfold checkTriggerOf
  dsimp only
  split
  · exact lastExecuted_record _ _ (fun _ => rfl) p
  · rfl

theorem lastExecuted_setDatapoint (path : Path) (value : Value) (s : Service) (p : Path) :
    lastExecuted p ((setDatapoint path value).exec s).2.log = lastExecuted p s.log := by
  rw [exec_setDatapoint]
  have hwrite : lastExecuted p (writeBroker path value s).log = lastExecuted p s.log :=
    lastExecuted_record _ _ (fun _ => rfl) p
  unfold discardEvent
  cases lastMatch .value path (writeBroker path value s).pending with
  | none => exact hwrite
  | some e => exact (lastExecuted_record _ _ (fun _ => rfl) p).trans hwrite

theorem lastExecuted_setValue (r : Ref) (value : Value) (s : Service) (p : Path) :
    lastExecuted p ((setValue r value).exec s).2.log = lastExecuted p s.log := by
  have hassign : lastExecuted p (assignValue r value s).2.log = lastExecuted p s.log := by
    unfold assignValue
    dsimp only
    split <;> exact lastExecuted_record _ _ (fun _ => rfl) p
  simp only [setValue, Raise.exec_bind, Raise.exec_atomic, Option.elim_some, Raise.exec_ite,
    Raise.exec_peek, Raise.exec_pure]
  split
  · exact (lastExecuted_setDatapoint _ _ _ p).trans hassign
  · exact hassign

theorem OfExecuted.carried (hJ : OfExecuted J) : Carried J r action where
  require s _ hs := hJ s _ (fun _ => rfl) hs
  animator s _ _ hs _ _ := hJ s _ (fun _ => rfl) hs
  setValue s value hs := hJ s _ (lastExecuted_setValue r value s) hs

theorem OfExecuted.prepared (hJ : OfExecuted J) : Prepared J where
  requireAll s _ hs := hJ s _ (fun _ => rfl) hs
  check s b path deltaTime hs := hJ s _ (lastExecuted_check b path deltaTime s) hs

theorem OfExecuted.loadable (hJ : OfExecuted J) : Loadable 0 J where
  fresh s _ := Nat.zero_le s.fresh
  requireAll s _ hs := hJ s _ (fun _ => rfl) hs
  allocate s _ _ hs := hJ s _ (fun _ => rfl) hs
  carried _ _ _ := hJ.carried.allocated

theorem lastExecuted_visit (script : Script) (element : Path × MockedDataPoint) (b : Behavior)
    (deltaTime : ℚ) (s : Service) (p : Path) :
    lastExecuted p ((visitBehavior script element.1 element.2.datapoint deltaTime b).exec s).2.log =
      if fires script element.1 deltaTime b s ∧ element.1 = p then some b else lastExecuted p s.log := by
  have hJ : OfExecuted fun t => ∀ q, lastExecuted q t.log = lastExecuted q s.log :=
    fun _ _ h hs q => (h q).trans (hs q)
  obtain ⟨u, hu, ⟨hfires, h⟩ | ⟨hfires, result, h⟩⟩ :=
    visit_cases script element.1 element.2.datapoint deltaTime b hJ.prepared fun _ => rfl
  · simp [h, hfires, hu p]
  · have hJ' : OfExecuted fun t => lastExecuted p t.log =
        lastExecuted p (u.record (.executed element.1 b)).log := fun _ _ h hs => (h p).trans hs
    rw [h, executeAction_carried hJ'.carried result element.1 rfl, lastExecuted, Service.record, lastOf_snoc,
      ← lastExecuted, hu p]
    by_cases hp : element.1 = p
    · subst hp
      simp [Deed.executedOn?, hfires]
    · simp [Deed.executedOn?, hp]

theorem lastExecuted_play (script : Script) (b : Behavior) (deltaTime : ℚ) (s : Service) (p : Path) :
    lastExecuted p ((animateBehavior script deltaTime b).exec s).2.log = lastExecuted p s.log := by
  refine play_keeps (J := fun t => lastExecuted p t.log = lastExecuted p s.log) script deltaTime b ?_ rfl
  intro a animator _ _ _
  exact lastExecuted_setValue _ _ _ p

theorem lastExecuted_reload (h : (reload script).exec s = (result, t)) (p : Path) :
    lastExecuted p t.log = lastExecuted p s.log := by
  have hJ : OfExecuted fun t => lastExecuted p t.log = lastExecuted p s.log :=
    fun _ _ h hs => (h p).trans hs
  rw [log_of_reload h, exec_load]
  exact loadRegistry_keeps hJ.loadable (runMockPy script s) rfl rfl

-- ---------------------------------------------------------------------------
-- One driver
-- ---------------------------------------------------------------------------

def Playing (s : Service) (r : Ref) (p : Path) : Prop :=
  ∃ a, (s.heap.actions r).animator? = some a ∧ a.done = false ∧
    (s.datapoints a.datapoint).hasListener = true ∧ (s.datapoints a.datapoint).path = p

def Service.HasAction (s : Service) (r : Ref) : Prop :=
  ∃ element ∈ s.mocked, ∃ b ∈ element.2.behaviors, b.action = r

def TurnInput.action? : TurnInput → Option Ref
  | .visit _ b _ | .play _ b _ => some b.action
  | _ => none

/-- A value that the step assigns to a datapoint comes from the action of the
behavior that was executed last on it. -/
def FromDriver (script : Script) (s : Running) (input : TurnInput) : Prop :=
  ∀ t, turnStep script s input = some t → ∀ p,
    assignedTo p t.service.log ≠ assignedTo p s.service.log →
      ∀ b, lastExecuted p t.service.log = some b → input.action? = some b.action

/-- A behavior is executed on a datapoint that no other animation plays on. A
load brings in none that plays on a datapoint of another driver: only on a
datapoint of a discrete type it leaves an animator as it is. -/
def TakesOver (script : Script) (s : Running) : TurnInput → Prop
  | .visit element b deltaTime => fires script element.1 deltaTime b s.service = true →
    ∀ r, s.service.HasAction r → Playing s.service r element.1 → r = b.action
  | .check => isChanged s.service = true →
    ∀ d ∈ (runMockPy script s.service).registry.mocked,
      (script.dataType d.path).any DataType.isDiscrete = true →
      ∀ c ∈ loadedBehaviors script (runMockPy script s.service).registry d,
      ¬ (runMockPy script s.service).registry.Forces script c.action →
      ∀ p b, lastExecuted p s.service.log = some b → Playing s.service c.action p → c.action = b.action
  | _ => True

def Driven (s : Service) : Prop :=
  ∀ p b, lastExecuted p s.log = some b → ∀ r, s.HasAction r → Playing s r p → r = b.action

theorem Playing.before (h : Grounded s) (ht : Touches F s t) (hsame : t.heap.actions r = s.heap.actions r)
    (hp : Playing t r p) : Playing s r p := by
  obtain ⟨a, ha, hdone, hlistener, hpath⟩ := hp
  rw [hsame] at ha
  have hlt := h.animators r a ha
  exact ⟨a, ha, hdone, ht.hasListener hlt ▸ hlistener, ht.path hlt ▸ hpath⟩

-- ---------------------------------------------------------------------------
-- Visits
-- ---------------------------------------------------------------------------

/-- A visit to a behavior that does not fire assigns nothing. -/
theorem visit_idle (script : Script) (element : Path × MockedDataPoint) (b : Behavior) (deltaTime : ℚ)
    (s : Service) (hfires : fires script element.1 deltaTime b s = false) :
    ((visitBehavior script element.1 element.2.datapoint deltaTime b).exec s).2.heap.actions =
        s.heap.actions ∧
      ∀ p, assignedTo p ((visitBehavior script element.1 element.2.datapoint deltaTime b).exec s).2.log =
        assignedTo p s.log := by
  have hprepared : Prepared fun t => t.heap.actions = s.heap.actions ∧
      ∀ p, assignedTo p t.log = assignedTo p s.log := by
    refine ⟨fun _ _ h => h, fun u b path deltaTime h => ⟨?_, fun p => ?_⟩⟩
    · exact (check_actions b path deltaTime u).trans h.1
    · refine Eq.trans ?_ (h.2 p)
      unfold checkTriggerOf
      dsimp only
      split
      · exact assignedTo_record p _ _ rfl
      · rfl
  obtain ⟨u, hu, ⟨-, h⟩ | ⟨hyes, -⟩⟩ :=
    visit_cases script element.1 element.2.datapoint deltaTime b hprepared ⟨rfl, fun _ => rfl⟩
  · rw [h]
    exact hu
  · rw [hfires] at hyes
    cases hyes

theorem Playing.visited (h : Grounded s) (he : element ∈ s.mocked)
    (hp : Playing ((visitBehavior script element.1 element.2.datapoint deltaTime b).exec s).2 r p) :
    Playing s r p ∨ r = b.action ∧ element.1 = p := by
  have ht := h.touches_visit he script b deltaTime
  by_cases hr : r = b.action
  · rcases ht.animators r with hsame | ⟨a, ha, hmem, -⟩
    · exact .inl (hp.before h ht hsame)
    · obtain ⟨a', ha', -, -, hpath⟩ := hp
      cases ha.symm.trans ha'
      have heq : a.datapoint = element.2.datapoint := hmem
      rw [heq, ht.path (h.loaded.allocated element he), h.loaded.path element he] at hpath
      exact .inr ⟨hr, hpath⟩
  · exact .inl (hp.before h ht (ht.actions r hr))

theorem Driven.visit (h : Driven s) (hg : Grounded s) (he : element ∈ s.mocked)
    (hc : fires script element.1 deltaTime b s = true →
      ∀ r, s.HasAction r → Playing s r element.1 → r = b.action) :
    Driven ((visitBehavior script element.1 element.2.datapoint deltaTime b).exec s).2 := by
  intro p c hlast r hr hp
  rw [lastExecuted_visit] at hlast
  have hr : s.HasAction r := by
    unfold Service.HasAction at hr ⊢
    rwa [(hg.touches_visit he script b deltaTime).mocked] at hr
  split at hlast
  · rename_i hfires
    obtain rfl := Option.some.inj hlast
    rcases hp.visited hg he with hbefore | ⟨hown, -⟩
    · exact hc hfires.1 r hr (hfires.2 ▸ hbefore)
    · exact hown
  · rename_i hfires
    rcases hp.visited hg he with hbefore | ⟨-, rfl⟩
    · exact h p c hlast r hr hbefore
    · -- the behavior did not fire, so its action is as it was
      have hno : fires script element.1 deltaTime b s = false := by simpa using hfires
      have hsame := congrFun (visit_idle script element b deltaTime s hno).1 r
      exact h _ c hlast r hr (hp.before hg (hg.touches_visit he script b deltaTime) hsame)

/-- A visit assigns to its own datapoint, for the behavior it executes. -/
theorem assigned_visit (hg : Grounded s) (he : element ∈ s.mocked)
    (hp : assignedTo p ((visitBehavior script element.1 element.2.datapoint deltaTime b).exec s).2.log ≠
      assignedTo p s.log) :
    lastExecuted p ((visitBehavior script element.1 element.2.datapoint deltaTime b).exec s).2.log =
      some b := by
  have hpath : element.1 = p := by
    by_contra hne
    exact hp ((hg.touches_visit he script b deltaTime).assigned p fun heq => hne heq.symm)
  have hfires : fires script element.1 deltaTime b s = true := by
    by_contra hno
    exact hp ((visit_idle script element b deltaTime s (by simpa using hno)).2 p)
  rw [lastExecuted_visit, if_pos ⟨hfires, hpath⟩]

-- ---------------------------------------------------------------------------
-- Animations
-- ---------------------------------------------------------------------------

theorem Driven.play (h : Driven s) (hg : Grounded s) (script : Script) (deltaTime : ℚ) (b : Behavior) :
    Driven ((animateBehavior script deltaTime b).exec s).2 := by
  rcases hg.play_cases script b deltaTime with hsame | ⟨a, ha, hdone, ht⟩
  · rw [hsame]
    exact h
  · intro p c hlast r hr hp
    rw [lastExecuted_play] at hlast
    have hr : s.HasAction r := by
      unfold Service.HasAction at hr ⊢
      rwa [ht.mocked] at hr
    refine h p c hlast r hr ?_
    by_cases hb : r = b.action
    · subst hb
      rcases ht.animators b.action with hsame | ⟨a', ha', hmem, -⟩
      · exact hp.before hg ht hsame
      · obtain ⟨a'', ha'', -, hlistener, hpath⟩ := hp
        cases ha'.symm.trans ha''
        have heq : a'.datapoint = a.datapoint := hmem
        have hlt := hg.animators _ _ ha
        rw [heq] at hlistener hpath
        exact ⟨a, ha, hdone, ht.hasListener hlt ▸ hlistener, ht.path hlt ▸ hpath⟩
    · exact hp.before hg ht (ht.actions r hb)

/-- An animation assigns to a datapoint that it plays on. -/
theorem assigned_play (hg : Grounded s)
    (hp : assignedTo p ((animateBehavior script deltaTime b).exec s).2.log ≠ assignedTo p s.log) :
    Playing s b.action p := by
  rcases hg.play_cases script b deltaTime with hsame | ⟨a, ha, hdone, ht⟩
  · rw [hsame] at hp
    exact absurd rfl hp
  · by_contra hno
    refine hp (ht.assigned p fun hmem => hno ?_)
    exact ⟨a, ha, hdone, hmem.1, hmem.2⟩

-- ---------------------------------------------------------------------------
-- Loads
-- ---------------------------------------------------------------------------

theorem within_loadRegistry (n : Ref) : Raise.Within (loadingFrame n) (loadRegistry script) :=
  loadRegistry_within (fun _ _ hd _ => touches_allocate _ hd) within_forceBehavior

/-- A load assigns to no datapoint that the service listens to. -/
theorem assigned_reload (h : (reload script).exec s = (result, t)) (p : Path) :
    assignedTo p t.log = assignedTo p s.log := by
  rw [log_of_reload h, exec_load]
  exact (within_loadRegistry 0 (runMockPy script s) (Nat.zero_le _)).assigned p fun hp => hp.elim

theorem hasAction_of_reload (hexec : (reload script).exec s = (some (), t)) (h : t.HasAction r) :
    ∃ d ∈ (runMockPy script s).registry.mocked,
      ∃ c ∈ loadedBehaviors script (runMockPy script s).registry d, c.action = r := by
  obtain ⟨u, made, others, hload, rfl⟩ := reload_some hexec
  obtain ⟨element, he, c, hc, rfl⟩ := h
  have hreads := hload.touches.registry
  simp only [adopt, loadedMocks, List.mem_append, List.mem_map] at he
  rcases he with ⟨x, hx, rfl⟩ | ⟨x, hx, rfl⟩
  · rw [loadedBehaviors_congr hreads.lists] at hc
    refine ⟨x.1, ?_, c, hc, rfl⟩
    rw [← hreads.mocked, ← hload.registrations]
    exact List.mem_map_of_mem hx
  · cases hc

/-- What plays after a load on a datapoint of a mock was not forced, and has
played on it before. -/
theorem Playing.reloaded (ha : ∀ r a, (s.heap.actions r).animator? = some a → a.datapoint < s.fresh)
    (hexec : (reload script).exec s = (some (), t)) (hp : Playing t r p) :
    ¬ (runMockPy script s).registry.Forces script r ∧ Playing s r p := by
  simp only [reload, Raise.bind_some, Raise.exec_atomic, Prod.mk.injEq, true_and] at hexec
  obtain ⟨mocked, u, hexec, rfl⟩ := hexec
  have hforces := load_forces hexec
  obtain ⟨made, others, rfl, hload⟩ := load_some hexec
  obtain ⟨a, har, hdone, hlistener, hpath⟩ := hp
  have har : (u.heap.actions r).animator? = some a := har
  have hrefs : (loadedMocks script u.registry made others).map (·.2.datapoint) =
      made.map Prod.snd ++ others.map Prod.snd := by
    simp [loadedMocks, Function.comp_def]
  simp only [adopt, listenTo_eq, hrefs] at hlistener hpath
  rcases hload.animators r with hsame | ⟨a', ha', hnot, -, hsilent⟩
  · have hs : (s.heap.actions r).animator? = some a := hsame ▸ har
    have hlt := ha r a hs
    have hnew : a.datapoint ∉ made.map Prod.snd ++ others.map Prod.snd := fun hmem =>
      Nat.not_lt_of_le (hload.allocated _ hmem).1 hlt
    rw [if_neg hnew] at hlistener hpath
    refine ⟨fun hf => ?_, a, hs, hdone, ?_, ?_⟩
    · rw [← hload.touches.registry.forces] at hf
      cases haction : s.heap.actions r with
      | set a' => simp [haction, Action.animator?] at hs
      | animation a' =>
        obtain ⟨a'', animator, ha'', hsome, hge⟩ := hforces.animations r hf a' haction
        rw [ha''] at har
        cases hsome.symm.trans har
        exact Nat.not_lt_of_le hge hlt
    · exact (hload.touches.hasListener hlt).symm.trans hlistener
    · exact (hload.touches.path hlt).symm.trans hpath
  · cases ha'.symm.trans har
    rw [if_neg hnot, hsilent] at hlistener
    cases hlistener

-- ---------------------------------------------------------------------------
-- Runs
-- ---------------------------------------------------------------------------

structure Unloaded (s : Service) : Prop where
  mocked : s.mocked = []
  animators : ∀ r, (s.heap.actions r).animator? = none
  distinct : s.registry.Distinct

theorem Unloaded.anchored (h : Unloaded s) (r : Ref) (a : ValueAnimator)
    (ha : (s.heap.actions r).animator? = some a) : a.datapoint < s.fresh := by
  rw [h.animators] at ha
  cases ha

theorem Unloaded.grounded (h : Unloaded s) (hexec : (reload script).exec s = (some (), t)) :
    Grounded t :=
  grounded_of_reload h.distinct h.anchored hexec

/-- The first load leaves nothing that plays. -/
theorem Unloaded.silent (h : Unloaded s) (hexec : (reload script).exec s = (some (), t)) :
    ¬ Playing t r p := by
  intro hp
  obtain ⟨-, a, ha, -⟩ := hp.reloaded h.anchored hexec
  rw [h.animators] at ha
  cases ha

structure Manned (s : Service) : Prop where
  grounded : Grounded s
  driven : Driven s

theorem Manned.reloaded (h : Manned s) (hc : TakesOver script ⟨s, false⟩ .check)
    (hchanged : isChanged s = true) (hreload : (reload script).exec s = (some (), t)) : Manned t := by
  refine ⟨grounded_of_reload h.grounded.distinct h.grounded.animators hreload, ?_⟩
  intro p b hlast r haction hp
  obtain ⟨hforced, hbefore⟩ := hp.reloaded h.grounded.animators hreload
  obtain ⟨d, hd, c, hc', rfl⟩ := hasAction_of_reload hreload haction
  rw [lastExecuted_reload hreload] at hlast
  exact hc hchanged d hd (Registry.isDiscrete_of_mem hd hc' hforced) c hc' hforced p b hlast hbefore

theorem Manned.step {s t : Running} (h : Manned s.service) (hc : TakesOver script s input)
    (hstep : turnStep script s input = some t) (hr : t.raised = false) : Manned t.service := by
  cases turned_of_step hstep with
  | unchanged => exact h
  | loaded hchanged hreload => exact h.reloaded hc hchanged hreload
  | raised => cases hr
  | visit deltaTime _ he =>
    exact ⟨h.grounded.touched (h.grounded.touches_visit he script _ deltaTime), h.driven.visit h.grounded he hc⟩
  | play deltaTime =>
    exact ⟨h.grounded.play script _ deltaTime, h.driven.play h.grounded script deltaTime _⟩
  | outside pending broker _ hd =>
    exact ⟨h.grounded.environment pending broker (hd h.grounded.distinct), h.driven⟩

theorem Manned.fromDriver {s : Running} (h : Manned s.service) (input : TurnInput) :
    FromDriver script s input := by
  intro t hstep p hp b hlast
  cases turned_of_step hstep with
  | unchanged => exact absurd rfl hp
  | loaded _ hreload => exact absurd (assigned_reload hreload p) hp
  | raised _ hreload => exact absurd (assigned_reload hreload p) hp
  | visit deltaTime _ he =>
    cases (assigned_visit h.grounded he hp).symm.trans hlast
    rfl
  | play deltaTime _ he hb =>
    have hplaying := assigned_play h.grounded hp
    rw [lastExecuted_play] at hlast
    exact congrArg some (h.driven p b hlast _ ⟨_, he, _, hb, rfl⟩ hplaying)
  | outside pending broker => exact absurd rfl hp

/-- After the first load, in every run in which the behaviors take over from
animations that are done: every value comes from the behavior executed last. -/
theorem one_driver (script : Script) (s t : Service) (hs : Unloaded s)
    (hexec : (reload script).exec s = (some (), t)) (inputs : List TurnInput)
    (hc : Along (turnStep script) (TakesOver script) ⟨t, false⟩ inputs) :
    Along (turnStep script) (FromDriver script) ⟨t, false⟩ inputs := by
  refine hc.along (P := fun s => s.raised = false → Manned s.service) ?_ ?_
    fun _ => ⟨hs.grounded hexec, fun _ _ _ _ _ hp => (hs.silent hexec hp).elim⟩
  · intro s input t h hc hstep hr
    exact (h (turnStep_some hstep).1).step hc hstep hr
  · intro s input h _
    cases hraised : s.raised with
    | false => exact (h hraised).fromDriver input
    | true =>
      intro t hstep
      cases hraised.symm.trans (turnStep_some hstep).1

-- ---------------------------------------------------------------------------
-- An emergency stop
-- ---------------------------------------------------------------------------

/-- A wiper that is animated on request, and set to 0 when a stop is
requested; still to be loaded. -/
def Service.benchWiper : Service :=
  { Service.bench with
    heap := ⟨fun r => .event ⟨.actuatorTarget, some (if r = 0 then "Wiper" else "Stop")⟩,
      fun r => if r = 0 then .animation ⟨10, .once, [.number 0, .number 10], false, none⟩
        else .set ⟨.number 0, false⟩⟩
    registry := ⟨[⟨"Wiper", .number 0, 0⟩], fun _ => [⟨0, 0, 0⟩, ⟨1, 0, 1⟩], []⟩
    mocked := [] }

def benchWiper : Path × MockedDataPoint := ("Wiper", ⟨1, true, [⟨0, 0, 0⟩, ⟨1, 0, 1⟩]⟩)

def benchWipe : List TurnInput :=
  [.receive .actuatorTarget "Wiper" (.number 5), .visit benchWiper ⟨0, 0, 0⟩ 1,
    .play benchWiper ⟨0, 0, 0⟩ 1]

theorem unloaded_benchWiper : Unloaded .benchWiper := by
  refine ⟨rfl, fun r => ?_, by decide, List.nodup_nil⟩
  by_cases hr : r = 0 <;> simp [Service.benchWiper, hr, Action.animator?]

def benchWipeThenStop : List TurnInput :=
  benchWipe ++ [.play benchWiper ⟨0, 0, 0⟩ 10, .receive .actuatorTarget "Stop" (.number 1),
    .visit benchWiper ⟨1, 0, 1⟩ 1, .play benchWiper ⟨0, 0, 0⟩ 1]

/-- All other animations are done at a visit, and nothing is loaded. -/
def OthersDone (s : Running) : TurnInput → Prop
  | .visit _ b _ => ∀ e ∈ s.service.mocked, ∀ c ∈ e.2.behaviors,
    c.action = b.action ∨ ∀ a ∈ (s.service.heap.actions c.action).animator?, a.done = true
  | .check => isChanged s.service = false
  | _ => True

instance (s : Running) : DecidablePred (OthersDone s)
  | .visit .. => inferInstanceAs (Decidable (∀ _ ∈ _, _))
  | .check => inferInstanceAs (Decidable (_ = false))
  | .edit .. | .play .. | .receive .. | .setExternally .. => inferInstanceAs (Decidable True)

theorem OthersDone.takesOver {s : Running} (h : OthersDone s input) : TakesOver script s input := by
  cases input with
  | visit element b deltaTime =>
    rintro - r ⟨e, he, c, hc, rfl⟩ ⟨a, ha, hplays, -⟩
    refine (h e he c hc).resolve_right fun hdone => ?_
    rw [hdone a ha] at hplays
    cases hplays
  | check =>
    intro hchanged
    cases h.symm.trans hchanged
  | edit | play | receive | setExternally => trivial

theorem one_driver_bench :
    ((reload .benchFade).exec .benchWiper).1 = some () ∧
      Along (turnStep .benchFade) (FromDriver .benchFade)
        ⟨((reload .benchFade).exec .benchWiper).2, false⟩ benchWipeThenStop ∧
      (Atomic.run (turnStep .benchFade) ⟨((reload .benchFade).exec .benchWiper).2, false⟩ benchWipeThenStop).map
        (fun s => (s.service.log.filterMap (Deed.executedOn? "Wiper"), assignedTo "Wiper" s.service.log)) =
          some ([⟨0, 0, 0⟩, ⟨1, 0, 1⟩], [.number 1, .number 10, .number 0]) := by
  refine ⟨by decide +kernel, one_driver .benchFade .benchWiper _ unloaded_benchWiper rfl _ ?_,
    by decide +kernel⟩
  have hothers : Along (turnStep .benchFade) OthersDone
      ⟨((reload .benchFade).exec .benchWiper).2, false⟩ benchWipeThenStop := by
    decide +kernel
  exact hothers.mono fun _ _ h => h.takesOver

def benchStop : List TurnInput :=
  benchWipe ++ [.receive .actuatorTarget "Stop" (.number 1), .visit benchWiper ⟨1, 0, 1⟩ 1]

/-- The wiper was set to 0 last, and moves on. -/
theorem stop_ignored :
    ∃ s, Atomic.run (turnStep .benchFade) ⟨((reload .benchFade).exec .benchWiper).2, false⟩ benchStop =
        some s ∧
      lastExecuted "Wiper" s.service.log = some ⟨1, 0, 1⟩ ∧
      assignedTo "Wiper" s.service.log = [.number 1, .number 0] ∧
      ¬ FromDriver .benchFade s (.play benchWiper ⟨0, 0, 0⟩ 1) := by
  have hend : (Atomic.run (turnStep .benchFade) ⟨((reload .benchFade).exec .benchWiper).2, false⟩
      benchStop).map (fun s => (lastExecuted "Wiper" s.service.log, assignedTo "Wiper" s.service.log,
        (turnStep .benchFade s (.play benchWiper ⟨0, 0, 0⟩ 1)).map fun t =>
          (lastExecuted "Wiper" t.service.log, assignedTo "Wiper" t.service.log))) =
      some (some ⟨1, 0, 1⟩, [.number 1, .number 0],
        some (some ⟨1, 0, 1⟩, [.number 1, .number 0, .number 2])) := by
    decide +kernel
  obtain ⟨s, hrun, hs⟩ := Option.map_eq_some_iff.mp hend
  simp only [Prod.mk.injEq] at hs
  obtain ⟨hlast, hassigned, hstep⟩ := hs
  obtain ⟨t, hstep, ht⟩ := Option.map_eq_some_iff.mp hstep
  simp only [Prod.mk.injEq] at ht
  refine ⟨s, hrun, hlast, hassigned, fun h => ?_⟩
  have haction := h t hstep "Wiper" (by rw [ht.2, hassigned]; decide) _ ht.1
  revert haction
  decide

end KuksaServices.Mock
