import KuksaServices.Mock.Cache

/-!
# From the first connect on

`on_databroker_connected` loads and then feeds the initial values, while the
main loop starts as soon as the load has registered the mocks. No later load
feeds anything: a datapoint whose value had changed no longer has the value
that the broker was given last, and a new one has never been written. Where
neither happens, cached and written values agree in every run
(`cache_agrees`).
-/

namespace KuksaServices.Mock

open Atomic (Raise Along Throughout)

variable {script : Script} {t : Service} {d : Registration} {element e : Path × MockedDataPoint}
  {left : List (Path × MockedDataPoint)}

-- ---------------------------------------------------------------------------
-- The two threads
-- ---------------------------------------------------------------------------

def feedElement (element : Path × MockedDataPoint) : Py Unit := do
  let d ← Raise.peek .loop fun s => s.datapoints element.2.datapoint
  if d.dataType.isSome then setDatapoint d.path d.value else pure ()

theorem feedInitialValues_eq : feedInitialValues = (do
    let mocked ← Raise.peek .loop (·.mocked)
    Raise.forEach mocked feedElement) := rfl

/-- The service, with what its threads have come to. -/
structure Session where
  service : Service
  /-- An exception has ended the main loop. -/
  raised : Bool
  /-- `on_databroker_connected` was called. -/
  connected : Bool
  /-- What `_feed_initial_values` has still to come to. -/
  left : List (Path × MockedDataPoint)
  /-- The main loop has found the mocks registered. -/
  begun : Bool
  /-- The registrations of the last load. -/
  initials : List Registration

inductive SessionInput where
  | connect
  | feed
  | start
  | turn (input : TurnInput)
  deriving DecidableEq, Repr

def Session.turned (s : Session) (t : Running) : Session :=
  { s with
    service := t.service
    raised := t.raised
    initials := if t.service.loads = s.service.loads then s.initials else t.service.registry.mocked }

def sessionStep (script : Script) (s : Session) : SessionInput → Option Session
  | .connect =>
    if s.connected then none
    else if s.service.registered then some { s with connected := true }
    else match (checkForNewMocks script true).exec s.service with
      | (some _, t) => some
        { s with service := t, connected := true, left := t.mocked, initials := t.registry.mocked }
      | (none, t) => some { s with service := t, connected := true }
  | .feed => match s.left with
    | [] => none
    | element :: left => some { s with service := ((feedElement element).exec s.service).2, left := left }
  | .start => if s.service.registered && !s.begun then some { s with begun := true } else none
  | .turn input =>
    if input.ofLoop && !s.begun then none
    else (turnStep script ⟨s.service, s.raised⟩ input).map s.turned

def Session.initial (s : Service) : Session := ⟨s, false, false, [], false, []⟩

theorem exec_feedElement (element : Path × MockedDataPoint) (s : Service) :
    (feedElement element).exec s =
      if (s.datapoints element.2.datapoint).dataType.isSome = true
      then (some (), ((setDatapoint (s.datapoints element.2.datapoint).path
        (s.datapoints element.2.datapoint).value).exec s).2)
      else (some (), s) := by
  simp only [feedElement, Raise.exec_bind, Raise.exec_peek, Option.elim_some, Raise.exec_ite,
    Raise.exec_pure, exec_setDatapoint]

theorem run_feed (script : Script) (s : Session) (left : List (Path × MockedDataPoint)) :
    Atomic.run (sessionStep script) { s with left := left } (left.map fun _ => .feed) =
      some { s with service := ((Raise.forEach left feedElement).exec s.service).2, left := [] } := by
  induction left generalizing s with
  | nil => rfl
  | cons element left ih =>
    have hreturns : (feedElement element).exec s.service =
        (some (), ((feedElement element).exec s.service).2) := by
      rw [exec_feedElement]
      split <;> rfl
    refine (Atomic.run_cons rfl).trans ?_
    rw [ih { s with service := ((feedElement element).exec s.service).2, left := left }]
    simp only [Raise.forEach, Raise.exec_bind]
    rw [hreturns]
    rfl

/-- The steps of the connector make up `on_databroker_connected`. -/
theorem run_of_onDatabrokerConnected (script : Script) (s : Service) :
    ∃ inputs t, Atomic.run (sessionStep script) (.initial s) inputs = some t ∧
      t.service = ((onDatabrokerConnected script).exec s).2 := by
  simp only [onDatabrokerConnected, Raise.exec_bind, Raise.exec_peek, Option.elim_some, Raise.exec_ite,
    Raise.exec_pure]
  cases hregistered : s.registered with
  | true => exact ⟨[], .initial s, rfl, rfl⟩
  | false =>
    rcases hexec : (checkForNewMocks script true).exec s with ⟨_ | _, t⟩
    · refine ⟨[.connect], { Session.initial s with service := t, connected := true }, ?_, by simp⟩
      simp [Atomic.run, sessionStep, Session.initial, hregistered, hexec]
    · have hconnect : sessionStep script (.initial s) .connect = some
          { Session.initial s with
            service := t, connected := true, left := t.mocked, initials := t.registry.mocked } := by
        simp [sessionStep, Session.initial, hregistered, hexec]
      refine ⟨.connect :: t.mocked.map fun _ => .feed, _, (Atomic.run_cons hconnect).trans
        (run_feed script { Session.initial s with
          service := t, connected := true, initials := t.registry.mocked } t.mocked), ?_⟩
      simp [feedInitialValues_eq]

theorem run_of_turns (h : Atomic.run (turnStep script) running inputs = some running') (s : Session)
    (hs : s.begun = true) (hservice : s.service = running.service) (hraised : s.raised = running.raised) :
    ∃ t, Atomic.run (sessionStep script) s (inputs.map .turn) = some t ∧
      t.service = running'.service := by
  induction inputs generalizing running s with
  | nil =>
    obtain rfl := Option.some.inj h
    exact ⟨s, rfl, hservice⟩
  | cons input inputs ih =>
    obtain ⟨u, hstep, hrest⟩ := Option.bind_eq_some_iff.mp h
    obtain ⟨service, raised⟩ := running
    subst hservice hraised
    have hturn : sessionStep script s (.turn input) = some (s.turned u) := by simp [sessionStep, hs, hstep]
    obtain ⟨t, ht, hservice⟩ := ih hrest (s.turned u) hs rfl rfl
    exact ⟨t, (Atomic.run_cons hturn).trans ht, hservice⟩

-- ---------------------------------------------------------------------------
-- The condition
-- ---------------------------------------------------------------------------

structure Cached (s : Session) : Prop where
  agrees : Agrees s.service
  /-- A value that is set has been written, by this `set_value` or before. -/
  heard : ∀ e ∈ s.service.mocked, s.service.Supports e → ∀ value,
    (writtenTo e.1 ((setValue e.2.datapoint value).exec s.service).2.log).getLast? = some value
  initials : ∀ d ∈ s.initials, d.initialValue ∈ writtenTo d.path s.service.log

/-- The load will find every initial value written, and for the supported
types written last. It brings in no action that still plays on an older
datapoint of such a path: only on a datapoint of a discrete type it leaves an
animator as it is. -/
structure Reloadable (script : Script) (s : Service) : Prop where
  written : ∀ d ∈ (runMockPy script s).registry.mocked, d.initialValue ∈ writtenTo d.path s.log
  last : ∀ d ∈ (runMockPy script s).registry.mocked,
    (script.dataType d.path).any DataType.isSupported = true →
      (writtenTo d.path s.log).getLast? = some d.initialValue
  idle : ∀ d ∈ (runMockPy script s).registry.mocked,
    (script.dataType d.path).any DataType.isDiscrete = true →
      ∀ c ∈ loadedBehaviors script (runMockPy script s).registry d,
      ¬ (runMockPy script s).registry.Forces script c.action →
      ∀ d' ∈ (runMockPy script s).registry.mocked,
        (script.dataType d'.path).any DataType.isSupported = true → ¬ Playing s c.action d'.path

/-- The main loop starts when all values have been fed, and loads only what is
reloadable. -/
def Seamless (script : Script) (s : Session) : SessionInput → Prop
  | .start => ∀ e ∈ s.left, (s.service.datapoints e.2.datapoint).dataType = none
  | .turn .check => isChanged s.service = true → Reloadable script s.service
  | _ => True

-- ---------------------------------------------------------------------------
-- Before and after the first load
-- ---------------------------------------------------------------------------

structure Waiting (s : Session) : Prop where
  registered : s.service.registered = false
  left : s.left = []
  begun : s.begun = false
  unloaded : s.connected = false → Unloaded s.service

/-- Once the mocks are registered: what was not written yet is still to be
fed. -/
structure Serving (s : Session) : Prop where
  connected : s.connected = true
  grounded : Grounded s.service
  tethered : Tethered s.service
  agrees : ∀ e ∈ s.service.mocked, s.service.Supports e → e ∈ s.left ∨
    (writtenTo e.1 s.service.log).getLast? = some (s.service.datapoints e.2.datapoint).value
  initials : ∀ d ∈ s.initials, d.initialValue ∈ writtenTo d.path s.service.log ∨
    ∃ e ∈ s.left, e.1 = d.path ∧ (s.service.datapoints e.2.datapoint).dataType.isSome = true ∧
      (s.service.datapoints e.2.datapoint).value = d.initialValue
  left : ∀ e ∈ s.left, e.2.datapoint < s.service.fresh ∧
    ((s.service.datapoints e.2.datapoint).dataType.isSome = true → s.begun = false ∧ e ∈ s.service.mocked)

section
variable {s : Session}

theorem Serving.fed (h : Serving s) (hb : s.begun = true) (he : e ∈ s.left) :
    ¬ (s.service.datapoints e.2.datapoint).dataType.isSome = true := by
  intro hsome
  cases hb.symm.trans ((h.left e he).2 hsome).1

theorem Serving.steady (h : Serving s) (hb : s.begun = true) : Steady s.service := by
  refine ⟨h.grounded.loaded, fun e he hsupports => ?_, h.tethered⟩
  rcases h.agrees e he hsupports with hleft | hlast
  · exact absurd hsupports.isSome (h.fed hb hleft)
  · exact hlast

theorem Serving.written (h : Serving s) (hb : s.begun = true) (hd : d ∈ s.initials) :
    d.initialValue ∈ writtenTo d.path s.service.log := by
  rcases h.initials d hd with hwritten | ⟨e, he, -, hsome, -⟩
  · exact hwritten
  · exact absurd hsome (h.fed hb he)

theorem Serving.kept (h : Serving s) (hb : s.begun = true) (hk : KeptFrom s.service t)
    (hg : Grounded t) : Serving { s with service := t } := by
  obtain ⟨ho, hsteady⟩ := hk
  refine ⟨h.connected, hg, hsteady.tethered, fun e he hs => .inr (hsteady.agrees e he hs),
    fun d hd => .inl ((ho.written d.path).subset (h.written hb hd)), fun e he => ?_⟩
  obtain ⟨hlt, htyped⟩ := h.left e he
  refine ⟨ho.fresh.symm ▸ hlt, fun hsome => ?_⟩
  rw [ho.dataType] at hsome
  exact absurd hsome (h.fed hb he)

theorem Serving.environment (h : Serving s) (pending : List Event) (broker : Path → Option Value)
    (hd : registry.Distinct) : Serving { s with
      service := { s.service with registry := registry, pending := pending, broker := broker } } :=
  ⟨h.connected, h.grounded.environment pending broker hd, h.tethered.onward (onward_of_eq rfl rfl rfl rfl) rfl,
    h.agrees, h.initials, h.left⟩

theorem Grounded.setDatapoint {s : Service} (h : Grounded s) (path : Path) (value : Value) :
    Grounded ((setDatapoint path value).exec s).2 := by
  obtain ⟨_, _, _, hframe⟩ := setDatapoint_frame path value s
  have hloaded := h.loaded.onward (onward_setDatapoint path value s)
  rw [hframe] at hloaded ⊢
  exact ⟨hloaded, h.distinct, h.animators⟩

theorem Tethered.setDatapoint {s : Service} (h : Tethered s) (path : Path) (value : Value) :
    Tethered ((setDatapoint path value).exec s).2 := by
  refine h.onward (onward_setDatapoint path value s) ?_
  obtain ⟨_, _, _, hframe⟩ := setDatapoint_frame path value s
  rw [hframe]

theorem Serving.skip (h : Serving s) (hleft : s.left = element :: left)
    (hnone : ¬ (s.service.datapoints element.2.datapoint).dataType.isSome = true) :
    Serving { s with left := left } := by
  refine ⟨h.connected, h.grounded, h.tethered, fun e he hs => ?_, fun d hd => ?_, fun e he => ?_⟩
  · refine (h.agrees e he hs).imp_left fun hmem => ?_
    rw [hleft] at hmem
    rcases List.mem_cons.mp hmem with rfl | hmem
    · exact absurd hs.isSome hnone
    · exact hmem
  · refine (h.initials d hd).imp_right ?_
    rw [hleft]
    rintro ⟨e, he, hpath, hsome, hvalue⟩
    rcases List.mem_cons.mp he with rfl | he
    · exact absurd hsome hnone
    · exact ⟨e, he, hpath, hsome, hvalue⟩
  · exact h.left e (hleft ▸ List.mem_cons_of_mem _ he)

theorem Serving.write (h : Serving s) (hleft : s.left = element :: left)
    (hsome : (s.service.datapoints element.2.datapoint).dataType.isSome = true) :
    Serving { s with
      service := ((setDatapoint (s.service.datapoints element.2.datapoint).path
        (s.service.datapoints element.2.datapoint).value).exec s.service).2
      left := left } := by
  have hmem : element ∈ s.left := hleft ▸ List.mem_cons_self
  obtain ⟨-, htyped⟩ := h.left element hmem
  obtain ⟨hbegun, helement⟩ := htyped hsome
  rw [h.grounded.loaded.path element helement]
  generalize hv : (s.service.datapoints element.2.datapoint).value = value
  have ho := onward_setDatapoint element.1 value s.service
  have hd := setDatapoint_datapoints element.1 value s.service
  have hw := writtenTo_setDatapoint element.1 value s.service
  refine ⟨h.connected, h.grounded.setDatapoint _ _, h.tethered.setDatapoint _ _, fun e he hs => ?_,
    fun d hd' => ?_, fun e he => ?_⟩
  · simp only [hd, hw]
    simp only [ho.mocked] at he
    simp only [ho.supports] at hs
    by_cases hp : element.1 = e.1
    · obtain rfl := h.grounded.loaded.eq_of_path helement he hp
      simp [hv]
    · rw [if_neg hp, List.append_nil]
      refine (h.agrees e he hs).imp_left fun hmem => ?_
      rw [hleft] at hmem
      rcases List.mem_cons.mp hmem with rfl | hmem
      · exact absurd rfl hp
      · exact hmem
  · simp only [hd, hw]
    rcases h.initials d hd' with hwritten | ⟨e, he, hpath, hsome, hvalue⟩
    · exact .inl (List.mem_append_left _ hwritten)
    · rw [hleft] at he
      rcases List.mem_cons.mp he with rfl | he
      · refine .inl (List.mem_append_right _ ?_)
        rw [if_pos hpath, ← hv, hvalue]
        exact List.mem_singleton_self _
      · exact .inr ⟨e, he, hpath, hsome, hvalue⟩
  · simp only [hd, ho.fresh, ho.mocked]
    exact h.left e (hleft ▸ List.mem_cons_of_mem _ he)

theorem Serving.feed (h : Serving s) (hleft : s.left = element :: left) :
    Serving { s with service := ((feedElement element).exec s.service).2, left := left } := by
  rw [exec_feedElement]
  split
  · rename_i hsome
    exact h.write hleft hsome
  · rename_i hnone
    exact h.skip hleft hnone

-- ---------------------------------------------------------------------------
-- Loads of the two threads
-- ---------------------------------------------------------------------------

theorem Serving.reloaded (h : Serving s) (hb : s.begun = true) (hc : Reloadable script s.service)
    (hexec : (reload script).exec s.service = (some (), t)) :
    Serving { s with service := t, initials := t.registry.mocked } := by
  have hwritten := writtenTo_reload hexec
  refine ⟨h.connected, grounded_of_reload h.grounded.distinct h.grounded.animators hexec, ?_, ?_, ?_, ?_⟩
  · intro r hr a ha hdone hlistener
    refine .inr fun e he hs hpath => ?_
    have hp : Playing t r e.1 := ⟨a, ha, hdone, hlistener, hpath.symm⟩
    obtain ⟨hforced, hbefore⟩ := hp.reloaded h.grounded.animators hexec
    obtain ⟨d, hd, c, hc', rfl⟩ := hasAction_of_reload hexec hr
    obtain ⟨d', hd', hpath', hsupported, -⟩ := registration_of_reload hexec he hs
    exact hc.idle d hd (Registry.isDiscrete_of_mem hd hc' hforced) c hc' hforced d' hd' hsupported
      (hpath' ▸ hbefore)
  · intro e he hs
    obtain ⟨d, hd, hpath, hsupported, hvalue⟩ := registration_of_reload hexec he hs
    refine .inr ?_
    simp only [hwritten, hvalue, ← hpath]
    exact hc.last d hd hsupported
  · intro d hd
    refine .inl ?_
    simp only [registry_of_reload hexec] at hd
    simp only [hwritten]
    exact hc.written d hd
  · intro e he
    obtain ⟨hlt, htype⟩ := dataType_of_reload hexec (h.left e he).1
    refine ⟨hlt, fun hsome => ?_⟩
    simp only [htype] at hsome
    exact absurd hsome (h.fed hb he)

/-- After the first load every value is still to be fed. -/
theorem Waiting.load (h : Waiting s) (hn : s.connected = false)
    (hexec : (reload script).exec s.service = (some (), t)) :
    Serving { s with service := t, connected := true, left := t.mocked, initials := t.registry.mocked } := by
  have hunloaded := h.unloaded hn
  have hgrounded := hunloaded.grounded hexec
  refine ⟨rfl, hgrounded, ?_, fun e he _ => .inl he, ?_, ?_⟩
  · intro r _ a ha hdone hlistener
    exact (hunloaded.silent hexec ⟨a, ha, hdone, hlistener, rfl⟩).elim
  · intro d hd
    simp only [registry_of_reload hexec] at hd
    exact .inr (element_of_reload hexec hd)
  · intro e he
    exact ⟨hgrounded.loaded.allocated e he, fun _ => ⟨h.begun, he⟩⟩

-- ---------------------------------------------------------------------------
-- Steps
-- ---------------------------------------------------------------------------

theorem Serving.turned {u : Running} (h : Serving { s with service := u.service })
    (hl : u.service.loads = s.service.loads) : Serving (s.turned u) := by
  obtain ⟨hconnected, hgrounded, htethered, hagrees, hinitials, hleft⟩ := h
  refine ⟨hconnected, hgrounded, htethered, hagrees, ?_, hleft⟩
  simp only [Session.turned, hl, if_true]
  exact hinitials

theorem Serving.loaded {u : Running}
    (h : Serving { s with service := u.service, initials := u.service.registry.mocked })
    (hl : u.service.loads = s.service.loads + 1) : Serving (s.turned u) := by
  obtain ⟨hconnected, hgrounded, htethered, hagrees, hinitials, hleft⟩ := h
  refine ⟨hconnected, hgrounded, htethered, hagrees, ?_, hleft⟩
  simp only [Session.turned, hl, Nat.succ_ne_self, if_false]
  exact hinitials

theorem Serving.turn {u : Running} (h : Serving s) (hloop : input.ofLoop = true → s.begun = true)
    (hc : Seamless script s (.turn input)) (hstep : turnStep script ⟨s.service, s.raised⟩ input = some u)
    (hr : u.raised = false) : Serving (s.turned u) := by
  have hloads : OfMocks fun t => t.loads = s.service.loads := fun _ _ _ hl _ h => hl.trans h
  cases turned_of_step hstep with
  | unchanged => exact Serving.turned h rfl
  | loaded hchanged hexec =>
    exact Serving.loaded (h.reloaded (hloop rfl) (hc hchanged) hexec) (loads_of_reload hexec)
  | raised => cases hr
  | visit deltaTime _ he =>
    refine Serving.turned ?_ (hloads.visit script _ _ deltaTime _ rfl)
    exact h.kept (hloop rfl) ((h.steady (hloop rfl)).visit he script _ deltaTime)
      (h.grounded.touched (h.grounded.touches_visit he script _ deltaTime))
  | play deltaTime _ he hb =>
    refine Serving.turned ?_ (hloads.play script deltaTime _ rfl)
    exact h.kept (hloop rfl) ((h.steady (hloop rfl)).play ⟨_, he, _, hb, rfl⟩ script deltaTime)
      (h.grounded.play script _ deltaTime)
  | outside pending broker _ hd =>
    exact Serving.turned (h.environment pending broker (hd h.grounded.distinct)) rfl

theorem Waiting.turn {u : Running} (h : Waiting s) (hloop : input.ofLoop = true → s.begun = true)
    (hstep : turnStep script ⟨s.service, s.raised⟩ input = some u) : Waiting (s.turned u) := by
  obtain ⟨hregistered, hleft, hbegun, hunloaded⟩ := h
  have hno : input.ofLoop = false := by
    by_contra hl
    cases hbegun.symm.trans (hloop (by simpa using hl))
  cases turned_of_step hstep with
  | unchanged => cases hno
  | loaded => cases hno
  | raised => cases hno
  | visit => cases hno
  | play => cases hno
  | outside pending broker _ hd =>
    exact ⟨hregistered, hleft, hbegun, fun hn =>
      ⟨(hunloaded hn).mocked, (hunloaded hn).animators, hd (hunloaded hn).distinct⟩⟩

def Phase (s : Session) : Prop := s.raised = false → Waiting s ∨ Serving s

theorem Phase.connect {t : Session} (h : Phase s) (hstep : sessionStep script s .connect = some t) :
    Phase t := by
  simp only [sessionStep] at hstep
  split at hstep
  · cases hstep
  · rename_i hconnected
    have hn : s.connected = false := by simpa using hconnected
    have hwaiting : s.raised = false → Waiting s := fun hr =>
      (h hr).resolve_right fun hs => hconnected hs.connected
    split at hstep
    · rename_i hregistered
      obtain rfl := Option.some.inj hstep
      intro hr
      cases hregistered.symm.trans (hwaiting hr).registered
    · have hexec : (checkForNewMocks script true).exec s.service = (reload script).exec s.service := by
        simp [checkForNewMocks]
      rw [hexec] at hstep
      split at hstep
      · rename_i u hreload
        obtain rfl := Option.some.inj hstep
        exact fun hr => .inr ((hwaiting hr).load hn hreload)
      · rename_i u hreload
        obtain rfl := Option.some.inj hstep
        intro hr
        obtain ⟨hregistered, hleft, hbegun, -⟩ := hwaiting hr
        exact .inl ⟨(registered_of_raise hreload).trans hregistered, hleft, hbegun, fun hno => by cases hno⟩

theorem Phase.step {t : Session} (h : Phase s) (hc : Seamless script s input)
    (hstep : sessionStep script s input = some t) : Phase t := by
  cases input with
  | connect => exact h.connect hstep
  | feed =>
    simp only [sessionStep] at hstep
    split at hstep
    · cases hstep
    · rename_i element left hleft
      obtain rfl := Option.some.inj hstep
      refine fun hr => .inr ?_
      rcases h hr with hwaiting | hserving
      · cases hleft.symm.trans hwaiting.left
      · exact hserving.feed hleft
  | start =>
    simp only [sessionStep] at hstep
    split at hstep
    · rename_i hregistered
      obtain rfl := Option.some.inj hstep
      refine fun hr => .inr ?_
      rcases h hr with hwaiting | hserving
      · simp [hwaiting.registered] at hregistered
      · obtain ⟨hconnected, hgrounded, htethered, hagrees, hinitials, hleft⟩ := hserving
        refine ⟨hconnected, hgrounded, htethered, hagrees, hinitials, fun e he => ⟨(hleft e he).1, ?_⟩⟩
        intro hsome
        simp [hc e he] at hsome
    · cases hstep
  | turn input =>
    simp only [sessionStep] at hstep
    split at hstep
    · cases hstep
    · rename_i hloop
      have hloop : input.ofLoop = true → s.begun = true := fun hl => by simpa [hl] using hloop
      obtain ⟨u, hturn, rfl⟩ := Option.map_eq_some_iff.mp hstep
      intro hr
      rcases h (turnStep_some hturn).1 with hwaiting | hserving
      · exact .inl (hwaiting.turn hloop hturn)
      · exact .inr (hserving.turn hloop hc hturn hr)

theorem Serving.cached (h : Serving s) (hb : s.begun = true) : Cached s := by
  have hsteady := h.steady hb
  refine ⟨hsteady.agrees, fun e he hs value => ?_, fun d hd => h.written hb hd⟩
  have ho := onward_setValue e.2.datapoint value s.service
  have hlast := hsteady.agrees.setValue hsteady.loaded (Loaded.belongs he) value e (ho.mocked ▸ he)
    ((ho.supports e).mpr hs)
  rw [hlast, (setValue_writes e.2.datapoint value s.service).1, Function.update_self]

end

/-- In every run in which the main loop starts after the values were fed and
each load finds its initial values written last: at every point of the main
loop the datapoints have the values that were written last, and the initial
values have been written. -/
theorem cache_agrees (script : Script) (s : Service) (hs : Unloaded s) (hr : s.registered = false)
    (inputs : List SessionInput)
    (hc : Along (sessionStep script) (Seamless script) (.initial s) inputs) :
    Throughout (sessionStep script) (fun s => s.begun = true → s.raised = false → Cached s)
      (.initial s) inputs := by
  have hstart : Phase (.initial s) := fun _ => .inl ⟨hr, rfl, rfl, fun _ => hs⟩
  refine (Along.throughout (P := Phase) (fun _ _ _ => Phase.step) hstart hc).mono fun s h hb hr => ?_
  rcases h hr with hwaiting | hserving
  · cases hb.symm.trans hwaiting.begun
  · exact hserving.cached hb

-- ---------------------------------------------------------------------------
-- A wiper that is loaded again
-- ---------------------------------------------------------------------------

def Service.benchParked : Service :=
  { Service.benchWiper with
    registry := ⟨[⟨"Wiper", .number 0, 0⟩], fun r => if r = 0 then [⟨0, 0, 0⟩, ⟨1, 0, 1⟩] else [], []⟩
    registered := false
    loads := 0
    subscriptions := [] }

def benchMoving : List SessionInput :=
  [.connect, .feed, .start, .turn .check, .turn (.receive .actuatorTarget "Wiper" (.number 5)),
    .turn (.visit benchWiper ⟨0, 0, 0⟩ 1), .turn (.play benchWiper ⟨0, 0, 0⟩ 1)]

theorem unloaded_benchParked : Unloaded .benchParked :=
  ⟨rfl, unloaded_benchWiper.animators, by decide, List.nodup_nil⟩

theorem cache_agrees_bench :
    Throughout (sessionStep .benchFade) (fun s => s.begun = true → s.raised = false → Cached s)
        (.initial .benchParked) benchMoving ∧
      (Atomic.run (sessionStep .benchFade) (.initial .benchParked) benchMoving).map
        (fun s => (s.begun, s.raised, writtenTo "Wiper" s.service.log)) =
          some (true, false, [.number 0, .number 1]) := by
  refine ⟨cache_agrees .benchFade .benchParked unloaded_benchParked rfl _ ?_, by decide +kernel⟩
  refine ⟨trivial, trivial, fun e he => ?_, fun hchanged => ?_, trivial, trivial, trivial, trivial⟩
  · cases he
  · exact absurd hchanged (by decide +kernel)

def benchAnother : List SessionInput :=
  benchMoving ++ [.turn (.edit (.mockDatapoint "Door" (.number 0) 1)), .turn .check]

def benchHalt : List SessionInput :=
  [.turn (.receive .actuatorTarget "Stop" (.number 1)),
    .turn (.visit ("Wiper", ⟨4, true, [⟨0, 0, 0⟩, ⟨1, 0, 1⟩]⟩) ⟨1, 0, 1⟩ 1)]

/-- The wiper was written as 1 and is 0 after the load, so that the 0 of the
stop is not written. -/
theorem reload_forgets :
    ∃ s, Atomic.run (sessionStep .benchFade) (.initial .benchParked) benchAnother = some s ∧
      s.begun = true ∧ s.raised = false ∧ ¬ Agrees s.service ∧
      ¬ Throughout (sessionStep .benchFade) (fun s => s.begun = true → s.raised = false → Cached s)
        (.initial .benchParked) benchAnother ∧
      (Atomic.run (sessionStep .benchFade) s benchHalt).map (fun t =>
        (lastExecuted "Wiper" t.service.log, t.service.broker "Wiper", writtenTo "Wiper" t.service.log)) =
          some (some ⟨1, 0, 1⟩, some (.number 1), [.number 0, .number 1]) := by
  have hend : (Atomic.run (sessionStep .benchFade) (.initial .benchParked) benchAnother).map
      (fun s => (s.begun && !s.raised && !decide (Agrees s.service),
        (Atomic.run (sessionStep .benchFade) s benchHalt).map fun t =>
          (lastExecuted "Wiper" t.service.log, t.service.broker "Wiper",
            writtenTo "Wiper" t.service.log))) =
      some (true,
        some (some ⟨1, 0, 1⟩, some (.number 1), [.number 0, .number 1])) := by
    decide +kernel
  obtain ⟨s, hrun, hs⟩ := Option.map_eq_some_iff.mp hend
  simp only [Prod.mk.injEq, Bool.and_eq_true, Bool.not_eq_true', decide_eq_false_iff_not] at hs
  obtain ⟨⟨⟨hbegun, hraised⟩, hagrees⟩, hhalt⟩ := hs
  exact ⟨s, hrun, hbegun, hraised, hagrees, fun h => hagrees (h.last hrun hbegun hraised).agrees, hhalt⟩

end KuksaServices.Mock
