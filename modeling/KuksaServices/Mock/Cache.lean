import KuksaServices.Mock.Drivers

/-!
# Cached values and written values

`set_value` compares with the value that the datapoint has and writes to the
broker only when it differs. Between two loads a datapoint so keeps the value
that was written last for its path (`Agrees`), as long as nothing plays on an
older datapoint of the path. A load makes new datapoints with their initial
values and writes nothing.
-/

namespace KuksaServices.Mock

open Atomic (Raise)

variable {script : Script} {s t u : Service} {b : Behavior} {p : Path} {r : Ref} {d : Registration}
  {element e : Path × MockedDataPoint}

-- ---------------------------------------------------------------------------
-- Written values
-- ---------------------------------------------------------------------------

def Deed.wroteTo? (path : Path) : Deed → Option Value
  | .wrote p value => if p = path then some value else none
  | _ => none

/-- The values that the service wrote to the broker for a path, in order. -/
def writtenTo (path : Path) (log : List Deed) : List Value := log.filterMap (·.wroteTo? path)

theorem writtenTo_record (path : Path) (s : Service) (d : Deed) :
    writtenTo path (s.record d).log = writtenTo path s.log ++ (d.wroteTo? path).toList := by
  cases h : d.wroteTo? path <;> simp [writtenTo, Service.record, h]

theorem writtenTo_record_none (path : Path) (s : Service) (d : Deed) (h : d.wroteTo? path = none) :
    writtenTo path (s.record d).log = writtenTo path s.log := by
  rw [writtenTo_record, h, Option.toList_none, List.append_nil]

theorem writtenTo_setDatapoint (path : Path) (value : Value) (s : Service) (p : Path) :
    writtenTo p ((setDatapoint path value).exec s).2.log =
      writtenTo p s.log ++ if path = p then [value] else [] := by
  have hwrite : writtenTo p (writeBroker path value s).log =
      writtenTo p s.log ++ if path = p then [value] else [] := by
    rw [writeBroker, writtenTo_record]
    by_cases hp : path = p <;> simp [Deed.wroteTo?, hp]
  rw [exec_setDatapoint]
  unfold discardEvent
  cases lastMatch .value path (writeBroker path value s).pending with
  | none => exact hwrite
  | some e => exact (writtenTo_record_none p _ (.discarded e) rfl).trans hwrite

theorem setDatapoint_datapoints (path : Path) (value : Value) (s : Service) :
    ((setDatapoint path value).exec s).2.datapoints = s.datapoints := by
  obtain ⟨_, _, _, h⟩ := setDatapoint_frame path value s
  rw [h]

theorem setValue_writes (r : Ref) (value : Value) (s : Service) :
    ((setValue r value).exec s).2.datapoints =
        Function.update s.datapoints r { s.datapoints r with value := value } ∧
      ∀ p, writtenTo p ((setValue r value).exec s).2.log = writtenTo p s.log ++
        if (s.datapoints r).hasListener = true ∧ (s.datapoints r).value ≠ value ∧
          (s.datapoints r).path = p then [value] else [] := by
  by_cases hv : (s.datapoints r).value = value
  · have hsame : { s.datapoints r with value := value } = s.datapoints r := by rw [← hv]
    have hexec : ((setValue r value).exec s).2 =
        s.record (.assigned (s.datapoints r).path (s.datapoints r).hasListener value) := by
      simp [setValue, assignValue, hv]
    rw [hexec, hsame, Function.update_eq_self]
    refine ⟨rfl, fun p => ?_⟩
    rw [writtenTo_record_none p s _ rfl]
    simp [hv]
  · cases hl : (s.datapoints r).hasListener with
    | true =>
      have hexec : ((setValue r value).exec s).2 =
          ((setDatapoint (s.datapoints r).path value).exec (s.assign r value)).2 := by
        rw [exec_setValue_other hl hv, exec_setDatapoint]
      rw [hexec, setDatapoint_datapoints]
      refine ⟨rfl, fun p => ?_⟩
      rw [writtenTo_setDatapoint]
      have hassign : writtenTo p (s.assign r value).log = writtenTo p s.log :=
        writtenTo_record_none p s _ rfl
      simp [hassign, hv]
    | false =>
      have hexec : ((setValue r value).exec s).2 =
          { s.record (.assigned (s.datapoints r).path false value) with
            datapoints := Function.update s.datapoints r { s.datapoints r with value := value } } := by
        simp [setValue, assignValue, hv, hl, Service.record]
      rw [hexec]
      refine ⟨rfl, fun p => ?_⟩
      simpa using writtenTo_record_none p s _ rfl

-- ---------------------------------------------------------------------------
-- Between two loads
-- ---------------------------------------------------------------------------

/-- The mocks stay, their datapoints keep their kinds, and what was written
stays written. -/
structure Onward (s t : Service) : Prop where
  mocked : t.mocked = s.mocked
  fresh : t.fresh = s.fresh
  kinds : ∀ r, (t.datapoints r).kind = (s.datapoints r).kind
  written : ∀ p, writtenTo p s.log <+: writtenTo p t.log

theorem Onward.refl (s : Service) : Onward s s := ⟨rfl, rfl, fun _ => rfl, fun _ => List.prefix_rfl⟩

theorem Onward.trans (h : Onward s t) (h' : Onward t u) : Onward s u :=
  ⟨h'.mocked.trans h.mocked, h'.fresh.trans h.fresh, fun r => (h'.kinds r).trans (h.kinds r),
    fun p => (h.written p).trans (h'.written p)⟩

theorem Onward.path (h : Onward s t) (r : Ref) : (t.datapoints r).path = (s.datapoints r).path :=
  congrArg Prod.fst (h.kinds r)

theorem Onward.dataType (h : Onward s t) (r : Ref) :
    (t.datapoints r).dataType = (s.datapoints r).dataType :=
  congrArg (fun k => k.2.1) (h.kinds r)

theorem Onward.hasListener (h : Onward s t) (r : Ref) :
    (t.datapoints r).hasListener = (s.datapoints r).hasListener :=
  congrArg (fun k => k.2.2) (h.kinds r)

theorem onward_of_eq (hm : t.mocked = s.mocked) (hf : t.fresh = s.fresh)
    (hd : t.datapoints = s.datapoints) (hl : t.log = s.log) : Onward s t :=
  ⟨hm, hf, fun r => by rw [hd], fun p => hl ▸ List.prefix_rfl⟩

theorem onward_record (s : Service) (d : Deed) : Onward s (s.record d) :=
  ⟨rfl, rfl, fun _ => rfl, fun p => ⟨_, (writtenTo_record p s d).symm⟩⟩

theorem onward_setValue (r : Ref) (value : Value) (s : Service) :
    Onward s ((setValue r value).exec s).2 := by
  obtain ⟨hdatapoints, hwritten⟩ := setValue_writes r value s
  refine ⟨(setValue_mocks r value s).1, setValue_fresh r value s, fun r' => ?_, fun p => ?_⟩
  · rw [hdatapoints]
    by_cases h : r' = r
    · subst h
      simp [DataPoint.kind]
    · rw [Function.update_of_ne h]
  · rw [hwritten]
    exact List.prefix_append _ _

theorem onward_setDatapoint (path : Path) (value : Value) (s : Service) :
    Onward s ((setDatapoint path value).exec s).2 := by
  have hwritten : ∀ p, writtenTo p s.log <+: writtenTo p ((setDatapoint path value).exec s).2.log := by
    intro p
    rw [writtenTo_setDatapoint]
    exact List.prefix_append _ _
  obtain ⟨_, _, _, h⟩ := setDatapoint_frame path value s
  rw [h] at hwritten ⊢
  exact ⟨rfl, rfl, fun _ => rfl, hwritten⟩

theorem onward_check (b : Behavior) (path : Path) (deltaTime : ℚ) (s : Service) :
    Onward s (checkTriggerOf b path deltaTime s).2 := by
  unfold checkTriggerOf
  dsimp only
  split
  · refine Onward.trans (t := { s.setTrigger b.trigger _ with pending := _ }) ?_ (onward_record _ _)
    exact onward_of_eq rfl rfl rfl rfl
  · exact onward_of_eq rfl rfl rfl rfl

theorem Loaded.onward (h : Loaded s) (ho : Onward s t) : Loaded t := by
  obtain ⟨hpaths, hrefs, hallocated, hpath, hlistener⟩ := h
  rw [← ho.mocked] at hpaths hrefs hallocated hpath hlistener
  refine ⟨hpaths, hrefs, fun e he => ?_, fun e he => ?_, fun e he => ?_⟩
  · rw [ho.fresh]
    exact hallocated e he
  · rw [ho.path]
    exact hpath e he
  · rw [ho.hasListener]
    exact hlistener e he

-- ---------------------------------------------------------------------------
-- Agreement
-- ---------------------------------------------------------------------------

def Service.Supports (s : Service) (e : Path × MockedDataPoint) : Prop :=
  (s.datapoints e.2.datapoint).dataType.any DataType.isSupported = true

instance Service.Supports.decidable : Decidable (s.Supports e) := inferInstanceAs (Decidable (_ = true))

theorem Service.Supports.isSome (h : s.Supports e) :
    (s.datapoints e.2.datapoint).dataType.isSome = true := by
  unfold Service.Supports at h
  cases hd : (s.datapoints e.2.datapoint).dataType with
  | none => simp [hd] at h
  | some dataType => rfl

/-- A mocked datapoint of a supported type has the value that was written
last for its path. -/
def Agrees (s : Service) : Prop :=
  ∀ e ∈ s.mocked, s.Supports e → (writtenTo e.1 s.log).getLast? = some (s.datapoints e.2.datapoint).value

instance Agrees.decidable : Decidable (Agrees s) := inferInstanceAs (Decidable (∀ e ∈ s.mocked, _ → _))

/-- If the service listens to the datapoint at `r`, it is the one of a mock or
has a path that no mock of a supported type has. -/
def Belongs (s : Service) (r : Ref) : Prop :=
  (s.datapoints r).hasListener = true →
    (∃ e ∈ s.mocked, e.2.datapoint = r) ∨ ∀ e ∈ s.mocked, s.Supports e → e.1 ≠ (s.datapoints r).path

def Tethered (s : Service) : Prop :=
  ∀ r, s.HasAction r → ∀ a, (s.heap.actions r).animator? = some a → a.done = false →
    Belongs s a.datapoint

theorem Onward.supports (h : Onward s t) (e : Path × MockedDataPoint) : t.Supports e ↔ s.Supports e := by
  unfold Service.Supports
  rw [h.dataType]

theorem Belongs.onward (h : Belongs s r) (ho : Onward s t) : Belongs t r := by
  intro hl
  rw [ho.hasListener] at hl
  simp only [ho.mocked, ho.path, ho.supports]
  exact h hl

theorem Loaded.belongs (he : element ∈ s.mocked) : Belongs s element.2.datapoint :=
  fun _ => .inl ⟨element, he, rfl⟩

theorem Loaded.eq_of_path (h : Loaded s) (he : e ∈ s.mocked) (he' : element ∈ s.mocked)
    (hp : e.1 = element.1) : e = element := List.inj_on_of_nodup_map h.paths he he' hp

theorem Agrees.setValue (h : Agrees s) (hl : Loaded s) (hb : Belongs s r) (value : Value) :
    Agrees ((setValue r value).exec s).2 := by
  have ho := onward_setValue r value s
  obtain ⟨hdatapoints, hwritten⟩ := setValue_writes r value s
  intro e he hsupports
  rw [ho.mocked] at he
  rw [ho.supports] at hsupports
  have hbefore := h e he hsupports
  rw [hwritten, hdatapoints]
  by_cases hr : e.2.datapoint = r
  · subst hr
    rw [Function.update_self]
    by_cases hv : (s.datapoints e.2.datapoint).value = value
    · simpa [hv] using hbefore
    · simp [hv, hl.hasListener e he, hl.path e he]
  · -- what is written for the path of another datapoint than `r`
    rw [Function.update_of_ne hr, if_neg, List.append_nil]
    · exact hbefore
    · rintro ⟨hlistener, -, hpath⟩
      rcases hb hlistener with ⟨e', he', rfl⟩ | hnone
      · rw [hl.path e' he'] at hpath
        exact hr (congrArg (·.2.datapoint) (hl.eq_of_path he he' hpath.symm))
      · exact hnone e he hsupports hpath.symm

theorem Agrees.onward (h : Agrees s) (ho : Onward s t) (hd : t.datapoints = s.datapoints)
    (hw : ∀ p, writtenTo p t.log = writtenTo p s.log) : Agrees t := by
  intro e he hsupports
  rw [ho.mocked] at he
  rw [hw, hd]
  exact h e he ((ho.supports e).mp hsupports)

theorem Tethered.onward (h : Tethered s) (ho : Onward s t) (ha : t.heap.actions = s.heap.actions) :
    Tethered t := by
  intro r hr a har hdone
  rw [ha] at har
  unfold Service.HasAction at hr
  rw [ho.mocked] at hr
  exact (h r hr a har hdone).onward ho

theorem Tethered.setAnimator (h : Tethered s) (action : Ref) (a : AnimationAction)
    (hb : Belongs s animator.datapoint) : Tethered (s.setAnimator action a animator) := by
  have ho : Onward s (s.setAnimator action a animator) := onward_of_eq rfl rfl rfl rfl
  intro r hr a' ha' hdone
  by_cases heq : r = action
  · subst heq
    simp only [Service.setAnimator, Service.setAction, Function.update_self, Action.animator?,
      Option.some.injEq] at ha'
    subst ha'
    exact hb.onward ho
  · simp only [Service.setAnimator, Service.setAction, Function.update_of_ne heq] at ha'
    exact (h r hr a' ha' hdone).onward ho

structure Steady (s : Service) : Prop where
  loaded : Loaded s
  agrees : Agrees s
  tethered : Tethered s

theorem Steady.onward (h : Steady s) (ho : Onward s t) (hd : t.datapoints = s.datapoints)
    (hw : ∀ p, writtenTo p t.log = writtenTo p s.log) (ha : t.heap.actions = s.heap.actions) : Steady t :=
  ⟨h.loaded.onward ho, h.agrees.onward ho hd hw, h.tethered.onward ho ha⟩

theorem Steady.setAnimator (h : Steady s) (action : Ref) (a : AnimationAction)
    (hb : Belongs s animator.datapoint) : Steady (s.setAnimator action a animator) := by
  have ho : Onward s (s.setAnimator action a animator) := onward_of_eq rfl rfl rfl rfl
  exact ⟨h.loaded.onward ho, h.agrees.onward ho rfl fun _ => rfl, h.tethered.setAnimator action a hb⟩

theorem Steady.setValue (h : Steady s) (hb : Belongs s r) (value : Value) :
    Steady ((setValue r value).exec s).2 := by
  have ho := onward_setValue r value s
  refine ⟨h.loaded.onward ho, h.agrees.setValue h.loaded hb value, h.tethered.onward ho ?_⟩
  exact congrArg Heap.actions (setValue_heap r value s)

def KeptFrom (s t : Service) : Prop := Onward s t ∧ Steady t

theorem carried_steady (hb : Belongs s r) (action : Ref) : Carried (KeptFrom s) r action where
  require _ _ h := ⟨h.1.trans (onward_of_eq rfl rfl rfl rfl),
    h.2.onward (onward_of_eq rfl rfl rfl rfl) rfl (fun _ => rfl) rfl⟩
  animator _ a _ h hr _ := ⟨h.1.trans (onward_of_eq rfl rfl rfl rfl),
    h.2.setAnimator action a (hr ▸ hb.onward h.1)⟩
  setValue t value h := ⟨h.1.trans (onward_setValue r value t), h.2.setValue (hb.onward h.1) value⟩

theorem prepared_steady : Prepared (KeptFrom s) where
  requireAll _ _ h := ⟨h.1.trans (onward_of_eq rfl rfl rfl rfl),
    h.2.onward (onward_of_eq rfl rfl rfl rfl) rfl (fun _ => rfl) rfl⟩
  check t b path deltaTime h := by
    have ho := onward_check b path deltaTime t
    refine ⟨h.1.trans ho, h.2.onward ho ?_ (fun p => ?_) (check_actions b path deltaTime t)⟩
    · unfold checkTriggerOf
      dsimp only
      split <;> rfl
    · unfold checkTriggerOf
      dsimp only
      split
      · exact writtenTo_record_none p _ _ rfl
      · rfl

theorem Steady.visit (h : Steady s) (he : element ∈ s.mocked) (script : Script) (b : Behavior)
    (deltaTime : ℚ) :
    KeptFrom s ((visitBehavior script element.1 element.2.datapoint deltaTime b).exec s).2 := by
  refine visit_keeps script _ _ deltaTime b prepared_steady (fun t ht => ?_)
    (carried_steady (Loaded.belongs he) b.action) ⟨.refl s, h⟩
  have ho := onward_record t (.executed element.1 b)
  exact ⟨ht.1.trans ho, ht.2.onward ho rfl (fun p => writtenTo_record_none p t _ rfl) rfl⟩

theorem Steady.play (h : Steady s) (hr : s.HasAction b.action) (script : Script) (deltaTime : ℚ) :
    KeptFrom s ((animateBehavior script deltaTime b).exec s).2 := by
  refine play_keeps script deltaTime b (fun a animator ha hsome hdone => ?_) ⟨.refl s, h⟩
  have hanimator : (s.heap.actions b.action).animator? = some animator := by
    simpa [ha, Action.animator?] using hsome
  have hb : Belongs s animator.datapoint := h.tethered _ hr animator hanimator hdone
  have ho : Onward s (s.setAnimator b.action a (animator.tick script.interp1d deltaTime)) :=
    onward_of_eq rfl rfl rfl rfl
  have hsteady : Steady (s.setAnimator b.action a (animator.tick script.interp1d deltaTime)) :=
    h.setAnimator b.action a hb
  exact ⟨ho.trans (onward_setValue _ _ _), hsteady.setValue (hb.onward ho) _⟩

-- ---------------------------------------------------------------------------
-- Loads
-- ---------------------------------------------------------------------------

structure Unwritten (s t : Service) : Prop where
  fresh : s.fresh ≤ t.fresh
  silent : ∀ r, s.fresh ≤ r → r < t.fresh → (t.datapoints r).hasListener = false
  written : ∀ p, writtenTo p t.log = writtenTo p s.log
  registered : t.registered = s.registered

theorem Unwritten.allocate (h : Unwritten s t) (d : DataPoint) (hd : d.hasListener = false) :
    Unwritten s (t.allocate d) := by
  refine ⟨Nat.le_succ_of_le h.fresh, fun r hr hlt => ?_, h.written, h.registered⟩
  by_cases heq : r = t.fresh
  · simp [heq, Service.allocate, hd]
  · have hlt : r < t.fresh := Nat.lt_of_le_of_ne (Nat.le_of_lt_succ hlt) heq
    simp only [Service.allocate, Function.update_of_ne heq]
    exact h.silent r hr hlt

theorem Unwritten.setValue (h : Unwritten s t) (hr : s.fresh ≤ r) (hlt : r < t.fresh) (value : Value) :
    Unwritten s ((setValue r value).exec t).2 := by
  have ho := onward_setValue r value t
  refine ⟨ho.fresh.symm ▸ h.fresh, fun r' hr' hlt' => ?_, fun p => ?_, ?_⟩
  · rw [ho.hasListener]
    exact h.silent r' hr' (ho.fresh ▸ hlt')
  · rw [(setValue_writes r value t).2 p, h.silent r hr hlt, if_neg (fun hno => absurd hno.1 (by decide)),
      List.append_nil]
    exact h.written p
  · obtain ⟨_, _, _, _, heq⟩ := setValue_frame r value t
    rw [heq]
    exact h.registered

theorem loadable_unwritten (s : Service) : Loadable s.fresh (Unwritten s) where
  fresh _ h := h.fresh
  requireAll _ _ h := ⟨h.fresh, h.silent, h.written, h.registered⟩
  allocate _ d hd h := h.allocate d hd
  carried r _ hr :=
    { require := fun _ _ h => ⟨⟨h.1.fresh, h.1.silent, h.1.written, h.1.registered⟩, h.2⟩
      animator := fun _ _ _ h _ _ => ⟨⟨h.1.fresh, h.1.silent, h.1.written, h.1.registered⟩, h.2⟩
      setValue := fun t value h =>
        ⟨h.1.setValue hr h.2 value, (setValue_fresh r value t).symm ▸ h.2⟩ }

theorem load_unwritten (script : Script) (s : Service) : Unwritten s ((load script).exec s).2 := by
  rw [exec_load]
  have hrun : Unwritten s (runMockPy script s) :=
    ⟨Nat.le_refl _, fun r hr hlt => absurd hlt (Nat.not_lt_of_le hr), fun _ => rfl, rfl⟩
  exact loadRegistry_keeps (loadable_unwritten s) (runMockPy script s) hrun hrun

theorem writtenTo_reload (h : (reload script).exec s = (result, t)) (p : Path) :
    writtenTo p t.log = writtenTo p s.log := by
  rw [log_of_reload h]
  exact (load_unwritten script s).written p

theorem registered_of_raise (h : (reload script).exec s = (none, t)) : t.registered = s.registered := by
  have hload := (load_unwritten script s).registered
  rwa [load_of_raise h] at hload

section
variable (hexec : (reload script).exec s = (some (), t))
include hexec

theorem registry_of_reload : t.registry.mocked = (runMockPy script s).registry.mocked := by
  obtain ⟨u, made, others, hload, rfl⟩ := reload_some hexec
  exact hload.touches.registry.mocked

theorem element_of_reload (hd : d ∈ (runMockPy script s).registry.mocked) :
    ∃ e ∈ t.mocked, e.1 = d.path ∧ (t.datapoints e.2.datapoint).dataType.isSome = true ∧
      (t.datapoints e.2.datapoint).value = d.initialValue := by
  obtain ⟨u, made, others, hload, rfl⟩ := reload_some hexec
  rw [← hload.touches.registry.mocked] at hd
  have hknown := hload.known d hd
  rw [← hload.registrations] at hd
  obtain ⟨x, hx, rfl⟩ := List.mem_map.mp hd
  have he : (x.1.path, ⟨x.2, true, loadedBehaviors script u.registry x.1⟩) ∈
      loadedMocks script u.registry made others :=
    List.mem_append_left _ (List.mem_map.mpr ⟨x, hx, rfl⟩)
  refine ⟨_, he, rfl, ?_, ?_⟩
  · simp only [adopt, listenTo_eq, hload.datapoints x hx]
    split <;> exact hknown
  · simp only [adopt, listenTo_eq, hload.datapoints x hx]
    split <;> rfl

theorem registration_of_reload (he : e ∈ t.mocked) (hs : t.Supports e) :
    ∃ d ∈ (runMockPy script s).registry.mocked, d.path = e.1 ∧
      (script.dataType d.path).any DataType.isSupported = true ∧
      (t.datapoints e.2.datapoint).value = d.initialValue := by
  obtain ⟨u, made, others, hload, rfl⟩ := reload_some hexec
  simp only [adopt, loadedMocks, List.mem_append, List.mem_map] at he
  rcases he with ⟨x, hx, rfl⟩ | ⟨x, hx, rfl⟩
  · refine ⟨x.1, ?_, rfl, ?_, ?_⟩
    · rw [← hload.touches.registry.mocked, ← hload.registrations]
      exact List.mem_map_of_mem hx
    · simp only [Service.Supports, adopt, listenTo_eq, hload.datapoints x hx] at hs
      split at hs <;> exact hs
    · simp only [adopt, listenTo_eq, hload.datapoints x hx]
      split <;> rfl
  · simp only [Service.Supports, adopt, listenTo_eq, hload.requiredDatapoints x hx] at hs
    split at hs <;> cases hs

theorem dataType_of_reload (hr : r < s.fresh) :
    r < t.fresh ∧ (t.datapoints r).dataType = (s.datapoints r).dataType := by
  obtain ⟨u, made, others, hload, rfl⟩ := reload_some hexec
  refine ⟨Nat.lt_of_lt_of_le hr hload.touches.fresh, ?_⟩
  have hkind := congrArg (fun k => k.2.1) (hload.touches.kinds r hr)
  simp only [adopt, listenTo_eq]
  split <;> exact hkind

end

end KuksaServices.Mock
