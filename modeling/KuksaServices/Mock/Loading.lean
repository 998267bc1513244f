import KuksaServices.Mock.Footprint

/-!
# What a load gives

A load that returns has made a datapoint for every registration and for every
other required path, all of them new objects, and has handed over the
registered behaviors (`Load`). The forced executions touch no trigger, no
event, no older datapoint and no value at the broker; what they leave behind
are new animators and more required paths.
-/

namespace KuksaServices.Mock

open Atomic (Raise Frame)

variable {script : Script} {s t u : Service} {n : Ref}

-- ---------------------------------------------------------------------------
-- The footprint of a load
-- ---------------------------------------------------------------------------

/-- Every action, and the datapoints from `n` on. -/
def Footprint.loading (n : Ref) : Footprint := ⟨"", ∅, Set.univ, {r | n ≤ r}, ∅, ∅⟩

theorem touches_allocate (F : Footprint) (hd : d.hasListener = false) : Touches F s (s.allocate d) := by
  have hupdate : ∀ r, r < s.fresh → (s.allocate d).datapoints r = s.datapoints r := by
    intro r hr
    exact Function.update_of_ne (Nat.ne_of_lt hr) _ _
  refine { Touches.refl F s with
    datapoints := fun r _ hr => hupdate r hr
    kinds := fun r hr => ?_
    animators := fun _ => .inl rfl
    fresh := Nat.le_succ _
    silent := fun r hr hr' => ?_ }
  · simp [hupdate r hr]
  · have heq : r = s.fresh := Nat.le_antisymm (Nat.le_of_lt_succ hr') hr
    simp [heq, Service.allocate, hd]

def loadingFrame (n : Ref) : Frame Service :=
  (Footprint.loading n).frame (n ≤ ·.fresh) fun h ht => Nat.le_trans h ht.fresh

theorem loading_exec {p : Py α} (hp : Raise.Within (loadingFrame n) p) (hn : n ≤ s.fresh)
    (h : p.exec s = (a, t)) : Touches (.loading n) s t := by
  have htouches := hp s hn
  rw [h] at htouches
  exact htouches

theorem within_forceBehavior (d : Registration) (dataType : DataType) (b : Behavior) :
    Raise.Within (loadingFrame n) (forceBehavior script d dataType b) := by
  refine .bind (fun s _ => touches_evaluate script b _) fun _ => ?_
  refine .bind (.peek _ _) fun trigger => fun s hs => ?_
  -- the behavior is executed on the datapoint made here, which has no listener
  have howns : Owns (Footprint.loading n) s.fresh
      (s.allocate ⟨d.path, some dataType, d.initialValue, false⟩) :=
    ⟨hs, Nat.lt_succ_self _, fun h => by simp [Service.allocate] at h⟩
  have haction : Touches _ _ ((executeAction script b trigger s.fresh d.path).exec _).2 :=
    touches_executeAction howns trivial trigger d.path
  exact (touches_allocate _ rfl).trans haction

theorem within_loadBehaviors (d : Registration) : Raise.Within (loadingFrame n) (loadBehaviors script d) :=
  loadBehaviors_within within_forceBehavior d

theorem within_loadMockedDatapoints (ds : List Registration) :
    Raise.Within (loadingFrame n) (loadMockedDatapoints script ds) :=
  loadMockedDatapoints_within (fun _ _ hd _ => touches_allocate _ hd) ds

theorem within_loadAllBehaviors (l : List (Registration × (Path × MockedDataPoint))) :
    Raise.Within (loadingFrame n) (loadAllBehaviors script l) :=
  loadAllBehaviors_within within_forceBehavior l

theorem within_loadRequired (known paths : List Path) :
    Raise.Within (loadingFrame n) (loadRequired known paths) :=
  loadRequired_within (fun _ _ hd _ => touches_allocate _ hd) known paths

-- ---------------------------------------------------------------------------
-- The new mocks
-- ---------------------------------------------------------------------------

def Registration.datapoint (script : Script) (d : Registration) : DataPoint :=
  ⟨d.path, script.dataType d.path, d.initialValue, false⟩

/-- An unsupported type has no behaviors. -/
def loadedBehaviors (script : Script) (registry : Registry) (d : Registration) : List Behavior :=
  if (script.dataType d.path).any DataType.isSupported then registry.behaviors d else []

theorem loadMockedDatapoints_some
    (h : (loadMockedDatapoints script ds).exec s = (some mocked, t)) :
    ∃ made : List (Registration × Ref), made.map Prod.fst = ds ∧
      made.map Prod.snd = List.range' s.fresh ds.length ∧ t.fresh = s.fresh + ds.length ∧
      mocked = made.map (fun x => (x.1.path, ⟨x.2, true, []⟩)) ∧ t.heap = s.heap ∧
      (∀ d ∈ ds, (script.dataType d.path).isSome = true) ∧
      ∀ x ∈ made, t.datapoints x.2 = x.1.datapoint script := by
  induction ds generalizing s mocked with
  | nil =>
    simp only [loadMockedDatapoints, Raise.exec_pure, Prod.mk.injEq, Option.some.injEq] at h
    obtain ⟨rfl, rfl⟩ := h
    exact ⟨[], by simp⟩
  | cons d ds ih =>
    simp only [loadMockedDatapoints, getMetadata, newDatapoint, Raise.bind_some, Raise.exec_attempt,
      Raise.exec_atomic, Raise.exec_pure, Prod.mk.injEq, Option.some.injEq] at h
    obtain ⟨dataType, _, ⟨htype, rfl⟩, r, s', ⟨rfl, rfl⟩, rest, _, hrest, rfl, rfl⟩ := h
    obtain ⟨made, hds, hrefs, hfresh, rfl, hheap, hknown, hcontents⟩ := ih hrest
    refine ⟨(d, s.fresh) :: made, ?_, ?_, ?_, ?_, hheap, ?_, ?_⟩
    · simp [hds]
    · simp [hrefs, Service.allocate, List.range'_succ]
    · simp [hfresh, Service.allocate, Nat.add_assoc, Nat.add_comm 1]
    · simp
    · simp only [List.mem_cons]
      rintro d' (rfl | hd')
      · simp [htype]
      · exact hknown d' hd'
    · intro x hx
      rcases List.mem_cons.mp hx with rfl | hx
      · have htouches := loading_exec (n := s.fresh + 1) (within_loadMockedDatapoints ds)
          (Nat.le_refl _) hrest
        rw [htouches.datapoints s.fresh (Nat.not_succ_le_self _) (Nat.lt_succ_self _)]
        simp [Service.allocate, Registration.datapoint, htype]
      · exact hcontents x hx

theorem loadBehaviors_some (h : (loadBehaviors script d).exec s = (some behaviors, t)) :
    behaviors = loadedBehaviors script s.registry d := by
  simp only [loadBehaviors, getMetadata, Raise.bind_some, Raise.exec_attempt, Prod.mk.injEq] at h
  obtain ⟨dataType, _, ⟨htype, rfl⟩, h⟩ := h
  cases hs : dataType.isSupported with
  | false =>
    simp only [hs, Bool.false_eq_true, if_false, Raise.exec_pure, Prod.mk.injEq,
      Option.some.injEq] at h
    simp [loadedBehaviors, htype, hs, ← h.1]
  | true =>
    simp only [hs, if_true, Raise.bind_some, Raise.exec_peek, Raise.exec_pure, Prod.mk.injEq,
      Option.some.injEq] at h
    obtain ⟨_, _, ⟨rfl, rfl⟩, _, _, _, rfl, rfl⟩ := h
    simp [loadedBehaviors, htype, hs]

theorem loadedBehaviors_congr {r r' : Registry} (h : r'.lists = r.lists) (d : Registration) :
    loadedBehaviors script r' d = loadedBehaviors script r d := by
  simp [loadedBehaviors, Registry.behaviors, h]

theorem loadAllBehaviors_some (h : (loadAllBehaviors script l).exec s = (some mocked, t)) :
    mocked = l.map fun x =>
      (x.2.1, { x.2.2 with behaviors := loadedBehaviors script s.registry x.1 }) := by
  induction l generalizing s mocked with
  | nil =>
    simp only [loadAllBehaviors, Raise.exec_pure, Prod.mk.injEq, Option.some.injEq] at h
    simp [← h.1]
  | cons x l ih =>
    obtain ⟨d, path, m⟩ := x
    simp only [loadAllBehaviors, Raise.bind_some, Raise.exec_pure, Prod.mk.injEq,
      Option.some.injEq] at h
    obtain ⟨behaviors, u, hb, rest, _, hrest, rfl, rfl⟩ := h
    have htouches := loading_exec (n := 0) (within_loadBehaviors d) (Nat.zero_le _) hb
    simp [loadBehaviors_some hb, ih hrest, loadedBehaviors_congr htouches.registry.lists]

theorem loadRequired_some (h : (loadRequired known paths).exec s = (some mocked, t)) :
    ∃ others : List (Path × Ref), others.map Prod.fst = paths.filter (· ∉ known) ∧
      others.map Prod.snd = List.range' s.fresh others.length ∧
      t.fresh = s.fresh + others.length ∧
      mocked = others.map (fun x => (x.1, ⟨x.2, false, []⟩)) ∧ t.registry = s.registry ∧
      t.heap = s.heap ∧
      ∀ x ∈ others, t.datapoints x.2 = ⟨x.1, none, .none, false⟩ := by
  induction paths generalizing s mocked with
  | nil =>
    simp only [loadRequired, Raise.exec_pure, Prod.mk.injEq, Option.some.injEq] at h
    obtain ⟨rfl, rfl⟩ := h
    exact ⟨[], by simp⟩
  | cons path paths ih =>
    unfold loadRequired at h
    split at h
    · rename_i hknown
      simpa [hknown] using ih h
    · rename_i hknown
      simp only [newDatapoint, Raise.bind_some, Raise.exec_atomic, Raise.exec_pure, Prod.mk.injEq,
        Option.some.injEq] at h
      obtain ⟨r, s', ⟨rfl, rfl⟩, rest, _, hrest, rfl, rfl⟩ := h
      obtain ⟨others, hpaths, hrefs, hfresh, rfl, hregistry, hheap, hcontents⟩ := ih hrest
      refine ⟨(path, s.fresh) :: others, ?_, ?_, ?_, ?_, hregistry, hheap, ?_⟩
      · simp [hpaths, hknown]
      · simp [hrefs, Service.allocate, List.range'_succ]
      · simp [hfresh, Service.allocate, Nat.add_assoc, Nat.add_comm 1]
      · simp
      · intro x hx
        rcases List.mem_cons.mp hx with rfl | hx
        · have htouches := loading_exec (n := s.fresh + 1) (within_loadRequired known paths)
            (Nat.le_refl _) hrest
          rw [htouches.datapoints s.fresh (Nat.not_succ_le_self _) (Nat.lt_succ_self _)]
          simp [Service.allocate]
        · exact hcontents x hx

-- ---------------------------------------------------------------------------
-- A load as a whole
-- ---------------------------------------------------------------------------

def loadedMocks (script : Script) (registry : Registry) (made : List (Registration × Ref))
    (others : List (Path × Ref)) : List (Path × MockedDataPoint) :=
  made.map (fun x => (x.1.path, ⟨x.2, true, loadedBehaviors script registry x.1⟩)) ++
    others.map (fun x => (x.1, ⟨x.2, false, []⟩))

structure Load (script : Script) (s : Service) (made : List (Registration × Ref))
    (others : List (Path × Ref)) (t : Service) : Prop where
  touches : Touches (.loading s.fresh) (runMockPy script s) t
  registrations : made.map Prod.fst = t.registry.mocked
  known : ∀ d ∈ t.registry.mocked, (script.dataType d.path).isSome = true
  required : others.map Prod.fst = t.registry.required.filter (· ∉ t.registry.paths)
  refs : (made.map Prod.snd ++ others.map Prod.snd).Nodup
  allocated : ∀ r ∈ made.map Prod.snd ++ others.map Prod.snd, s.fresh ≤ r ∧ r < t.fresh
  datapoints : ∀ x ∈ made, t.datapoints x.2 = x.1.datapoint script
  animators : ∀ r, t.heap.actions r = s.heap.actions r ∨ ∃ a, (t.heap.actions r).animator? = some a ∧
    a.datapoint ∉ made.map Prod.snd ++ others.map Prod.snd ∧ a.datapoint < t.fresh ∧
    (t.datapoints a.datapoint).hasListener = false
  requiredDatapoints : ∀ x ∈ others, t.datapoints x.2 = ⟨x.1, none, .none, false⟩

theorem load_some (h : (load script).exec s = (some mocked, t)) :
    ∃ made others, mocked = loadedMocks script t.registry made others ∧
      Load script s made others t := by
  simp only [load, Raise.bind_some, Raise.exec_atomic, Raise.exec_peek, Raise.exec_pure,
    Prod.mk.injEq, Option.some.injEq] at h
  obtain ⟨_, s₁, ⟨-, rfl⟩, ds, _, ⟨rfl, rfl⟩, l, s₂, hl, l', s₃, hl', required, _, ⟨rfl, rfl⟩, rest,
    s₄, hrest, rfl, rfl⟩ := h
  obtain ⟨made, hds, hrefs, hf₂, rfl, hheap, hknown, hmade⟩ := loadMockedDatapoints_some hl
  obtain ⟨others, hpaths, hrefs', hf₄, rfl, hregistry, hheap', hothers⟩ := loadRequired_some hrest
  have h₂ := loading_exec (within_loadMockedDatapoints _) (Nat.le_refl (runMockPy script s).fresh) hl
  have h₃ := loading_exec (within_loadAllBehaviors _) h₂.fresh hl'
  have h₄ := loading_exec (within_loadRequired _ _) (Nat.le_trans h₂.fresh h₃.fresh) hrest
  have hkept₃ := loading_exec (within_loadAllBehaviors _) (Nat.le_refl s₂.fresh) hl'
  have hkept₄ := loading_exec (within_loadRequired _ _) (Nat.le_refl s₃.fresh) hrest
  have hmocked : (runMockPy script s).registry.mocked = s₄.registry.mocked :=
    ((h₂.trans h₃).trans h₄).registry.mocked.symm
  have hlists : s₂.registry.lists = s₄.registry.lists := (h₃.trans h₄).registry.lists.symm
  have hbelow : ∀ x ∈ made, s.fresh ≤ x.2 ∧ x.2 < s₂.fresh := by
    intro x hx
    have hmem := hrefs ▸ List.mem_map_of_mem (f := Prod.snd) hx
    simp only [List.mem_range'_1] at hmem
    exact ⟨hmem.1, hf₂ ▸ hmem.2⟩
  have habove : ∀ x ∈ others, s₃.fresh ≤ x.2 ∧ x.2 < s₄.fresh := by
    intro x hx
    have hmem := hrefs' ▸ List.mem_map_of_mem (f := Prod.snd) hx
    simp only [List.mem_range'_1] at hmem
    exact ⟨hmem.1, hf₄ ▸ hmem.2⟩
  refine ⟨made, others, ?_, (h₂.trans h₃).trans h₄, hds.trans hmocked, hmocked ▸ hknown, ?_,
    ?_, ?_, ?_, fun r => ?_, hothers⟩
  · rw [loadAllBehaviors_some hl', ← hds, List.zip_map', List.map_map]
    simp [loadedMocks, Function.comp_def, loadedBehaviors_congr hlists]
  · simp [hpaths, hregistry, Registry.paths, hmocked]
  · refine List.nodup_append.mpr ⟨?_, ?_, ?_⟩
    · rw [hrefs]
      exact List.nodup_range'
    · rw [hrefs']
      exact List.nodup_range'
    · simp only [List.mem_map]
      rintro _ ⟨x, hx, rfl⟩ _ ⟨y, hy, rfl⟩ heq
      have hlt := Nat.lt_of_lt_of_le (hbelow x hx).2 h₃.fresh
      exact Nat.not_le_of_lt (heq ▸ hlt) (habove y hy).1
  · simp only [List.mem_append, List.mem_map]
    rintro _ (⟨x, hx, rfl⟩ | ⟨x, hx, rfl⟩)
    · exact ⟨(hbelow x hx).1, Nat.lt_of_lt_of_le (hbelow x hx).2 (h₃.trans h₄).fresh⟩
    · exact ⟨Nat.le_trans (h₂.trans h₃).fresh (habove x hx).1, (habove x hx).2⟩
  · intro x hx
    have hlt := (hbelow x hx).2
    have hlt' := Nat.lt_of_lt_of_le hlt h₃.fresh
    rw [hkept₄.datapoints x.2 (Nat.not_le_of_lt hlt') hlt',
      hkept₃.datapoints x.2 (Nat.not_le_of_lt hlt) hlt, hmade x hx]
  · -- the forced executions come between the two kinds of datapoints
    rw [hheap']
    rcases hkept₃.animators r with heq | ⟨a, ha, hge, hlt⟩
    · exact .inl (heq.trans (congrArg (fun h => h.actions r) hheap))
    · refine .inr ⟨a, ha, ?_, Nat.lt_of_lt_of_le hlt h₄.fresh, ?_⟩
      · simp only [List.mem_append, List.mem_map]
        rintro (⟨x, hx, heq⟩ | ⟨x, hx, heq⟩)
        · exact Nat.not_lt_of_le hge (heq ▸ (hbelow x hx).2)
        · exact Nat.not_lt_of_le (habove x hx).1 (heq ▸ hlt)
      · rw [hkept₄.hasListener hlt]
        exact hkept₃.silent a.datapoint hge hlt

-- ---------------------------------------------------------------------------
-- Distinct paths
-- ---------------------------------------------------------------------------

theorem removeFrom_sublist (p : α → Bool) (n i : Nat) (l : List α) :
    (removeFrom p n i l).Sublist l := by
  induction n generalizing i l with
  | zero => exact .refl l
  | succ n ih =>
    unfold removeFrom
    split
    · split
      · exact (ih _ _).trans List.eraseP_sublist
      · exact ih _ _
    · exact .refl l

theorem Registry.Distinct.edit {r : Registry} (hd : r.Distinct) (h : Heap) (e : Edit) :
    (e.apply h r).Distinct := by
  cases e with
  | mockDatapoint path initialValue behaviors =>
    simp only [Edit.apply, Registry.mockDatapoint]
    split
    · exact hd
    · rename_i hpath
      refine ⟨?_, hd.required⟩
      simp only [Registry.paths, List.map_append, List.map_cons, List.map_nil]
      refine List.nodup_append.mpr ⟨hd.paths, by simp, ?_⟩
      simp only [List.mem_singleton]
      rintro a ha b rfl rfl
      exact hpath ha
  | addBehavior behavior path =>
    simp only [Edit.apply, Registry.addBehavior]
    cases r.mocked.find? (·.path == path) with
    | none => exact hd
    | some d => exact ⟨hd.paths, hd.required⟩
  | deleteBehaviorOfMockedDatapoint behavior path =>
    simp only [Edit.apply, Registry.deleteBehaviorOfMockedDatapoint]
    generalize r.mocked = ds
    induction ds generalizing r with
    | nil => exact hd
    | cons d ds ih =>
      refine ih ?_
      dsimp only
      split
      · exact ⟨hd.paths, hd.required⟩
      · exact hd
  | deleteMockedDatapoint path =>
    exact ⟨hd.paths.sublist ((removeFrom_sublist _ _ _ _).map _), hd.required⟩
  | deleteAllMockedDatapoints => exact ⟨List.nodup_nil, hd.required⟩
  | createEventTrigger path =>
    cases path with
    | none => exact hd
    | some path => exact hd.require path

theorem Registry.Distinct.edits {r : Registry} (hd : r.Distinct) (h : Heap) (es : List Edit) :
    (es.foldl (Edit.apply h) r).Distinct := by
  induction es generalizing r with
  | nil => exact hd
  | cons e es ih => exact ih (hd.edit h e)

-- ---------------------------------------------------------------------------
-- The mocks of a service
-- ---------------------------------------------------------------------------

/-- Every path has a datapoint object of its own, which the service listens
to. -/
structure Loaded (s : Service) : Prop where
  paths : (s.mocked.map Prod.fst).Nodup
  refs : (s.mocked.map (·.2.datapoint)).Nodup
  allocated : ∀ e ∈ s.mocked, e.2.datapoint < s.fresh
  path : ∀ e ∈ s.mocked, (s.datapoints e.2.datapoint).path = e.1
  hasListener : ∀ e ∈ s.mocked, (s.datapoints e.2.datapoint).hasListener = true

theorem Loaded.touched (h : Loaded s) (ht : Touches F s t) : Loaded t := by
  obtain ⟨hpaths, hrefs, hallocated, hpath, hlistener⟩ := h
  rw [← ht.mocked] at hpaths hrefs hallocated hpath hlistener
  refine ⟨hpaths, hrefs, fun e he => ?_, fun e he => ?_, fun e he => ?_⟩
  · exact Nat.lt_of_lt_of_le (hallocated e he) ht.fresh
  · rw [ht.path (hallocated e he)]
    exact hpath e he
  · rw [ht.hasListener (hallocated e he)]
    exact hlistener e he

theorem Loaded.split (h : Loaded s) (hmem : (p, m) ∈ s.mocked) :
    ∃ before behind, s.mocked = before ++ (p, m) :: behind ∧
      (∀ e ∈ before, e ∈ s.mocked ∧ e.1 ≠ p) ∧ (∀ e ∈ behind, e ∈ s.mocked ∧ e.1 ≠ p) := by
  obtain ⟨before, behind, hsplit⟩ := List.append_of_mem hmem
  have hnodup := h.paths
  rw [hsplit, List.map_append, List.map_cons, List.nodup_append, List.nodup_cons] at hnodup
  obtain ⟨-, ⟨hbehind, -⟩, hbefore⟩ := hnodup
  refine ⟨before, behind, hsplit, fun e he => ⟨by simp [hsplit, he], ?_⟩, fun e he => ⟨by simp [hsplit, he], ?_⟩⟩
  · exact hbefore _ (List.mem_map_of_mem he) _ List.mem_cons_self
  · intro heq
    refine hbehind (List.mem_map.mpr ⟨e, he, heq⟩)

theorem listenTo_eq (s : Service) (mocked : List (Path × MockedDataPoint)) (r : Ref) :
    listenTo s mocked r = if r ∈ mocked.map (·.2.datapoint)
      then { s.datapoints r with hasListener := true } else s.datapoints r := by
  unfold listenTo
  generalize s.datapoints = datapoints
  induction mocked generalizing datapoints with
  | nil => simp
  | cons m mocked ih =>
    rw [List.foldl_cons, ih]
    by_cases h : r = m.2.datapoint
    · subst h
      simp
    · simp only [List.map_cons, List.mem_cons, h, false_or]
      rw [Function.update_of_ne h]

theorem Load.datapoint (h : Load script s made others t)
    (he : e ∈ loadedMocks script registry made others) :
    (t.datapoints e.2.datapoint).path = e.1 ∧ s.fresh ≤ e.2.datapoint ∧ e.2.datapoint < t.fresh := by
  simp only [loadedMocks, List.mem_append, List.mem_map] at he
  rcases he with ⟨x, hx, rfl⟩ | ⟨x, hx, rfl⟩
  · refine ⟨?_, h.allocated _ (List.mem_append_left _ (List.mem_map_of_mem hx))⟩
    simp [h.datapoints x hx, Registration.datapoint]
  · refine ⟨?_, h.allocated _ (List.mem_append_right _ (List.mem_map_of_mem hx))⟩
    simp [h.requiredDatapoints x hx]

theorem Load.distinct (h : Load script s made others t) (hd : s.registry.Distinct) :
    t.registry.Distinct := h.touches.registry.distinct (hd.edits _ _)

theorem Load.loaded (h : Load script s made others t) (hd : s.registry.Distinct) :
    Loaded (adopt (loadedMocks script t.registry made others) t) := by
  have hdistinct := h.distinct hd
  refine ⟨?_, ?_, fun e he => ?_, fun e he => ?_, fun e he => ?_⟩
  · have hpaths : made.map (fun x => x.1.path) = t.registry.paths := by
      rw [Registry.paths, ← h.registrations, List.map_map]
      rfl
    simp only [adopt, loadedMocks, List.map_append, List.map_map, Function.comp_def, hpaths,
      h.required]
    refine List.nodup_append.mpr ⟨hdistinct.paths, hdistinct.required.filter _, ?_⟩
    rintro p hp q hq rfl
    simp only [List.mem_filter, decide_eq_true_eq] at hq
    exact hq.2 hp
  · simpa [adopt, loadedMocks, Function.comp_def] using h.refs
  · exact (h.datapoint he).2.2
  · simp only [adopt, listenTo_eq]
    split <;> exact (h.datapoint he).1
  · have hmem : e.2.datapoint ∈ (loadedMocks script t.registry made others).map (·.2.datapoint) :=
      List.mem_map_of_mem he
    simp [adopt, listenTo_eq, hmem]

theorem reload_some (h : (reload script).exec s = (some (), t)) :
    ∃ u made others, Load script s made others u ∧
      t = adopt (loadedMocks script u.registry made others) u := by
  simp only [reload, Raise.bind_some, Raise.exec_atomic, Prod.mk.injEq, true_and] at h
  obtain ⟨mocked, u, hexec, rfl⟩ := h
  obtain ⟨made, others, rfl, hload⟩ := load_some hexec
  exact ⟨u, made, others, hload, rfl⟩

theorem distinct_of_reload (hd : s.registry.Distinct) (h : (reload script).exec s = (some (), t)) :
    t.registry.Distinct := by
  obtain ⟨u, made, others, hload, rfl⟩ := reload_some h
  exact hload.distinct hd

end KuksaServices.Mock
