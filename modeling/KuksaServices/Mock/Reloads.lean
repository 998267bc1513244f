import KuksaServices.Mock.Turns

/-!
# Reloads without a change

A reload takes over what it loads, and a check compares just that with the
registry. The two agree unless a datapoint of an unsupported type has
behaviors: the loader leaves them out, so the next check finds a difference
and loads again, with a new subscription each time.
-/

namespace KuksaServices.Mock

open Atomic (Raise Along)

variable {script : Script} {J : Service → Prop} {s t : Service} {n : Ref}

-- ---------------------------------------------------------------------------
-- The comparison after a load
-- ---------------------------------------------------------------------------

structure Current (script : Script) (s : Service) : Prop where
  paths : samePaths s = true
  behaviors : ∀ d ∈ s.registry.mocked, ∃ m, s.mocked.lookup d.path = some m ∧
    m.behaviors = loadedBehaviors script s.registry d

/-- Only datapoints of a supported type have behaviors. -/
def Registry.Supported (script : Script) (r : Registry) : Prop :=
  ∀ d ∈ r.mocked, r.behaviors d ≠ [] → (script.dataType d.path).any DataType.isSupported = true

theorem Heap.sameBehaviors_self (h : Heap) (bs : List Behavior) : h.sameBehaviors bs bs = true := by
  induction bs with
  | nil => rfl
  | cons b bs ih =>
    have hsame : h.sameBehavior b b = true := ((h.alike_iff b b).mp (.refl h b)).1
    simp [Heap.sameBehaviors, hsame, ih]

theorem Heap.sameBehaviors_nil (h : Heap) (bs : List Behavior) :
    h.sameBehaviors bs [] = true ↔ bs = [] := by
  cases bs <;> simp [Heap.sameBehaviors]

theorem sameBehaviors_loaded (h : Heap) (registry : Registry) (d : Registration) :
    h.sameBehaviors (registry.behaviors d) (loadedBehaviors script registry d) = true ↔
      (registry.behaviors d ≠ [] → (script.dataType d.path).any DataType.isSupported = true) := by
  cases hs : (script.dataType d.path).any DataType.isSupported with
  | true => simp [loadedBehaviors, hs, h.sameBehaviors_self]
  | false => simp [loadedBehaviors, hs, h.sameBehaviors_nil]

theorem sameMocks_iff : sameMocks s = true ↔ ∀ d ∈ s.registry.mocked, ∃ m,
    s.mocked.lookup d.path = some m ∧ s.heap.sameBehaviors (s.registry.behaviors d) m.behaviors = true := by
  simp only [sameMocks, List.all_eq_true]
  refine forall₂_congr fun d _ => ?_
  cases s.mocked.lookup d.path with
  | none => simp
  | some m => simp

/-- A check that finds nothing changed. -/
theorem Current.unchanged_iff (h : Current script s) :
    isChanged s = false ↔ s.registry.Supported script := by
  have hchanged : isChanged s = false ↔ sameMocks s = true := by simp [isChanged, h.paths]
  rw [hchanged, sameMocks_iff]
  refine forall₂_congr fun d hd => ?_
  obtain ⟨m, hm, hb⟩ := h.behaviors d hd
  rw [← sameBehaviors_loaded s.heap s.registry d]
  simp [hm, hb]

theorem current_of_reload (hd : s.registry.Distinct) (h : (reload script).exec s = (some (), t)) :
    Current script t := by
  obtain ⟨u, made, others, hload, rfl⟩ := reload_some h
  have hloaded := hload.loaded hd
  have hpaths : made.map (fun x => x.1.path) = u.registry.paths := by
    rw [Registry.paths, ← hload.registrations, List.map_map]
    rfl
  have hkeys : (loadedMocks script u.registry made others).map Prod.fst =
      u.registry.paths ++ u.registry.required.filter (· ∉ u.registry.paths) := by
    rw [← hload.required, ← hpaths]
    simp [loadedMocks, Function.comp_def]
  refine ⟨?_, fun d hmem => ?_⟩
  · simp only [samePaths, adopt, hkeys, Bool.and_eq_true, List.all_eq_true, decide_eq_true_eq,
      List.mem_append, List.mem_filter]
    constructor
    · rintro p (hp | ⟨hp, -⟩)
      · exact .inl hp
      · exact .inr hp
    · rintro p (hp | hp)
      · exact .inl hp
      · by_cases hmem : p ∈ u.registry.paths
        · exact .inl hmem
        · exact .inr ⟨hp, hmem⟩
  · simp only [adopt, ← hload.registrations, List.mem_map] at hmem
    obtain ⟨x, hx, rfl⟩ := hmem
    have hentry : (x.1.path, ⟨x.2, true, loadedBehaviors script u.registry x.1⟩) ∈
        loadedMocks script u.registry made others :=
      List.mem_append_left _ (List.mem_map.mpr ⟨x, hx, rfl⟩)
    exact ⟨_, lookup_of_mem hloaded.paths hentry, rfl⟩

theorem Current.congr (h : Current script s) (hr : t.registry = s.registry)
    (hm : t.mocked = s.mocked) : Current script t := by
  obtain ⟨hpaths, hbehaviors⟩ := h
  refine ⟨?_, ?_⟩
  · unfold samePaths
    rw [hr, hm]
    exact hpaths
  · rw [hr, hm]
    exact hbehaviors

-- ---------------------------------------------------------------------------
-- What a load keeps
-- ---------------------------------------------------------------------------

/-- Kept by what a load does once `mock.py` was executed: its behaviors are
executed on datapoints that are allocated from `n` on. -/
structure Loadable (n : Ref) (J : Service → Prop) : Prop where
  fresh : ∀ s, J s → n ≤ s.fresh
  requireAll : ∀ s paths, J s → J { s with registry := s.registry.requireAll paths }
  allocate : ∀ s d, d.hasListener = false → J s → J (s.allocate d)
  carried : ∀ r action, n ≤ r → Carried (fun s => J s ∧ r < s.fresh) r action

theorem setValue_fresh (r : Ref) (value : Value) (s : Service) :
    ((setValue r value).exec s).2.fresh = s.fresh := by
  obtain ⟨_, _, _, _, h⟩ := setValue_frame r value s
  rw [h]

/-- The execution of an action allocates nothing. -/
theorem Carried.allocated (h : Carried J r action) : Carried (fun s => J s ∧ r < s.fresh) r action where
  require s path hs := ⟨h.require s path hs.1, hs.2⟩
  animator s a animator hs hr hdone := ⟨h.animator s a animator hs.1 hr hdone, hs.2⟩
  setValue s value hs := ⟨h.setValue s value hs.1, (setValue_fresh r value s).symm ▸ hs.2⟩

theorem OfMocks.loadable (hJ : OfMocks J) : Loadable 0 J where
  fresh s _ := Nat.zero_le s.fresh
  requireAll s _ hs := hJ s _ rfl rfl rfl hs
  allocate s _ _ hs := hJ s _ rfl rfl rfl hs
  carried _ _ _ := hJ.carried.allocated

theorem forceBehavior_keeps (hJ : Loadable n J) (d : Registration) (dataType : DataType) (b : Behavior) :
    Raise.Within (Keeping J) (forceBehavior script d dataType b) := by
  refine .bind (fun s hs _ => hJ.requireAll s _ hs) fun _ => ?_
  refine .bind (.peek _ _) fun trigger => fun s hs _ => ?_
  have hallocated : J (s.allocate ⟨d.path, some dataType, d.initialValue, false⟩) ∧
      s.fresh < (s.allocate ⟨d.path, some dataType, d.initialValue, false⟩).fresh :=
    ⟨hJ.allocate s _ rfl hs, Nat.lt_succ_self _⟩
  exact (executeAction_carried (hJ.carried s.fresh b.action (hJ.fresh s hs)) trigger d.path hallocated).1

theorem loadRegistry_keeps (hJ : Loadable n J) : Raise.Within (Keeping J) (loadRegistry script) :=
  loadRegistry_within (fun s d hd hs _ => hJ.allocate s d hd hs) (forceBehavior_keeps hJ)

theorem log_of_reload (h : (reload script).exec s = (result, t)) : t.log = ((load script).exec s).2.log := by
  obtain rfl := congrArg Prod.snd h
  simp only [reload, Raise.exec_bind]
  cases ((load script).exec s).1 with
  | none => rfl
  | some mocked => rfl

/-- A reload raises where the load does. -/
theorem load_of_raise (h : (reload script).exec s = (none, t)) : (load script).exec s = (none, t) := by
  simp only [reload, Raise.exec_bind] at h
  cases hresult : ((load script).exec s).1 with
  | none =>
    simp only [hresult, Option.elim_none, Prod.mk.injEq, true_and] at h
    exact Prod.ext hresult h
  | some mocked => simp [hresult] at h

theorem loads_of_reload (h : (reload script).exec s = (result, t)) : t.loads = s.loads + 1 := by
  have hJ : OfMocks fun t => t.loads = s.loads + 1 := fun _ _ _ hl _ h => hl.trans h
  have hload : ((load script).exec s).2.loads = s.loads + 1 := by
    rw [exec_load]
    exact loadRegistry_keeps hJ.loadable (runMockPy script s) rfl rfl
  obtain rfl := congrArg Prod.snd h
  simp only [reload, Raise.exec_bind]
  cases ((load script).exec s).1 with
  | none => exact hload
  | some mocked => exact hload

-- ---------------------------------------------------------------------------
-- Runs without a change
-- ---------------------------------------------------------------------------

/-- No function of the DSL is called, and no new path is read. -/
def Undisturbed (script : Script) (s : Running) : TurnInput → Prop
  | .edit _ => False
  | .check => True
  | input => ∀ t, turnStep script s input = some t → t.service.registry = s.service.registry

/-- A check does not load, and so it makes no subscription. -/
def NoReload (script : Script) (s : Running) : TurnInput → Prop
  | .check => ∀ t, turnStep script s .check = some t →
    t.service.loads = s.service.loads ∧ t.service.subscriptions = s.service.subscriptions
  | _ => True

theorem check_unchanged {s t : Running} (h : turnStep script s .check = some t)
    (hc : isChanged s.service = false) : t.service = s.service := by
  cases turned_of_step h with
  | unchanged => rfl
  | loaded hc' => cases hc.symm.trans hc'
  | raised hc' => cases hc.symm.trans hc'
  | outside pending broker hl => cases hl

theorem check_changed {s t : Running} (h : turnStep script s .check = some t)
    (hc : isChanged s.service = true) : t.service.loads = s.service.loads + 1 := by
  cases turned_of_step h with
  | unchanged hc' => cases hc.symm.trans hc'
  | loaded _ hexec => exact loads_of_reload hexec
  | raised _ hexec => exact loads_of_reload hexec
  | outside pending broker hl => cases hl

theorem OfMocks.step {s t : Running} (hJ : OfMocks J) (h : turnStep script s input = some t)
    (hc : input ≠ .check) (hs : J s.service) : J t.service := by
  cases turned_of_step h with
  | unchanged => exact hs
  | loaded => exact absurd rfl hc
  | raised => exact absurd rfl hc
  | visit deltaTime => exact hJ.visit script _ _ deltaTime _ hs
  | play deltaTime => exact hJ.play script deltaTime _ hs
  | outside pending broker => exact hJ s.service _ rfl rfl rfl hs

theorem mocked_of_step {s t : Running} (h : turnStep script s input = some t) (hc : input ≠ .check) :
    t.service.mocked = s.service.mocked := by
  have hJ : OfMocks fun t => t.mocked = s.service.mocked := fun _ _ hm _ _ h => hm.trans h
  exact hJ.step h hc rfl

theorem Undisturbed.registry {s t : Running} (h : Undisturbed script s input) (hc : input ≠ .check)
    (hstep : turnStep script s input = some t) : t.service.registry = s.service.registry := by
  cases input with
  | edit e => exact h.elim
  | check => exact absurd rfl hc
  | visit element b deltaTime => exact h t hstep
  | play element b deltaTime => exact h t hstep
  | receive name path value => exact h t hstep
  | setExternally path value => exact h t hstep

/-- After a check that has loaded, in every run without a change: no check
loads exactly when only datapoints of a supported type have behaviors. -/
theorem reload_only_on_change_iff (script : Script) (changed : Bool) (s t : Service)
    (hd : s.registry.Distinct) (h : (checkForNewMocks script changed).exec s = (some (), t))
    (hloaded : t.loads ≠ s.loads) :
    (∀ inputs, Along (turnStep script) (Undisturbed script) ⟨t, false⟩ inputs →
      Along (turnStep script) (NoReload script) ⟨t, false⟩ inputs) ↔
    t.registry.Supported script := by
  have hreload : (reload script).exec s = (some (), t) := by
    simp only [checkForNewMocks, Raise.exec_bind, Raise.exec_peek, Option.elim_some, Raise.exec_ite,
      Raise.exec_pure] at h
    split at h
    · exact h
    · cases h
      exact absurd rfl hloaded
  have hcurrent := current_of_reload hd hreload
  constructor
  · intro hnone
    rw [← hcurrent.unchanged_iff]
    by_contra hc
    have hstep : turnStep script ⟨t, false⟩ .check = some _ := turnStep_of_enabled script rfl
    have halong := hnone [.check] ((Atomic.along_cons hstep).mpr ⟨trivial, trivial⟩)
    obtain ⟨hno, -⟩ := (Atomic.along_cons hstep).mp halong
    have hsame := (hno _ hstep).1
    rw [check_changed hstep (by simpa using hc)] at hsame
    exact Nat.succ_ne_self _ hsame
  · intro hsupported inputs hc
    refine hc.along (P := fun s => Current script s.service ∧ s.service.registry = t.registry) ?_ ?_
      ⟨hcurrent, rfl⟩
    · rintro s input u ⟨hs, hr⟩ hun hstep
      by_cases hcheck : input = .check
      · subst hcheck
        rw [check_unchanged hstep (hs.unchanged_iff.mpr (hr ▸ hsupported))]
        exact ⟨hs, hr⟩
      · have hregistry := hun.registry hcheck hstep
        exact ⟨hs.congr hregistry (mocked_of_step hstep hcheck), hregistry.trans hr⟩
    · rintro s input ⟨hs, hr⟩ -
      cases input with
      | check =>
        intro u hstep
        rw [check_unchanged hstep (hs.unchanged_iff.mpr (hr ▸ hsupported))]
        exact ⟨rfl, rfl⟩
      | _ => trivial

-- ---------------------------------------------------------------------------
-- A type that is not supported
-- ---------------------------------------------------------------------------

def Service.benchRegistered : Service :=
  { Service.benchClocks with registry := ⟨[⟨"Lamp", .number 0, 0⟩], fun _ => [⟨0, 0, 0⟩], []⟩ }

theorem reload_only_on_change_bench :
    ((checkForNewMocks .bench false).exec .benchRegistered).2.loads = 2 ∧
      ∀ inputs, Along (turnStep .bench) (Undisturbed .bench)
          ⟨((checkForNewMocks .bench false).exec .benchRegistered).2, false⟩ inputs →
        Along (turnStep .bench) (NoReload .bench)
          ⟨((checkForNewMocks .bench false).exec .benchRegistered).2, false⟩ inputs := by
  refine ⟨by decide, (reload_only_on_change_iff .bench false .benchRegistered _ ?_ rfl (by decide)).mpr ?_⟩
  · exact ⟨by decide, List.nodup_nil⟩
  · intro d _ _
    rfl

/-- The broker says that the lamp is an array of strings. -/
def Script.benchArray : Script := { Script.bench with dataType := fun _ => some .stringArray }

/-- Nothing happens but checks, and each of them loads and subscribes. -/
theorem array_reloads :
    ∃ s, Atomic.run (turnStep .benchArray) ⟨.benchRegistered, false⟩ [.check, .check, .check] = some s ∧
      s.raised = false ∧ s.service.registry.mocked = [⟨"Lamp", .number 0, 0⟩] ∧
      s.service.registry.required = [] ∧ s.service.loads = 4 ∧
      s.service.subscriptions = Service.benchRegistered.subscriptions ++ [["Lamp"], ["Lamp"], ["Lamp"]] ∧
      ¬ Along (turnStep .benchArray) (NoReload .benchArray)
        ⟨((checkForNewMocks .benchArray false).exec .benchRegistered).2, false⟩ [.check] := by
  refine ⟨_, rfl, by decide, by decide, by decide, by decide, by decide, fun h => ?_⟩
  have hloads := (h.1 _ rfl).1
  revert hloads
  decide

end KuksaServices.Mock
