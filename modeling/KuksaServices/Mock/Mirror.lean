import Mathlib.Data.List.Forall2
import KuksaServices.Mock.Loading
import KuksaServices.Mock.Rounds

/-!
# The running mocks and the registry

`check_for_new_mocks` is to keep the running mocks in line with the registry
(`Mirror`). It loads when the paths differ, or a behavior by its `__eq__`.
That misses a clock's interval and an event's type, a path that is still
required after its mock was deleted, and a required path that gets a mock
without behaviors. The checks of a run leave the mocks in line exactly when
none of them meets such a change alone (`mirrored_iff`).
-/

namespace KuksaServices.Mock

open Atomic (Raise Along)

variable {script : Script} {s t : Service} {h : Heap}

-- ---------------------------------------------------------------------------
-- Equal behaviors
-- ---------------------------------------------------------------------------

/-- A clock as it was made; an event trigger is compared with the path that it
has now, which a check may have bound. -/
def Trigger.blank : Trigger → Trigger
  | .clock t => .clock t.reset
  | .event t => .event t

structure Heap.Alike (h : Heap) (b c : Behavior) : Prop where
  trigger : (h.triggers b.trigger).blank = (h.triggers c.trigger).blank
  condition : b.condition = c.condition
  action : (h.actions b.action).blank = (h.actions c.action).blank

theorem Heap.Alike.refl (h : Heap) (b : Behavior) : h.Alike b b := ⟨rfl, rfl, rfl⟩

/-- What the comparison of triggers leaves out. -/
def Trigger.SameKind : Trigger → Trigger → Prop
  | .clock t, .clock t' => t.intervalSec = t'.intervalSec
  | .event t, .event t' => t.eventType = t'.eventType
  | _, _ => True

instance : (t t' : Trigger) → Decidable (t.SameKind t')
  | .clock _, .clock _ | .event _, .event _ => inferInstanceAs (Decidable (_ = _))
  | .clock _, .event _ | .event _, .clock _ => inferInstanceAs (Decidable True)

theorem Trigger.blank_eq_iff {t t' : Trigger} : t.blank = t'.blank ↔ t.eq t' = true ∧ t.SameKind t' := by
  cases t with
  | clock t =>
    cases t' with
    | clock t' =>
      obtain ⟨interval, recurring, left, expired⟩ := t
      obtain ⟨interval', recurring', left', expired'⟩ := t'
      simp [Trigger.blank, ClockTrigger.reset, Trigger.eq, ClockTrigger.eq, Trigger.SameKind]
    | event t' => simp [Trigger.blank, Trigger.eq]
  | event t =>
    cases t' with
    | clock t' => simp [Trigger.blank, Trigger.eq]
    | event t' =>
      obtain ⟨type, path⟩ := t
      obtain ⟨type', path'⟩ := t'
      simpa [Trigger.blank, Trigger.eq, EventTrigger.eq, Trigger.SameKind] using and_comm

theorem Action.blank_eq_iff {a a' : Action} : a.blank = a'.blank ↔ a.eq a' = true := by
  cases a with
  | set a =>
    cases a' with
    | set a' =>
      obtain ⟨value, dynamic⟩ := a
      obtain ⟨value', dynamic'⟩ := a'
      simp [Action.blank, Action.eq]
    | animation a' => simp [Action.blank, Action.eq]
  | animation a =>
    cases a' with
    | set a' => simp [Action.blank, Action.eq]
    | animation a' =>
      obtain ⟨duration, mode, values, dynamic, animator⟩ := a
      obtain ⟨duration', mode', values', dynamic', animator'⟩ := a'
      simp only [Action.blank, Action.eq, Action.animation.injEq, AnimationAction.mk.injEq, and_true,
        Bool.and_eq_true, beq_iff_eq]
      constructor
      · rintro ⟨hduration, hmode, hvalues, hdynamic⟩
        exact ⟨⟨⟨hduration, hvalues⟩, hmode⟩, hdynamic⟩
      · rintro ⟨⟨⟨hduration, hvalues⟩, hmode⟩, hdynamic⟩
        exact ⟨hduration, hmode, hvalues, hdynamic⟩

theorem Heap.alike_iff (h : Heap) (b c : Behavior) :
    h.Alike b c ↔ h.sameBehavior b c = true ∧ (h.triggers b.trigger).SameKind (h.triggers c.trigger) := by
  simp only [Heap.sameBehavior, Bool.and_eq_true, beq_iff_eq]
  constructor
  · rintro ⟨htrigger, hcondition, haction⟩
    obtain ⟨heq, hkind⟩ := Trigger.blank_eq_iff.mp htrigger
    exact ⟨⟨⟨heq, hcondition⟩, Action.blank_eq_iff.mp haction⟩, hkind⟩
  · rintro ⟨⟨⟨heq, hcondition⟩, haction⟩, hkind⟩
    exact ⟨Trigger.blank_eq_iff.mpr ⟨heq, hkind⟩, hcondition, Action.blank_eq_iff.mpr haction⟩

def Heap.SameKinds (h : Heap) (bs cs : List Behavior) : Prop :=
  ∀ x ∈ bs.zip cs, (h.triggers x.1.trigger).SameKind (h.triggers x.2.trigger)

theorem Heap.allAlike_iff (h : Heap) (hs : h.sameBehaviors bs cs = true) :
    List.Forall₂ h.Alike bs cs ↔ h.SameKinds bs cs := by
  induction bs generalizing cs with
  | nil =>
    cases cs with
    | nil => simp [Heap.SameKinds]
    | cons c cs => simp [Heap.sameBehaviors] at hs
  | cons b bs ih =>
    cases cs with
    | nil => simp [Heap.sameBehaviors] at hs
    | cons c cs =>
      simp only [Heap.sameBehaviors, Bool.and_eq_true] at hs
      have hkinds : h.SameKinds (b :: bs) (c :: cs) ↔
          (h.triggers b.trigger).SameKind (h.triggers c.trigger) ∧ h.SameKinds bs cs := by
        simp [Heap.SameKinds]
      rw [List.forall₂_cons, hkinds, h.alike_iff, ih hs.2]
      simp [hs.1]

-- ---------------------------------------------------------------------------
-- The mirror
-- ---------------------------------------------------------------------------

/-- Every registered path is mocked with its behaviors, and no other path has
any. -/
structure Mirror (s : Service) : Prop where
  registered : ∀ d ∈ s.registry.mocked, ∃ m, s.mocked.lookup d.path = some m ∧ m.isMocked = true ∧
    List.Forall₂ s.heap.Alike (s.registry.behaviors d) m.behaviors
  others : ∀ path, path ∉ s.registry.paths → ∀ m, s.mocked.lookup path = some m → m.behaviors = []

/-- No change of the registry is of a kind the comparisons miss. -/
structure NoneMissed (s : Service) : Prop where
  mocked : ∀ d ∈ s.registry.mocked, ∀ m, s.mocked.lookup d.path = some m → m.isMocked = true
  triggers : ∀ d ∈ s.registry.mocked, ∀ m, s.mocked.lookup d.path = some m →
    s.heap.SameKinds (s.registry.behaviors d) m.behaviors
  others : ∀ path, path ∉ s.registry.paths → ∀ m, s.mocked.lookup path = some m → m.behaviors = []

theorem mirror_iff_noneMissed (hc : isChanged s = false) : Mirror s ↔ NoneMissed s := by
  simp only [isChanged, Bool.not_eq_false', Bool.and_eq_true, sameMocks, List.all_eq_true] at hc
  have hsame : ∀ d ∈ s.registry.mocked, ∃ m, s.mocked.lookup d.path = some m ∧
      s.heap.sameBehaviors (s.registry.behaviors d) m.behaviors = true := by
    intro d hd
    have hd := hc.2 d hd
    cases hm : s.mocked.lookup d.path with
    | none => simp [hm] at hd
    | some m => exact ⟨m, rfl, by simpa [hm] using hd⟩
  constructor
  · rintro ⟨hregistered, hothers⟩
    refine ⟨fun d hd m hm => ?_, fun d hd m hm => ?_, hothers⟩
    · obtain ⟨m', hm', hmocked, -⟩ := hregistered d hd
      rw [hm] at hm'
      cases hm'
      exact hmocked
    · obtain ⟨m', hm', -, halike⟩ := hregistered d hd
      obtain ⟨m'', hm'', hsame⟩ := hsame d hd
      rw [hm] at hm' hm''
      cases hm'
      cases hm''
      exact (s.heap.allAlike_iff hsame).mp halike
  · rintro ⟨hmocked, htriggers, hothers⟩
    refine ⟨fun d hd => ?_, hothers⟩
    obtain ⟨m, hm, hsame⟩ := hsame d hd
    exact ⟨m, hm, hmocked d hd m hm, (s.heap.allAlike_iff hsame).mpr (htriggers d hd m hm)⟩

-- ---------------------------------------------------------------------------
-- After a reload
-- ---------------------------------------------------------------------------

theorem lookup_of_mem {l : List (Path × MockedDataPoint)} (hl : (l.map Prod.fst).Nodup)
    (h : (p, m) ∈ l) : l.lookup p = some m := by
  induction l with
  | nil => cases h
  | cons e l ih =>
    obtain ⟨q, m'⟩ := e
    simp only [List.map_cons, List.nodup_cons] at hl
    rcases List.mem_cons.mp h with heq | hmem
    · cases heq
      exact List.lookup_cons_self
    · have hne : p ≠ q := by
        rintro rfl
        exact hl.1 (List.mem_map.mpr ⟨(p, m), hmem, rfl⟩)
      simp [List.lookup_cons, beq_eq_false_iff_ne.mpr hne, ih hl.2 hmem]

theorem mem_of_lookup {l : List (Path × MockedDataPoint)} (h : l.lookup p = some m) : (p, m) ∈ l := by
  induction l with
  | nil => cases h
  | cons e l ih =>
    obtain ⟨q, m'⟩ := e
    by_cases hq : p = q
    · subst hq
      simp only [List.lookup_cons_self, Option.some.injEq] at h
      simp [h]
    · simp only [List.lookup_cons, beq_eq_false_iff_ne.mpr hq] at h
      exact List.mem_cons_of_mem _ (ih h)

def Script.Supported (script : Script) : Prop :=
  ∀ path dataType, script.dataType path = some dataType → dataType.isSupported = true

theorem Load.behaviors (h : Load script s made others t) (hs : script.Supported)
    (hd : d ∈ t.registry.mocked) : loadedBehaviors script t.registry d = t.registry.behaviors d := by
  obtain ⟨dataType, htype⟩ := Option.isSome_iff_exists.mp (h.known d hd)
  simp [loadedBehaviors, htype, hs _ _ htype]

theorem mirror_of_reload (hs : script.Supported) (hd : s.registry.Distinct)
    (h : (reload script).exec s = (some (), t)) : Mirror t := by
  obtain ⟨u, made, others, hload, rfl⟩ := reload_some h
  have hloaded := hload.loaded hd
  refine ⟨fun d hmem => ?_, fun path hpath m hm => ?_⟩
  · have hmade := hmem
    simp only [adopt, ← hload.registrations, List.mem_map] at hmade
    obtain ⟨x, hx, rfl⟩ := hmade
    have hentry : (x.1.path, ⟨x.2, true, loadedBehaviors script u.registry x.1⟩) ∈
        loadedMocks script u.registry made others :=
      List.mem_append_left _ (List.mem_map.mpr ⟨x, hx, rfl⟩)
    refine ⟨_, lookup_of_mem hloaded.paths hentry, rfl, ?_⟩
    rw [hload.behaviors hs hmem]
    exact List.forall₂_same.mpr fun b _ => .refl _ b
  · have hmem := mem_of_lookup hm
    simp only [adopt, loadedMocks, List.mem_append, List.mem_map, Prod.mk.injEq] at hmem
    rcases hmem with ⟨x, hx, rfl, rfl⟩ | ⟨x, hx, rfl, rfl⟩
    · refine absurd ?_ hpath
      simp only [adopt, Registry.paths, ← hload.registrations, List.map_map]
      exact List.mem_map_of_mem hx
    · rfl

-- ---------------------------------------------------------------------------
-- Runs of edits and checks
-- ---------------------------------------------------------------------------

inductive EditInput where
  | edit (e : Edit)
  | check
  deriving DecidableEq, Repr

def editStep (script : Script) (s : Running) (input : EditInput) : Option Running :=
  if s.raised then none
  else match input with
    | .edit e => some { s with service := edit e s.service }
    | .check =>
      let (result, t) := (checkForNewMocks script false).exec s.service
      some ⟨t, result.isNone⟩

def Mirrored (script : Script) (s : Running) : EditInput → Prop
  | .edit _ => True
  | .check => ∀ t, editStep script s .check = some t → t.raised = false → Mirror t.service

/-- A check finds a change, or there is none of a kind that it misses. -/
def Noticed (s : Running) : EditInput → Prop
  | .edit _ => True
  | .check => isChanged s.service = true ∨ NoneMissed s.service

theorem exec_check_unchanged (hc : isChanged s = false) :
    (checkForNewMocks script false).exec s = (some (), s) := by
  simp [checkForNewMocks, hc]

theorem exec_check_changed (hc : isChanged s = true) :
    (checkForNewMocks script false).exec s = (reload script).exec s := by
  simp [checkForNewMocks, hc]

theorem mirrored_iff_noticed (hs : script.Supported) {s : Running} (hd : s.service.registry.Distinct)
    (hr : s.raised = false) (input : EditInput) : Mirrored script s input ↔ Noticed s input := by
  cases input with
  | edit e => rfl
  | check =>
    cases hc : isChanged s.service with
    | true =>
      simp only [Noticed, hc, true_or, iff_true]
      intro t ht hreturns
      simp only [editStep, hr, exec_check_changed hc, Bool.false_eq_true, if_false,
        Option.some.injEq] at ht
      subst ht
      exact mirror_of_reload hs hd (Raise.exec_returned hreturns)
    | false =>
      have hstep : editStep script s .check = some ⟨s.service, false⟩ := by
        simp [editStep, hr, exec_check_unchanged hc]
      simp [Mirrored, Noticed, hc, hstep, mirror_iff_noneMissed hc]

theorem distinct_step {s t : Running} (hd : s.service.registry.Distinct)
    (hs : editStep script s input = some t) (hr : t.raised = false) :
    t.service.registry.Distinct := by
  unfold editStep at hs
  split at hs
  · cases hs
  · cases input with
    | edit e =>
      simp only [Option.some.injEq] at hs
      subst hs
      exact hd.edit _ e
    | check =>
      simp only [Option.some.injEq] at hs
      subst hs
      cases hc : isChanged s.service with
      | false =>
        rw [exec_check_unchanged hc]
        exact hd
      | true =>
        rw [exec_check_changed hc] at hr ⊢
        exact distinct_of_reload hd (Raise.exec_returned hr)

/-- In every run of edits and checks: all its checks leave the mocks in line
exactly when each of them finds a change or there is none that it misses. -/
theorem mirrored_iff (script : Script) (hs : script.Supported) (inputs : List EditInput) (s : Running)
    (hd : s.service.registry.Distinct) :
    Along (editStep script) (Mirrored script) s inputs ↔ Along (editStep script) Noticed s inputs := by
  refine Atomic.along_congr_of_keeps (I := fun s => s.raised = false → s.service.registry.Distinct)
    (fun s i t hi hstep hr => ?_) (fun s i t hi hstep => ?_) (fun _ => hd)
  · cases hraised : s.raised with
    | true => simp [editStep, hraised] at hstep
    | false => exact distinct_step (hi hraised) hstep hr
  · cases hraised : s.raised with
    | true => simp [editStep, hraised] at hstep
    | false => exact mirrored_iff_noticed hs (hi hraised) hraised i

-- ---------------------------------------------------------------------------
-- A new interval
-- ---------------------------------------------------------------------------

def Service.benchClocks : Service :=
  { Service.bench with
    heap := ⟨fun r => .clock (.new (if r = 0 then 1 else 5) true), fun _ => .set ⟨.number 1, false⟩⟩
    registry := ⟨[], fun _ => [⟨0, 0, 0⟩], []⟩
    mocked := [] }

theorem supported_bench : Script.bench.Supported := by
  rintro path dataType h
  cases h
  rfl

theorem distinct_bench : Service.benchClocks.registry.Distinct := ⟨List.nodup_nil, List.nodup_nil⟩

def benchDelete : List EditInput :=
  [.edit (.mockDatapoint "Lamp" (.number 0) 0), .check, .edit (.deleteMockedDatapoint "Lamp"), .check]

theorem mirrored_iff_bench :
    Along (editStep .bench) (Mirrored .bench) ⟨.benchClocks, false⟩ benchDelete ∧
      ((Atomic.run (editStep .bench) ⟨.benchClocks, false⟩ benchDelete).map
        fun s => s.service.mocked.map Prod.fst) = some [] := by
  refine ⟨(mirrored_iff .bench supported_bench benchDelete ⟨.benchClocks, false⟩ distinct_bench).mpr ?_, ?_⟩
  · refine ⟨trivial, .inl ?_, trivial, .inl ?_, trivial⟩ <;> decide
  · decide

def benchInterval : List EditInput :=
  [.edit (.mockDatapoint "Lamp" (.number 0) 0), .check,
    .edit (.deleteBehaviorOfMockedDatapoint ⟨0, 0, 0⟩ "Lamp"), .edit (.addBehavior ⟨1, 0, 0⟩ "Lamp"), .check]

/-- The lamp goes on with the old clock. -/
theorem interval_unnoticed :
    ∃ s, Atomic.run (editStep .bench) ⟨.benchClocks, false⟩ benchInterval = some s ∧
      s.raised = false ∧
      s.service.registry.mocked.map s.service.registry.behaviors = [[⟨1, 0, 0⟩]] ∧
      (s.service.mocked.lookup "Lamp").map (·.behaviors) = some [⟨0, 0, 0⟩] ∧ ¬ Mirror s.service := by
  refine ⟨_, rfl, by decide, by decide, by decide, ?_⟩
  intro hmirror
  have hnone := (mirror_iff_noneMissed (by decide)).mp hmirror
  have hkinds := hnone.triggers ⟨"Lamp", .number 0, 0⟩ (by decide) _ rfl (⟨1, 0, 0⟩, ⟨0, 0, 0⟩) (by decide)
  exact absurd hkinds (by decide)

end KuksaServices.Mock
