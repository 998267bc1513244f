import Mathlib.Data.List.Nodup
import KuksaServices.Mock.Mirror
import KuksaServices.Mock.View

/-!
# Edits and the other mocks

An edit of the registry makes the next check reload all mocks. A reload gives
every mock a new datapoint with its initial value, and the forced executions
put a new animator, on a datapoint that nobody listens to, in the place of
the one that is playing. A group of mocks whose registrations stay as they
are is assigned the same values with the edit as without it, if no reload
meets it with an animation playing or a value of its own that it reads
(`edit_isolated`).
-/

namespace KuksaServices.Mock

open Atomic (Raise Along)
open Atomic.Raise (Lockstep)

variable {script : Script} {G : Group} {ρ ρ' : Path → Ref} {s t u : Service} {p q : Path}
  {b c : Behavior} {e : Path × MockedDataPoint} {ms ms' : List (Path × MockedDataPoint)}

-- ---------------------------------------------------------------------------
-- A loaded group
-- ---------------------------------------------------------------------------

/-- The registry has the group's registrations, in their order and with their
behaviors. -/
structure Group.Registered (G : Group) (script : Script) (registry : Registry) : Prop where
  registrations : registry.mocked.filter (·.path ∈ G.paths) = G.registrations
  behaviors : ∀ d ∈ G.registrations, loadedBehaviors script registry d = G.behaviors d.path

def Group.element (G : Group) (ρ : Path → Ref) (d : Registration) : Path × MockedDataPoint :=
  (d.path, ⟨ρ d.path, true, G.behaviors d.path⟩)

def Group.Placed (G : Group) (ρ : Path → Ref) (s : Service) : Prop :=
  s.mocked.filter (·.1 ∈ G.paths) = G.registrations.map (G.element ρ)

structure Footing (script : Script) (G : Group) (ρ : Path → Ref) (s : Service) : Prop where
  loaded : Loaded s
  distinct : s.registry.Distinct
  registered : G.Registered script s.registry
  placed : G.Placed ρ s
  dataType : ∀ p ∈ G.paths, (s.datapoints (ρ p)).dataType = script.dataType p
  grip : Grip G ρ s
  tied : Tied G ρ s

theorem Group.Registered.congr {r r' : Registry} (h : G.Registered script r) (hm : r'.mocked = r.mocked)
    (hl : r'.lists = r.lists) : G.Registered script r' := by
  refine ⟨hm ▸ h.registrations, fun d hd => ?_⟩
  rw [loadedBehaviors_congr hl]
  exact h.behaviors d hd

theorem Footing.touched (h : Footing script G ρ s) (ht : Touches F s t) (hg : Grip G ρ t)
    (htied : Tied G ρ t) : Footing script G ρ t where
  loaded := h.loaded.touched ht
  distinct := ht.registry.distinct h.distinct
  registered := h.registered.congr ht.registry.mocked ht.registry.lists
  placed := by
    unfold Group.Placed
    rw [ht.mocked]
    exact h.placed
  dataType p hp := by
    have hkind := congrArg (fun k => k.2.1) (ht.kinds (ρ p) (h.tied.allocated p hp))
    exact hkind.trans (h.dataType p hp)
  grip := hg
  tied := htied

-- ---------------------------------------------------------------------------
-- The other mocks
-- ---------------------------------------------------------------------------

/-- The datapoint is not of the group, which does not see its value. -/
structure Group.Ignores (G : Group) (ρ : Path → Ref) (s : Service) (r : Ref) : Prop where
  outside : ¬ G.At ρ r
  allocated : r < s.fresh
  written : (s.datapoints r).hasListener = true →
    (s.datapoints r).path ∉ G.paths ∧ ¬ G.Watches (s.datapoints r).path

/-- A behavior of another mock shares no object with the group, takes none of
its events and plays on nothing that it sees. -/
structure Beside (G : Group) (ρ : Path → Ref) (s : Service) (q : Path) (c : Behavior) : Prop where
  unwatched : ¬ G.Watches q
  trigger : ∀ b, G.Has b → c.trigger ≠ b.trigger
  action : ∀ b, G.Has b → c.action ≠ b.action
  listens : ∀ t, s.heap.triggers c.trigger = .event t → (t.eventType, t.bound q) ∉ G.events
  plays : ∀ a, (s.heap.actions c.action).animator? = some a → a.done = false →
    G.Ignores ρ s a.datapoint

def Apart (G : Group) (ρ : Path → Ref) (s : Service) : Prop :=
  ∀ e ∈ s.mocked, e.1 ∉ G.paths → ∀ c ∈ e.2.behaviors, Beside G ρ s e.1 c

def Group.beside (G : Group) (ρ : Path → Ref) (s : Service) (e : Path × MockedDataPoint) :
    Footprint where
  path := e.1
  triggers := {x | ∃ c ∈ e.2.behaviors, c.trigger = x}
  actions := {x | ∀ b, G.Has b → x ≠ b.action}
  datapoints := {x | G.Ignores ρ s x}
  events := {k | k ∉ G.events}
  paths := {p | p ∉ G.paths ∧ p ∉ G.reads}

theorem Group.Ignores.touched (h : G.Ignores ρ s r) (ht : Touches F s t) : G.Ignores ρ t r := by
  refine ⟨h.outside, Nat.lt_of_lt_of_le h.allocated ht.fresh, fun hl => ?_⟩
  rw [ht.path h.allocated]
  rw [ht.hasListener h.allocated] at hl
  exact h.written hl

theorem Group.Ignores.owns (h : G.Ignores ρ s r) (e : Path × MockedDataPoint) :
    Owns (G.beside ρ s e) r s := by
  refine ⟨h, h.allocated, fun hl => ?_⟩
  obtain ⟨hpath, hwatches⟩ := h.written hl
  exact ⟨⟨hpath, fun hread => hwatches (.inl hread)⟩, fun hevent => hwatches (.inr hevent)⟩

theorem Apart.misses (h : Apart G ρ s) (he : e ∈ s.mocked) (hne : e.1 ∉ G.paths) :
    (G.beside ρ s e).Misses G ρ s where
  triggers b hb := by
    rintro ⟨c, hc, heq⟩
    exact (h e he hne c hc).trigger b hb heq
  actions b hb hmem := absurd rfl (hmem b hb)
  datapoints p hp hmem := hmem.outside ⟨p, hp, rfl⟩
  events k hk hmem := hmem hk
  paths p hp hmem := hmem.1 hp
  reads q hq hmem := hmem.2 hq

/-- A trigger that two of the others share is bound by one of them. -/
theorem Apart.listens (h : Apart G ρ s) (he : e ∈ s.mocked) (hne : e.1 ∉ G.paths)
    (ht : Touches (G.beside ρ s e) s t) (hc : Beside G ρ s q c)
    (hevent : t.heap.triggers c.trigger = .event trigger) :
    (trigger.eventType, trigger.bound q) ∉ G.events := by
  by_cases hmem : c.trigger ∈ (G.beside ρ s e).triggers
  · obtain ⟨c', hc', heq⟩ := hmem
    have hevolves := ht.evolves c.trigger
    rw [hevent] at hevolves
    cases hs : s.heap.triggers c.trigger with
    | clock trigger₀ =>
      rw [hs] at hevolves
      exact hevolves.elim
    | event trigger₀ =>
      rw [hs] at hevolves
      rcases hevolves with rfl | rfl
      · exact hc.listens trigger hs
      · exact (h e he hne c' hc').listens trigger₀ (heq ▸ hs)
  · rw [ht.triggers _ hmem] at hevent
    exact hc.listens trigger hevent

theorem Beside.plays_touched (h : Beside G ρ s q c) (ht : Touches F s t)
    (hd : c.action ∈ F.actions → ∀ d ∈ F.datapoints, G.Ignores ρ s d)
    (ha : (t.heap.actions c.action).animator? = some a) (hdone : a.done = false) :
    G.Ignores ρ t a.datapoint := by
  by_cases hmem : c.action ∈ F.actions
  · rcases ht.animators c.action with heq | ⟨a', ha', hmem', -⟩
    · rw [heq] at ha
      exact (h.plays a ha hdone).touched ht
    · rw [ha] at ha'
      cases ha'
      exact (hd hmem a.datapoint hmem').touched ht
  · rw [ht.actions _ hmem] at ha
    exact (h.plays a ha hdone).touched ht

theorem Apart.beside (h : Apart G ρ s) (he : e ∈ s.mocked) (hne : e.1 ∉ G.paths)
    (ht : Touches (G.beside ρ s e) s t) : Apart G ρ t := by
  intro e' he' hne' c hc
  rw [ht.mocked] at he'
  have hbeside := h e' he' hne' c hc
  exact ⟨hbeside.unwatched, hbeside.trigger, hbeside.action, fun trigger => h.listens he hne ht hbeside,
    fun a => hbeside.plays_touched ht fun _ _ hd => hd⟩

theorem Apart.own (h : Apart G ρ s) (ht : Touches (G.footprint ρ s path) s t) : Apart G ρ t := by
  intro e he hne c hc
  rw [ht.mocked] at he
  have hbeside := h e he hne c hc
  refine ⟨hbeside.unwatched, hbeside.trigger, hbeside.action, fun trigger htrigger => ?_, fun a => ?_⟩
  · have hmem : c.trigger ∉ (G.footprint ρ s path).triggers := by
      rintro ⟨b, hb, heq⟩
      exact hbeside.trigger b hb heq.symm
    rw [ht.triggers _ hmem] at htrigger
    exact hbeside.listens trigger htrigger
  · refine hbeside.plays_touched ht fun hmem => ?_
    obtain ⟨b, hb, heq⟩ := hmem
    exact absurd heq.symm (hbeside.action b hb)

-- ---------------------------------------------------------------------------
-- One mock after the other
-- ---------------------------------------------------------------------------

/-- While the mocks `ms` are executed or animated. -/
structure Standing (script : Script) (G : Group) (ρ : Path → Ref)
    (ms : List (Path × MockedDataPoint)) (s : Service) : Prop where
  footing : Footing script G ρ s
  apart : Apart G ρ s
  mocked : s.mocked = ms

theorem Standing.own (h : Standing script G ρ ms s) (ht : Touches (G.footprint ρ s path) s t)
    (hg : Grip G ρ t) : Standing script G ρ ms t :=
  ⟨h.footing.touched ht hg (h.footing.tied.own ht), h.apart.own ht, ht.mocked.trans h.mocked⟩

theorem Standing.beside (h : Standing script G ρ ms s) (he : e ∈ ms) (hne : e.1 ∉ G.paths)
    (ht : Touches (G.beside ρ s e) s t) : Standing script G ρ ms t ∧ View G ρ ρ s t := by
  have hmem : e ∈ s.mocked := h.mocked ▸ he
  have hmisses := h.apart.misses hmem hne
  have hview := ht.view hmisses h.footing.tied.allocated
  have htied : Tied G ρ t := by
    refine h.footing.tied.touched ht fun b hb hmem' => ?_
    exact absurd rfl (hmem' b hb)
  exact ⟨⟨h.footing.touched ht (hview.grip h.footing.grip) htied, h.apart.beside hmem hne ht,
    ht.mocked.trans h.mocked⟩, hview⟩

theorem Standing.ignores (h : Standing script G ρ ms s) (he : e ∈ ms) (hne : e.1 ∉ G.paths)
    (hw : ¬ G.Watches e.1) : G.Ignores ρ s e.2.datapoint := by
  have hmem : e ∈ s.mocked := h.mocked ▸ he
  have hpath := h.footing.loaded.path e hmem
  refine ⟨?_, h.footing.loaded.allocated e hmem, fun _ => ?_⟩
  · rintro ⟨p, hp, heq⟩
    rw [← heq, h.footing.grip.path p hp] at hpath
    exact hne (hpath ▸ hp)
  · rw [hpath]
    exact ⟨hne, hw⟩

theorem Standing.execute_other (h : Standing script G ρ ms s) (he : e ∈ ms)
    (hne : e.1 ∉ G.paths) (hexec : (executeElement script deltaTime e).exec s = (x, t)) :
    Standing script G ρ ms t ∧ View G ρ ρ s t := by
  have hbeside := h.apart e (h.mocked ▸ he) hne
  obtain ⟨q, r, isMocked, behaviors⟩ := e
  cases behaviors with
  | nil =>
    cases hexec
    exact ⟨h, .refl G ρ _⟩
  | cons c cs =>
    have hignores := h.ignores he hne (hbeside c List.mem_cons_self).unwatched
    have htouches : Touches (G.beside ρ s (q, ⟨r, isMocked, c :: cs⟩)) s
        ((executeElement script deltaTime (q, ⟨r, isMocked, c :: cs⟩)).exec s).2 := by
      refine touches_executeElement ⟨hignores.owns _, fun c' hc' => ?_⟩ deltaTime
      exact ⟨⟨c', hc', rfl⟩, (hbeside c' hc').action, (hbeside c' hc').listens⟩
    rw [hexec] at htouches
    exact h.beside he hne htouches

theorem Standing.animate_other (h : Standing script G ρ ms s) (he : e ∈ ms)
    (hne : e.1 ∉ G.paths)
    (hexec : (Raise.forEach e.2.behaviors (animateBehavior script deltaTime)).exec s = (some (), t)) :
    Standing script G ρ ms t ∧ View G ρ ρ s t := by
  refine Raise.forEach_keeps (J := fun t => Standing script G ρ ms t ∧ View G ρ ρ s t)
    (fun c hc u u' => ?_) ⟨h, .refl G ρ s⟩ hexec
  rintro ⟨hu, hview⟩ hexec
  have hbeside := hu.apart e (hu.mocked ▸ he) hne c hc
  have htouches : Touches (G.beside ρ u e) u ((animateBehavior script deltaTime c).exec u).2 := by
    refine touches_animateBehavior (F := G.beside ρ u e) ⟨hbeside.action, fun a ha hdone => ?_⟩ deltaTime
    exact (hbeside.plays a ha hdone).owns e
  rw [hexec] at htouches
  obtain ⟨hu', hview'⟩ := hu.beside he hne htouches
  exact ⟨hu', hview.trans hview'⟩

-- ---------------------------------------------------------------------------
-- Two states side by side
-- ---------------------------------------------------------------------------

/-- Two states that look alike to the group, while `ms` and `ms'` are
executed or animated. -/
def Abreast (script : Script) (G : Group) (ρ ρ' : Path → Ref)
    (ms ms' : List (Path × MockedDataPoint)) (s t : Service) : Prop :=
  View G ρ ρ' s t ∧ Standing script G ρ ms s ∧ Standing script G ρ' ms' t

theorem abreast_execute (hl : G.Local script) (hp : p ∈ G.paths) (deltaTime : ℚ) :
    Lockstep (Abreast script G ρ ρ' ms ms')
      (executeElement script deltaTime (p, ⟨ρ p, true, G.behaviors p⟩))
      (executeElement script deltaTime (p, ⟨ρ' p, true, G.behaviors p⟩)) := by
  rintro s t x y s' t' ⟨hview, hs, ht⟩ hexec hexec'
  obtain ⟨heq, halike⟩ := lockstep_executeElement hl hp true true deltaTime _ _ _ _ _ _
    ⟨hview, hs.footing.grip⟩ hexec hexec'
  have htouches : ∀ {ρ ms u}, Standing script G ρ ms u → Touches (G.footprint ρ u p) u
      ((executeElement script deltaTime (p, ⟨ρ p, true, G.behaviors p⟩)).exec u).2 := by
    intro ρ ms u hu
    refine touches_executeElement (F := G.footprint ρ u p) ⟨?_, fun b hb => ?_⟩ deltaTime
    · exact hu.footing.tied.owns hu.footing.grip hp p
    · exact hu.footing.grip.serves hp hb
  have hs' := htouches hs
  have ht' := htouches ht
  rw [hexec] at hs'
  rw [hexec'] at ht'
  exact ⟨heq, halike.1, hs.own hs' halike.2, ht.own ht' (halike.1.grip halike.2)⟩

theorem abreast_animateBehavior (hb : G.Has b) (deltaTime : ℚ) :
    Lockstep (Abreast script G ρ ρ' ms ms') (animateBehavior script deltaTime b)
      (animateBehavior script deltaTime b) := by
  rintro s t x y s' t' ⟨hview, hs, ht⟩ hexec hexec'
  have hboth : Alike G ρ ρ' s t := ⟨hview, hs.footing.grip⟩
  have halike := hboth.animate hs.footing.tied ht.footing.tied hb hexec hexec'
  have hs' := hs.footing.tied.touches_animate hs.footing.grip hb "" hexec
  have ht' := ht.footing.tied.touches_animate ht.footing.grip hb "" hexec'
  exact ⟨rfl, halike.1, hs.own hs' halike.2, ht.own ht' (halike.1.grip halike.2)⟩

def Together (script : Script) (G : Group) (s t : Service) : Prop :=
  ∃ ρ ρ', View G ρ ρ' s t ∧ Footing script G ρ s ∧ Footing script G ρ' t

/-- A loop over all mocks, in both states. The members of the group come in
the same order. -/
theorem Together.loop {f : Path × MockedDataPoint → Py Unit}
    (hown : ∀ {ρ ρ' ms ms' p}, p ∈ G.paths → Lockstep (Abreast script G ρ ρ' ms ms')
      (f (p, ⟨ρ p, true, G.behaviors p⟩)) (f (p, ⟨ρ' p, true, G.behaviors p⟩)))
    (hother : ∀ {ρ ms s t} {e : Path × MockedDataPoint}, Standing script G ρ ms s → e ∈ ms →
      e.1 ∉ G.paths → (f e).exec s = (some (), t) → Standing script G ρ ms t ∧ View G ρ ρ s t)
    (h : Together script G s t) (hs : ∀ ρ, G.Placed ρ s → Apart G ρ s)
    (ht : ∀ ρ, G.Placed ρ t → Apart G ρ t)
    (hexec : (Raise.forEach s.mocked f).exec s = (some (), s'))
    (hexec' : (Raise.forEach t.mocked f).exec t = (some (), t')) : Together script G s' t' := by
  obtain ⟨ρ, ρ', hview, hf, hf'⟩ := h
  have hloop : Lockstep (Abreast script G ρ ρ' s.mocked t.mocked) (Raise.forEach s.mocked f)
      (Raise.forEach t.mocked f) := by
    refine .forEach_aligned (k := fun e => decide (e.1 ∈ G.paths)) ?_ ?_ ?_
    · rintro e he hk s t s' ⟨hview, hs, ht⟩ hexec
      obtain ⟨hs', hview'⟩ := hother hs he (of_decide_eq_false hk) hexec
      exact ⟨hview'.symm.trans hview, hs', ht⟩
    · rintro e he hk s t t' ⟨hview, hs, ht⟩ hexec
      obtain ⟨ht', hview'⟩ := hother ht he (of_decide_eq_false hk) hexec
      exact ⟨hview.trans hview', hs, ht'⟩
    · rw [hf.placed, hf'.placed, List.forall₂_map_left_iff, List.forall₂_map_right_iff,
        List.forall₂_same]
      intro d hd
      exact hown (List.mem_map_of_mem hd)
  obtain ⟨-, hview', hs', ht'⟩ := hloop _ _ _ _ _ _
    ⟨hview, ⟨hf, hs ρ hf.placed, rfl⟩, ⟨hf', ht ρ' hf'.placed, rfl⟩⟩ hexec hexec'
  exact ⟨ρ, ρ', hview', hs'.footing, ht'.footing⟩

theorem Together.execute (hl : G.Local script) (h : Together script G s t)
    (hs : ∀ ρ, G.Placed ρ s → Apart G ρ s) (ht : ∀ ρ, G.Placed ρ t → Apart G ρ t)
    (hexec : (execute script deltaTime).exec s = (some (), s'))
    (hexec' : (execute script deltaTime).exec t = (some (), t')) : Together script G s' t' := by
  simp only [Mock.execute, Raise.exec_bind, Raise.exec_peek, Option.elim_some] at hexec hexec'
  exact Together.loop (fun hp => abreast_execute hl hp deltaTime)
    (fun hstanding => hstanding.execute_other) h hs ht hexec hexec'

theorem Together.animate (h : Together script G s t)
    (hs : ∀ ρ, G.Placed ρ s → Apart G ρ s) (ht : ∀ ρ, G.Placed ρ t → Apart G ρ t)
    (hexec : (animate script deltaTime).exec s = (some (), s'))
    (hexec' : (animate script deltaTime).exec t = (some (), t')) : Together script G s' t' := by
  simp only [Mock.animate, Raise.exec_bind, Raise.exec_peek, Option.elim_some] at hexec hexec'
  exact Together.loop
    (fun hp => .forEach fun b hb => abreast_animateBehavior ⟨_, hp, hb⟩ deltaTime)
    (fun hstanding => hstanding.animate_other) h hs ht hexec hexec'

-- ---------------------------------------------------------------------------
-- Reloads
-- ---------------------------------------------------------------------------

def Group.Quiet (G : Group) (s : Service) : Prop :=
  ∀ b, G.Has b → ∀ a, (s.heap.actions b.action).animator? = some a → a.done = false →
    s.Unheard a.datapoint

/-- A reload finds no animation playing, and the values that the group reads
of its own are the initial ones. -/
structure AtRest (G : Group) (ρ : Path → Ref) (s : Service) : Prop where
  animations : ∀ b, G.Has b → ∀ p ∈ G.paths, (s.heap.actions b.action).playing (ρ p) = none
  values : ∀ d ∈ G.registrations, G.Watches d.path →
    (s.datapoints (ρ d.path)).value = d.initialValue

theorem Tied.quiet (h : Tied G ρ s) (hr : AtRest G ρ s) : G.Quiet s := by
  intro b hb a ha hdone
  refine (h.animators b hb a ha hdone).resolve_left ?_
  rintro ⟨p, hp, heq⟩
  have hnone := hr.animations b hb p hp
  simp [Action.playing, ha, heq, hdone] at hnone

def loadedRefs (made : List (Registration × Ref)) (path : Path) : Ref :=
  ((made.find? (·.1.path == path)).map Prod.snd).getD 0

theorem Load.ref (h : Load script s made others t) (hd : s.registry.Distinct) (hx : x ∈ made) :
    loadedRefs made x.1.path = x.2 := by
  have hnodup : (made.map fun x => x.1.path).Nodup := by
    have hpaths := (h.distinct hd).paths
    rw [Registry.paths, ← h.registrations, List.map_map] at hpaths
    exact hpaths
  cases hfind : made.find? (·.1.path == x.1.path) with
  | none =>
    have hne := List.find?_eq_none.mp hfind x hx
    simp at hne
  | some y =>
    have hpath : y.1.path = x.1.path := by simpa using List.find?_some hfind
    have heq := List.inj_on_of_nodup_map hnodup (List.mem_of_find?_eq_some hfind) hx hpath
    simp [loadedRefs, hfind, heq]

theorem Load.registered (h : Load script s made others t)
    (hr : G.Registered script (runMockPy script s).registry) : G.Registered script t.registry :=
  hr.congr h.touches.registry.mocked h.touches.registry.lists

theorem Group.Registered.mem (h : G.Registered script registry) (hd : d ∈ G.registrations) :
    d ∈ registry.mocked := by
  rw [← h.registrations] at hd
  exact (List.mem_filter.mp hd).1

theorem Load.member (h : Load script s made others t) (hd : s.registry.Distinct)
    (hr : G.Registered script (runMockPy script s).registry) (hmem : d ∈ G.registrations) :
    (d, loadedRefs made d.path) ∈ made := by
  have hd' := (h.registered hr).mem hmem
  rw [← h.registrations, List.mem_map] at hd'
  obtain ⟨x, hx, rfl⟩ := hd'
  rw [h.ref hd hx]
  exact hx

theorem Load.placed (h : Load script s made others t) (hd : s.registry.Distinct)
    (hr : G.Registered script (runMockPy script s).registry) :
    G.Placed (loadedRefs made) (adopt (loadedMocks script t.registry made others) t) := by
  have hregistered := h.registered hr
  have hothers : (others.map fun x => (x.1, (⟨x.2, false, []⟩ : MockedDataPoint))).filter
      (·.1 ∈ G.paths) = [] := by
    simp only [List.filter_eq_nil_iff, List.mem_map, decide_eq_true_eq]
    rintro _ ⟨x, hx, rfl⟩ hpath
    obtain ⟨d, hmem, heq⟩ := List.mem_map.mp hpath
    have hrequired := List.mem_map_of_mem (f := Prod.fst) hx
    rw [h.required] at hrequired
    simp only [List.mem_filter, decide_eq_true_eq] at hrequired
    refine hrequired.2 ?_
    rw [← heq]
    exact List.mem_map_of_mem (hregistered.mem hmem)
  have hfirst : (made.filter fun x => decide (x.1.path ∈ G.paths)).map Prod.fst = G.registrations := by
    rw [← hregistered.registrations, ← h.registrations, List.filter_map]
    rfl
  unfold Group.Placed
  simp only [adopt, loadedMocks, List.filter_append, hothers, List.append_nil, List.filter_map]
  rw [← hfirst, List.map_map]
  refine List.map_congr_left fun x hx => ?_
  have hmem : x.1 ∈ G.registrations := hfirst ▸ List.mem_map_of_mem hx
  simp [Group.element, h.ref hd (List.mem_filter.mp hx).1, hregistered.behaviors x.1 hmem]

theorem Load.datapoint_adopted (h : Load script s made others t) (hx : x ∈ made) :
    (adopt (loadedMocks script t.registry made others) t).datapoints x.2 =
      ⟨x.1.path, script.dataType x.1.path, x.1.initialValue, true⟩ := by
  have hmem : x.2 ∈ (loadedMocks script t.registry made others).map (·.2.datapoint) := by
    refine List.mem_map.mpr ⟨(x.1.path, ⟨x.2, true, loadedBehaviors script t.registry x.1⟩), ?_, rfl⟩
    exact List.mem_append_left _ (List.mem_map.mpr ⟨x, hx, rfl⟩)
  simp [adopt, listenTo_eq, hmem, h.datapoints x hx, Registration.datapoint]

theorem Service.Unheard.adopted (hr : t.Unheard r)
    (hne : r ∉ made.map Prod.snd ++ others.map Prod.snd) :
    (adopt (loadedMocks script t.registry made others) t).Unheard r := by
  have hne' : r ∉ (loadedMocks script t.registry made others).map (·.2.datapoint) := by
    simpa [loadedMocks, Function.comp_def] using hne
  refine ⟨hr.1, ?_⟩
  simp only [adopt, listenTo_eq, hne', if_false]
  exact hr.2

/-- The forced executions leave no animation behind that is heard. -/
theorem Load.quiet (h : Load script s made others t) (hq : G.Quiet s) :
    G.Quiet (adopt (loadedMocks script t.registry made others) t) := by
  intro b hb a ha hdone
  rcases h.animators b.action with heq | ⟨a', ha', hne, hlt, hunheard⟩
  · have hold := hq b hb a (heq ▸ ha) hdone
    have hrun : (runMockPy script s).Unheard a.datapoint := hold
    refine (hrun.touched h.touches).adopted fun hmem => ?_
    exact Nat.not_le_of_lt hold.1 (h.allocated _ hmem).1
  · have hsome : (t.heap.actions b.action).animator? = some a := ha
    rw [hsome] at ha'
    cases ha'
    exact Service.Unheard.adopted ⟨hlt, hunheard⟩ hne

theorem Group.Quiet.not_playing (h : G.Quiet s) (hg : ∀ p ∈ G.paths, (s.datapoints (ρ p)).hasListener = true)
    (hb : G.Has b) (hp : p ∈ G.paths) : (s.heap.actions b.action).playing (ρ p) = none := by
  cases ha : (s.heap.actions b.action).animator? with
  | none => simp [Action.playing, ha]
  | some a =>
    cases hdone : a.done with
    | true => simp [Action.playing, ha, hdone]
    | false =>
      refine Action.playing_elsewhere ha fun heq => ?_
      have hunheard := (h b hb a ha hdone).2
      rw [heq, hg p hp] at hunheard
      cases hunheard

theorem Load.adopted (h : Load script s made others t) (hd : s.registry.Distinct)
    (hr : G.Registered script (runMockPy script s).registry) (hmem : d ∈ G.registrations) :
    (adopt (loadedMocks script t.registry made others) t).datapoints (loadedRefs made d.path) =
      ⟨d.path, script.dataType d.path, d.initialValue, true⟩ :=
  h.datapoint_adopted (h.member hd hr hmem)

theorem Load.view (h : Load script s made others t) (hf : Footing script G ρ s)
    (hr : G.Registered script (runMockPy script s).registry) (hrest : AtRest G ρ s) :
    View G ρ (loadedRefs made) s (adopt (loadedMocks script t.registry made others) t) := by
  have hquiet := h.quiet (hf.tied.quiet hrest)
  refine ⟨fun b hb => ?_, fun b hb => ?_, fun b hb p hp => ?_, fun p hp => ?_, fun p hp hw => ?_,
    fun k _ => ?_, fun q _ => ?_, fun p _ => ?_⟩
  · exact (h.touches.triggers _ fun hmem => hmem).symm
  · exact (h.touches.blank _).symm
  · rw [hrest.animations b hb p hp]
    refine (hquiet.not_playing (fun q hq => ?_) hb hp).symm
    obtain ⟨d, hd, rfl⟩ := List.mem_map.mp hq
    rw [h.adopted hf.distinct hr hd]
  · obtain ⟨d, hd, rfl⟩ := List.mem_map.mp hp
    rw [h.adopted hf.distinct hr hd]
    simp [DataPoint.kind, hf.grip.path _ hp, hf.grip.hasListener _ hp, hf.dataType _ hp]
  · obtain ⟨d, hd, rfl⟩ := List.mem_map.mp hp
    rw [h.adopted hf.distinct hr hd]
    exact hrest.values d hd hw
  · exact (h.touches.pending k fun _ _ hmem => hmem).symm
  · exact (h.touches.broker q fun hmem => hmem).symm
  · exact (h.touches.assigned p fun hmem => hmem).symm

/-- A load gives a registered group its footing, also the first one. -/
theorem Load.footing (h : Load script s made others t) (hd : s.registry.Distinct)
    (hr : G.Registered script (runMockPy script s).registry) (hq : G.Quiet s) (hb : G.Bounded s) :
    Footing script G (loadedRefs made) (adopt (loadedMocks script t.registry made others) t) := by
  have hnew : ∀ p ∈ G.paths, ∃ value,
      (adopt (loadedMocks script t.registry made others) t).datapoints (loadedRefs made p) =
        ⟨p, script.dataType p, value, true⟩ := by
    rintro _ hp
    obtain ⟨d, hmem, rfl⟩ := List.mem_map.mp hp
    exact ⟨d.initialValue, h.adopted hd hr hmem⟩
  refine ⟨h.loaded hd, h.distinct hd, h.registered hr, h.placed hd hr, fun p hp => ?_,
    ⟨⟨fun p hp b hmem trigger htrigger => ?_, fun p hp b hmem => ?_⟩, fun p hp => ?_, fun p hp => ?_⟩,
    fun p hp => ?_, fun b hb a ha hdone => .inr (h.quiet hq b hb a ha hdone)⟩
  · obtain ⟨value, heq⟩ := hnew p hp
    rw [heq]
  · have hsame : t.heap.triggers b.trigger = s.heap.triggers b.trigger :=
      h.touches.triggers _ fun hmem => hmem
    exact hb.listens p hp b hmem trigger (hsame ▸ htrigger)
  · have hsame : (t.heap.actions b.action).blank = (s.heap.actions b.action).blank :=
      h.touches.blank _
    have hcovers := hb.reads p hp b hmem
    unfold Group.Covers at hcovers ⊢
    rw [← hsame] at hcovers
    exact hcovers
  · obtain ⟨value, heq⟩ := hnew p hp
    rw [heq]
  · obtain ⟨value, heq⟩ := hnew p hp
    rw [heq]
  · obtain ⟨d, hmem, rfl⟩ := List.mem_map.mp hp
    refine (h.allocated _ (List.mem_append_left _ ?_)).2
    exact List.mem_map_of_mem (h.member hd hr hmem)

theorem Footing.reload (h : Footing script G ρ s)
    (hr : G.Registered script (runMockPy script s).registry) (hrest : AtRest G ρ s)
    (hexec : (reload script).exec s = (some (), t)) :
    ∃ ρ', Footing script G ρ' t ∧ View G ρ ρ' s t := by
  obtain ⟨u, made, others, hload, rfl⟩ := reload_some hexec
  exact ⟨loadedRefs made, hload.footing h.distinct hr (h.tied.quiet hrest) h.grip.toBounded,
    hload.view h hr hrest⟩

theorem footing_of_first_load (hd : s.registry.Distinct)
    (hr : G.Registered script (runMockPy script s).registry) (hb : G.Bounded s)
    (hn : ∀ b, G.Has b → (s.heap.actions b.action).animator? = none)
    (hexec : (reload script).exec s = (some (), t)) : ∃ ρ, Footing script G ρ t := by
  obtain ⟨u, made, others, hload, rfl⟩ := reload_some hexec
  refine ⟨loadedRefs made, hload.footing hd hr (fun b hb a ha => ?_) hb⟩
  rw [hn b hb] at ha
  cases ha

-- ---------------------------------------------------------------------------
-- Runs of the main loop
-- ---------------------------------------------------------------------------

/-- A turn of the main loop is a check, a round of the executor and one of
the animations. Calls of the DSL, events and external writes may come at any
time. -/
inductive LoopInput where
  | edit (e : Edit)
  | check
  | execute (deltaTime : ℚ)
  | animate (deltaTime : ℚ)
  | receive (name : EventType) (path : Path) (value : Value)
  | setExternally (path : Path) (value : Value)
  deriving DecidableEq, Repr

def LoopInput.program (script : Script) : LoopInput → Py Unit
  | .edit e => Raise.atomic .loop fun s => ((), Mock.edit e s)
  | .check => checkForNewMocks script false
  | .execute deltaTime => Mock.execute script deltaTime
  | .animate deltaTime => Mock.animate script deltaTime
  | .receive name path value => Raise.atomic .loop fun s => ((), Mock.receive name path value s)
  | .setExternally path value => Raise.atomic .loop fun s => ((), Mock.setExternally path value s)

def loopStep (script : Script) (s : Running) (input : LoopInput) : Option Running :=
  if s.raised then none
  else
    let (result, t) := (input.program script).exec s.service
    some ⟨t, result.isNone⟩

def turn (deltaTime : ℚ) : List LoopInput := [.check, .execute deltaTime, .animate deltaTime]

theorem loopStep_some {s t : Running} (h : loopStep script s input = some t) (ht : t.raised = false) :
    s.raised = false ∧ (input.program script).exec s.service = (some (), t.service) := by
  unfold loopStep at h
  split at h
  · cases h
  · rename_i hraised
    cases h
    exact ⟨by simpa using hraised, Raise.exec_returned ht⟩

theorem loopStep_of_exec (input : LoopInput) (h : (input.program script).exec s = (some (), t)) :
    loopStep script ⟨s, false⟩ input = some ⟨t, false⟩ := by
  simp [loopStep, h]

theorem run_turn (h : (tick script deltaTime).exec s = (some (), t)) :
    Atomic.run (loopStep script) ⟨s, false⟩ (turn deltaTime) = some ⟨t, false⟩ := by
  obtain ⟨_, s₁, hcheck, h⟩ := Raise.bind_some.mp h
  obtain ⟨_, s₂, hexecute, hanimate⟩ := Raise.bind_some.mp h
  unfold turn
  rw [Atomic.run_cons (loopStep_of_exec .check hcheck),
    Atomic.run_cons (loopStep_of_exec (.execute deltaTime) hexecute),
    Atomic.run_cons (loopStep_of_exec (.animate deltaTime) hanimate)]
  rfl

theorem run_not_raised {s t : Running} (h : Atomic.run (loopStep script) s inputs = some t)
    (ht : t.raised = false) : s.raised = false := by
  cases inputs with
  | nil =>
    cases h
    exact ht
  | cons input inputs =>
    cases hs : s.raised with
    | false => rfl
    | true => simp [Atomic.run, loopStep, hs] at h

/-- Edits leave the group's registrations alone, a reload finds it at rest,
and while mocks are executed or animated the others are no concern of it. -/
def Calm (script : Script) (G : Group) (s : Running) : LoopInput → Prop
  | .edit e => G.Registered script (edit e s.service).registry
  | .check => isChanged s.service = true → G.Registered script (runMockPy script s.service).registry ∧
    ∀ ρ, G.Placed ρ s.service → AtRest G ρ s.service
  | .execute _ | .animate _ => ∀ ρ, G.Placed ρ s.service → Apart G ρ s.service
  | .receive .. | .setExternally .. => True

theorem Loaded.environment (h : Loaded s) (registry : Registry) (pending : List Event)
    (broker : Path → Option Value) :
    Loaded { s with registry := registry, pending := pending, broker := broker } :=
  ⟨h.paths, h.refs, h.allocated, h.path, h.hasListener⟩

theorem Footing.environment (h : Footing script G ρ s) (pending : List Event)
    (broker : Path → Option Value) (hd : registry.Distinct) (hr : G.Registered script registry) :
    Footing script G ρ { s with registry := registry, pending := pending, broker := broker } where
  loaded := h.loaded.environment registry pending broker
  distinct := hd
  registered := hr
  placed := h.placed
  dataType := h.dataType
  grip := ⟨⟨h.grip.listens, h.grip.reads⟩, h.grip.path, h.grip.hasListener⟩
  tied := ⟨h.tied.allocated, h.tied.animators⟩

theorem Footing.edit {e : Edit} (h : Footing script G ρ s)
    (hr : G.Registered script (edit e s).registry) :
    Footing script G ρ (Mock.edit e s) ∧ View G ρ ρ s (Mock.edit e s) := by
  refine ⟨h.environment s.pending s.broker (h.distinct.edit _ e) hr, ?_⟩
  have halike : Alike G ρ ρ s s := ⟨.refl G ρ s, h.grip⟩
  have hedited : Alike G ρ ρ s (Mock.edit e s) := halike.registry
  exact hedited.1

theorem Footing.check {s : Running} (h : Footing script G ρ s.service) (hc : Calm script G s .check)
    (hexec : (checkForNewMocks script false).exec s.service = (some (), t)) :
    ∃ ρ', Footing script G ρ' t ∧ View G ρ ρ' s.service t := by
  cases hchanged : isChanged s.service with
  | false =>
    rw [exec_check_unchanged hchanged] at hexec
    cases hexec
    exact ⟨ρ, h, .refl G ρ _⟩
  | true =>
    rw [exec_check_changed hchanged] at hexec
    obtain ⟨hr, hrest⟩ := hc hchanged
    exact h.reload hr (hrest ρ h.placed) hexec

theorem Together.receive (h : Together script G s t) (name : EventType) (path : Path) (value : Value) :
    Together script G (Mock.receive name path value s) (Mock.receive name path value t) := by
  unfold Mock.receive
  split
  · obtain ⟨ρ, ρ', hview, hs, ht⟩ := h
    have halike : Alike G ρ ρ' s t := ⟨hview, hs.grip⟩
    refine ⟨ρ, ρ', (halike.pending fun k hk => ?_).1, ?_, ?_⟩
    · simp only [List.filter_append, hview.pending k hk]
    · exact hs.environment _ s.broker hs.distinct hs.registered
    · exact ht.environment _ t.broker ht.distinct ht.registered
  · exact h

theorem Together.setExternally (h : Together script G s t) (path : Path) (value : Value) :
    Together script G (Mock.setExternally path value s) (Mock.setExternally path value t) := by
  obtain ⟨ρ, ρ', hview, hs, ht⟩ := h
  have halike : Alike G ρ ρ' s t := ⟨hview, hs.grip⟩
  refine ⟨ρ, ρ', (halike.broker fun q hq => ?_).1, ?_, ?_⟩
  · by_cases heq : q = path
    · simp [heq]
    · simpa [heq] using hview.broker q hq
  · exact hs.environment s.pending _ hs.distinct hs.registered
  · exact ht.environment t.pending _ ht.distinct ht.registered

theorem Together.step {s t s' t' : Running} (hl : G.Local script)
    (h : Together script G s.service t.service) (hs : Calm script G s input)
    (ht : Calm script G t input) (hexec : (input.program script).exec s.service = (some (), s'.service))
    (hexec' : (input.program script).exec t.service = (some (), t'.service)) :
    Together script G s'.service t'.service := by
  cases input with
  | edit e =>
    simp only [LoopInput.program, Raise.exec_atomic, Prod.mk.injEq, true_and] at hexec hexec'
    obtain ⟨ρ, ρ', hview, hf, hf'⟩ := h
    obtain ⟨hedit, hview₁⟩ := hf.edit hs
    obtain ⟨hedit', hview₂⟩ := hf'.edit ht
    rw [← hexec, ← hexec']
    exact ⟨ρ, ρ', (hview₁.symm.trans hview).trans hview₂, hedit, hedit'⟩
  | check =>
    obtain ⟨ρ, ρ', hview, hf, hf'⟩ := h
    obtain ⟨ρ₁, hcheck, hview₁⟩ := hf.check hs hexec
    obtain ⟨ρ₂, hcheck', hview₂⟩ := hf'.check ht hexec'
    exact ⟨ρ₁, ρ₂, (hview₁.symm.trans hview).trans hview₂, hcheck, hcheck'⟩
  | execute deltaTime => exact h.execute hl hs ht hexec hexec'
  | animate deltaTime => exact h.animate hs ht hexec hexec'
  | receive name path value =>
    simp only [LoopInput.program, Raise.exec_atomic, Prod.mk.injEq, true_and] at hexec hexec'
    rw [← hexec, ← hexec']
    exact h.receive name path value
  | setExternally path value =>
    simp only [LoopInput.program, Raise.exec_atomic, Prod.mk.injEq, true_and] at hexec hexec'
    rw [← hexec, ← hexec']
    exact h.setExternally path value

theorem Together.run {s t s' t' : Running} (hl : G.Local script)
    (h : Together script G s.service t.service) (hs : Along (loopStep script) (Calm script G) s inputs)
    (ht : Along (loopStep script) (Calm script G) t inputs)
    (hrun : Atomic.run (loopStep script) s inputs = some s') (hr : s'.raised = false)
    (hrun' : Atomic.run (loopStep script) t inputs = some t') (hr' : t'.raised = false) :
    Together script G s'.service t'.service := by
  induction inputs generalizing s t with
  | nil =>
    cases hrun
    cases hrun'
    exact h
  | cons input inputs ih =>
    cases hstep : loopStep script s input with
    | none => simp [Atomic.run, hstep] at hrun
    | some s₁ =>
      cases hstep' : loopStep script t input with
      | none => simp [Atomic.run, hstep'] at hrun'
      | some t₁ =>
        rw [Atomic.run_cons hstep] at hrun
        rw [Atomic.run_cons hstep'] at hrun'
        rw [Atomic.along_cons hstep] at hs
        rw [Atomic.along_cons hstep'] at ht
        obtain ⟨-, hexec⟩ := loopStep_some hstep (run_not_raised hrun hr)
        obtain ⟨-, hexec'⟩ := loopStep_some hstep' (run_not_raised hrun' hr')
        exact ih (h.step hl hs.1 ht.1 hexec hexec') hs.2 ht.2 hrun hrun'

theorem Footing.run {s t : Running} (hl : G.Local script) (h : Footing script G ρ s.service)
    (hc : Along (loopStep script) (Calm script G) s inputs)
    (hrun : Atomic.run (loopStep script) s inputs = some t) (hr : t.raised = false) :
    ∃ ρ', Footing script G ρ' t.service := by
  have htogether : Together script G s.service s.service := ⟨ρ, ρ, .refl G ρ _, h, h⟩
  obtain ⟨ρ', _, -, hfooting, -⟩ := htogether.run hl hc hc hrun hr hrun hr
  exact ⟨ρ', hfooting⟩

/-- From every state with the group loaded, with an edit and without it: two
runs of the main loop over the same events, both along the condition and
without an exception, assign every datapoint of the group the same values. -/
theorem edit_isolated (script : Script) (G : Group) (hl : G.Local script) (ρ : Path → Ref) (e : Edit)
    (inputs : List LoopInput) (s t u : Running) (hf : Footing script G ρ s.service)
    (hedited : Along (loopStep script) (Calm script G) s (.edit e :: inputs))
    (hplain : Along (loopStep script) (Calm script G) s inputs)
    (ht : Atomic.run (loopStep script) s (.edit e :: inputs) = some t) (htr : t.raised = false)
    (hu : Atomic.run (loopStep script) s inputs = some u) (hur : u.raised = false) :
    ∀ p ∈ G.paths, assignedTo p t.service.log = assignedTo p u.service.log := by
  cases hstep : loopStep script s (.edit e) with
  | none => simp [Atomic.run, hstep] at ht
  | some s₁ =>
    rw [Atomic.run_cons hstep] at ht
    rw [Atomic.along_cons hstep] at hedited
    obtain ⟨-, hexec⟩ := loopStep_some hstep (run_not_raised ht htr)
    simp only [LoopInput.program, Raise.exec_atomic, Prod.mk.injEq, true_and] at hexec
    obtain ⟨hf₁, hview⟩ := hf.edit hedited.1
    rw [hexec] at hf₁ hview
    have htogether : Together script G s₁.service s.service := ⟨ρ, ρ, hview.symm, hf₁, hf⟩
    obtain ⟨_, _, hend, -, -⟩ := htogether.run hl hedited.2 hplain ht htr hu hur
    exact hend.assigned

-- ---------------------------------------------------------------------------
-- A horn beside the lamp
-- ---------------------------------------------------------------------------

/-- A lamp that takes what is requested, and the behavior of a horn. -/
def Service.benchLamp : Service :=
  { Service.bench with
    heap := ⟨fun r => .event ⟨.actuatorTarget, some (if r = 0 then "Lamp" else "Horn")⟩,
      fun r => .set (if r = 0 then ⟨.text "$event.value", true⟩ else ⟨.number 1, false⟩)⟩
    registry := ⟨[⟨"Lamp", .number 0, 0⟩], fun r => [⟨r, 0, r⟩], []⟩
    mocked := [("Lamp", ⟨0, true, [⟨0, 0, 0⟩]⟩)] }

def Group.bench : Group where
  registrations := [⟨"Lamp", .number 0, 0⟩]
  behaviors _ := [⟨0, 0, 0⟩]
  reads := ∅
  events := {(.actuatorTarget, "Lamp")}

theorem has_bench (h : Group.bench.Has b) : b = ⟨0, 0, 0⟩ := by
  obtain ⟨p, -, hb⟩ := h
  exact List.mem_singleton.mp hb

theorem watches_bench (p : Path) : ¬ Group.bench.Watches p := by
  rintro (h | h)
  · exact h
  · cases h

theorem local_bench : Group.bench.Local .bench := by
  intro b hb c c' _ _ _ _
  rw [has_bench hb]
  rfl

theorem footing_bench : Footing .bench .bench (fun _ => 0) .benchLamp where
  loaded := ⟨by decide, by decide, by decide, by decide, by decide⟩
  distinct := ⟨by decide, by decide⟩
  registered := ⟨by decide, by decide⟩
  placed := by
    unfold Group.Placed
    decide
  dataType := by decide
  grip := by
    refine ⟨⟨fun p hp b hb t ht => ?_, fun p hp b hb v hv q hq => ?_⟩, by decide, by decide⟩
    · cases List.mem_singleton.mp hb
      cases ht
      rfl
    · cases List.mem_singleton.mp hb
      cases List.mem_singleton.mp hv
      cases hq
  tied := by
    refine ⟨by decide, fun b hb a ha => ?_⟩
    rw [has_bench hb] at ha
    cases ha

theorem apart_bench (hm : s.mocked = [("Lamp", lamp), ("Horn", ⟨r, true, [⟨1, 0, 1⟩]⟩)])
    (ht : s.heap.triggers 1 = .event ⟨.actuatorTarget, some "Horn"⟩)
    (ha : s.heap.actions 1 = .set a) : Apart .bench ρ s := by
  intro e he hne c hc
  rw [hm] at he
  simp only [List.mem_cons, List.not_mem_nil, or_false] at he
  rcases he with rfl | rfl
  · exact absurd List.mem_cons_self hne
  · cases List.mem_singleton.mp hc
    refine ⟨watches_bench _, fun b hb => ?_, fun b hb => ?_, fun t htrigger => ?_, fun a' ha' => ?_⟩
    · rw [has_bench hb]
      decide
    · rw [has_bench hb]
      decide
    · rw [ht] at htrigger
      cases htrigger
      intro hmem
      have hpath : "Horn" = "Lamp" := congrArg Prod.snd hmem
      exact absurd hpath (by decide)
    · rw [ha] at ha'
      cases ha'

theorem apart_bench_alone (hm : s.mocked = [("Lamp", lamp)]) : Apart .bench ρ s := by
  intro e he hne
  rw [hm] at he
  cases List.mem_singleton.mp he
  exact absurd List.mem_cons_self hne

def benchRequest : List LoopInput := .receive .actuatorTarget "Lamp" (.number 5) :: turn 1

theorem edit_isolated_bench :
    ∃ t u, Atomic.run (loopStep .bench) ⟨.benchLamp, false⟩
        (.edit (.mockDatapoint "Horn" (.number 0) 1) :: benchRequest) = some t ∧
      Atomic.run (loopStep .bench) ⟨.benchLamp, false⟩ benchRequest = some u ∧
      t.service.mocked.map Prod.fst = ["Lamp", "Horn"] ∧
      u.service.mocked.map Prod.fst = ["Lamp"] ∧ assignedTo "Lamp" t.service.log = [.number 5] ∧
      assignedTo "Lamp" u.service.log = [.number 5] := by
  have hsame := edit_isolated .bench .bench local_bench (fun _ => 0) (.mockDatapoint "Horn" (.number 0) 1)
    benchRequest ⟨.benchLamp, false⟩ _ _ footing_bench
    (by
      refine ⟨⟨by decide, by decide⟩, trivial, fun _ => ⟨⟨by decide, by decide⟩, fun ρ _ => ?_⟩,
        fun ρ _ => apart_bench rfl rfl rfl, fun ρ _ => apart_bench rfl rfl rfl, trivial⟩
      refine ⟨fun b hb p _ => ?_, fun d _ hw => absurd hw (watches_bench _)⟩
      rw [has_bench hb]
      rfl)
    (by
      refine ⟨trivial, fun h => absurd h (by decide), fun ρ _ => apart_bench_alone rfl,
        fun ρ _ => apart_bench_alone rfl, trivial⟩)
    rfl (by decide) rfl (by decide) "Lamp" List.mem_cons_self
  refine ⟨_, _, rfl, rfl, by decide, by decide, ?_, by decide⟩
  rw [hsame]
  decide

-- ---------------------------------------------------------------------------
-- An animation that is playing
-- ---------------------------------------------------------------------------

def Script.benchFade : Script :=
  { Script.bench with
    interp1d := fun values duration =>
      if values = [.number 0, .number 10] ∧ duration = 10
      then some fun t => .number (if t < 0 then 0 else if 10 < t then 10 else t) else none }

def Service.benchFade : Service :=
  { Service.bench with
    heap := ⟨fun _ => .event ⟨.actuatorTarget, some "Lamp"⟩,
      fun _ => .animation ⟨10, .once, [.number 0, .number 10], false, none⟩⟩
    registry := ⟨[⟨"Lamp", .number 0, 0⟩], fun r => if r = 0 then [⟨0, 0, 0⟩] else [], []⟩
    mocked := [] }

def benchFading : List LoopInput :=
  [.check, .receive .actuatorTarget "Lamp" (.number 5), .execute 1, .animate 1]

def fadingOf (s : Running) : List Registration × List Behavior × Bool × List Value :=
  (s.service.registry.mocked.filter (·.path = "Lamp"), s.service.registry.lists 0, s.raised,
    assignedTo "Lamp" s.service.log)

/-- With a horn mocked in the middle of it, the lamp stops fading in. -/
theorem animation_lost :
    (Atomic.run (loopStep .benchFade) ⟨.benchFade, false⟩
        (benchFading ++ .edit (.mockDatapoint "Horn" (.number 0) 1) :: turn 1)).map fadingOf =
      some ([⟨"Lamp", .number 0, 0⟩], [⟨0, 0, 0⟩], false, [.number 1]) ∧
    (Atomic.run (loopStep .benchFade) ⟨.benchFade, false⟩ (benchFading ++ turn 1)).map fadingOf =
      some ([⟨"Lamp", .number 0, 0⟩], [⟨0, 0, 0⟩], false, [.number 1, .number 2]) := by
  constructor <;> decide +kernel

end KuksaServices.Mock
