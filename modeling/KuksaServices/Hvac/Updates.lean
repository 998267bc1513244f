import KuksaServices.Atomic.Parallel
import KuksaServices.Hvac.Connection

/-!
# The updates of the HVAC service

The handlers read the ids while the callback and `_run` write them, and
nothing keeps them apart, so an id may be outdated. But it is always one that
the broker has answered for the name it is sent for, and no request is fed
twice or made up (`updates_genuine`).
-/

namespace KuksaServices.Hvac

open Atomic Prog

-- ---------------------------------------------------------------------------
-- What is asked and what is granted
-- ---------------------------------------------------------------------------

def Task.asks : Task → Option DatapointValue
  | .setTemperature temperature _ => some (.floatValue temperature)
  | .setAcStatus status _ => some (.boolValue status)
  | .notify .. | .iterate _ => none

def askedBy : Move Thread Task → Option DatapointValue
  | .start _ task => task.asks
  | .step _ => none

def DatapointValue.datapoint : DatapointValue → RegistrationMetadata
  | .floatValue _ => desiredAmbientAirTemperature
  | .boolValue _ => isAirConditioningActive

def Task.outcomes : Task → Option RegisterOutcomes
  | .notify c outcomes => if c.up then some outcomes else none
  | .iterate outcomes => some outcomes
  | .setTemperature .. | .setAcStatus .. => none

/-- The broker answers the id for this name; it is asked for the temperature
once the first call has succeeded. -/
inductive RegisterOutcomes.Grants (outcomes : RegisterOutcomes) : String → Int → Prop
  | ac (id : Int) : outcomes.ac = .id id → outcomes.Grants isAirConditioningActive.name id
  | temp (first id : Int) : outcomes.ac = .id first → outcomes.temp = .id id →
    outcomes.Grants desiredAmbientAirTemperature.name id

def Granted (moves : List (Move Thread Task)) (name : String) (id : Int) : Prop :=
  ∃ t task, .start t task ∈ moves ∧ ∃ outcomes ∈ task.outcomes, outcomes.Grants name id

-- ---------------------------------------------------------------------------
-- Ids
-- ---------------------------------------------------------------------------

section
variable {grants : String → Int → Prop}

structure Matched (grants : String → Int → Prop) (s : HvacService) : Prop where
  ids : ∀ name stored, s.ids.lookup name = some stored → grants name stored.id
  sent : ∀ request ∈ s.notes.sent, grants request.value.datapoint.name request.id

theorem Matched.storeId {id : StoredId} (h : Matched grants s) (hid : grants name id.id) :
    Matched grants (s.storeId name id) := by
  refine ⟨fun name' stored hstored => ?_, h.sent⟩
  by_cases hname : name' = name
  · subst hname
    simp only [HvacService.storeId, AList.lookup_insert, Option.some.injEq] at hstored
    exact hstored ▸ hid
  · simp only [HvacService.storeId, AList.lookup_insert_ne hname] at hstored
    exact h.ids name' stored hstored

abbrev Matches (grants : String → Int → Prop) (p : Py α) : Prop := Within (fun _ => True) (Matched grants) p

theorem matches_atomic {f : HvacService → α × HvacService} (hids : ∀ s, (f s).2.ids = s.ids)
    (hsent : ∀ s, (f s).2.notes.sent = s.notes.sent) : Matches grants (Prog.atomic l f) := by
  refine .atomic trivial fun s hs => ⟨?_, ?_⟩
  · rw [hids]
    exact hs.ids
  · rw [hsent]
    exact hs.sent

theorem matches_peek {f : HvacService → α} : Matches grants (Prog.peek l f) :=
  matches_atomic (fun _ => rfl) fun _ => rfl

theorem register_matches {datapoint : RegistrationMetadata} {outcome : RegisterOutcome}
    (h : ∀ id, outcome = .id id → grants datapoint.name id) :
    Triple (.within (fun _ => True) (Matched grants)) (Matched grants) (register rpc store datapoint call outcome)
      fun ok s => Matched grants s ∧ (ok = true → ∃ id, outcome = .id id) := by
  refine Triple.bind (B := fun _ => Matched grants) (matches_atomic (fun _ => rfl) fun _ => rfl) fun _ => ?_
  cases outcome with
  | id id =>
    have hstore : Matches grants (Prog.atomic store fun s => ((), s.storeId datapoint.name ⟨id, call⟩)) :=
      .atomic trivial fun s hs => hs.storeId (h id rfl)
    exact Triple.bind hstore fun _ s hs t hr => ⟨hr hs, fun _ => ⟨id, rfl⟩⟩
  | rpcError code => exact fun s hs t hr => ⟨hr hs, fun hok => absurd hok Bool.false_ne_true⟩
  | exception => exact fun s hs t hr => ⟨hr hs, fun hok => absurd hok Bool.false_ne_true⟩

theorem registerDatapoints_matches {outcomes : RegisterOutcomes}
    (h : ∀ name id, outcomes.Grants name id → grants name id) : Matches grants (registerDatapoints outcomes) := by
  refine .bind (matches_atomic (fun _ => rfl) fun _ => rfl) fun call => ?_
  refine Triple.bind (register_matches fun id hid => h _ _ (.ac id hid)) fun ac => ?_
  cases ac with
  | false => exact (Within.pure false).conseq (fun _ hs => hs.1) fun _ _ hs => hs
  | true =>
    intro s hs
    obtain ⟨first, hfirst⟩ := hs.2 rfl
    have htemp : ∀ id, outcomes.temp = .id id → grants desiredAmbientAirTemperature.name id :=
      fun id hid => h _ _ (.temp first id hfirst hid)
    refine Triple.bind (register_matches htemp) (fun temp => ?_) s hs.1
    refine Triple.conseq ?_ (fun _ hs => hs.1) fun _ _ hs => hs
    cases temp with
    | false => exact Within.pure false
    | true => exact Within.bind (matches_atomic (fun _ => rfl) fun _ => rfl) fun _ => .pure true

theorem tryRegister_matches {outcomes : RegisterOutcomes}
    (h : ∀ name id, outcomes.Grants name id → grants name id) : Matches grants (tryRegister outcomes) := by
  refine .bind (registerDatapoints_matches h) fun ok => ?_
  cases ok with
  | true => exact matches_atomic (fun _ => rfl) fun _ => rfl
  | false => exact .pure ()

theorem setDatapoint_matches {outcome : UpdateOutcome} (hvalue : value.datapoint.name = name) :
    Matches grants (setDatapoint name value outcome) := by
  have hlookup : Triple (.within (fun _ => True) (Matched grants)) (Matched grants)
      (Prog.peek (.lookup : Site) fun s => s.ids.lookup name)
      fun id s => Matched grants s ∧ ∀ stored, id = some stored → grants name stored.id :=
    .atomic trivial (fun _ _ h hr => hr h) (fun _ _ _ h hr => ⟨hr h.1, h.2⟩)
      fun s hs _ => ⟨fun h => h, hs, hs.ids name⟩
  refine hlookup.bind fun id => ?_
  cases id with
  | none => exact (Within.pure false).conseq (fun _ h => h.1) fun _ _ h => h
  | some stored =>
    intro s hs
    have hgrants := hs.2 stored rfl
    have hsend : Matches grants (Prog.atomic (.send : Site) fun s : HvacService => ((), { s with notes :=
        { s.notes with sent := s.notes.sent ++ [⟨stored.id, value⟩] } })) := by
      refine .atomic trivial fun s hs => ⟨hs.ids, fun request hrequest => ?_⟩
      rcases List.mem_append.mp hrequest with hrequest | hrequest
      · exact hs.sent request hrequest
      · obtain rfl := List.mem_singleton.mp hrequest
        rwa [hvalue]
    refine Within.bind hsend (fun _ => ?_) s hs.1
    cases outcome with
    | ok => exact .pure true
    | rpcError code => exact .bind (matches_atomic (fun _ => rfl) fun _ => rfl) fun _ => .pure false

theorem notify_matches {outcomes : RegisterOutcomes} (c : Connectivity)
    (h : c.up = true → ∀ name id, outcomes.Grants name id → grants name id) :
    Matches grants (onBrokerConnectivityChange c outcomes) := by
  refine .bind (matches_atomic (fun _ => rfl) fun _ => rfl) fun changed => ?_
  cases hc : c.up with
  | true =>
    refine .bind matches_peek fun connected => ?_
    cases connected with
    | true => exact .pure ()
    | false => exact .bind (tryRegister_matches (h hc)) fun _ => matches_atomic (fun _ => rfl) fun _ => rfl
  | false =>
    exact .bind (matches_atomic (fun _ => rfl) fun _ => rfl) fun _ => matches_atomic (fun _ => rfl) fun _ => rfl

theorem runIteration_matches {outcomes : RegisterOutcomes}
    (h : ∀ name id, outcomes.Grants name id → grants name id) : Matches grants (runIteration outcomes) := by
  refine .bind matches_peek fun shutdown => ?_
  cases shutdown with
  | true => exact .pure ()
  | false =>
    refine .bind matches_peek fun connected => ?_
    cases connected with
    | false => exact .pure ()
    | true =>
      refine .bind matches_peek fun registered => ?_
      cases registered with
      | true => exact .pure ()
      | false => exact tryRegister_matches h

theorem code_matches (task : Task)
    (h : ∀ outcomes ∈ task.outcomes, ∀ name id, outcomes.Grants name id → grants name id) :
    Matches grants task.code := by
  cases task with
  | notify c outcomes => exact notify_matches c fun hc => h outcomes (by simp [Task.outcomes, hc])
  | iterate outcomes => exact runIteration_matches (h outcomes rfl)
  | setTemperature temperature outcome => exact .bind (setDatapoint_matches rfl) fun _ => .pure ()
  | setAcStatus status outcome => exact .bind (setDatapoint_matches rfl) fun _ => .pure ()

end

-- ---------------------------------------------------------------------------
-- Requests
-- ---------------------------------------------------------------------------

def timesSent (value : DatapointValue) (s : HvacService) : Nat := (s.notes.sent.map (·.value)).count value

structure Aside (s t : HvacService) : Prop where
  sent : t.notes.sent = s.notes.sent
  shutdown : t.shutdown = s.shutdown

theorem tryRegister_aside (outcomes : RegisterOutcomes) : (tryRegister outcomes).Does Aside := by
  have hregister : ∀ rpc store datapoint call outcome,
      (register rpc store datapoint call outcome).Does Aside := by
    intro rpc store datapoint call outcome
    refine .bind (.atomic fun _ => ⟨rfl, rfl⟩) fun _ => ?_
    cases outcome with
    | id id => exact .bind (.atomic fun _ => ⟨rfl, rfl⟩) fun _ => .pure true
    | rpcError code => exact .pure false
    | exception => exact .pure false
  refine .bind (.bind (.atomic fun _ => ⟨rfl, rfl⟩) fun call => ?_) fun ok => ?_
  · refine .bind (hregister _ _ _ _ _) fun ac => ?_
    cases ac with
    | false => exact .pure false
    | true =>
      refine .bind (hregister _ _ _ _ _) fun temp => ?_
      cases temp with
      | false => exact .pure false
      | true => exact .bind (.atomic fun _ => ⟨rfl, rfl⟩) fun _ => .pure true
  · cases ok with
    | false => exact .pure ()
    | true => exact .atomic fun _ => ⟨rfl, rfl⟩

theorem notify_aside (c : Connectivity) (outcomes : RegisterOutcomes) :
    (onBrokerConnectivityChange c outcomes).Does Aside := by
  refine .bind (.atomic fun _ => ⟨rfl, rfl⟩) fun changed => ?_
  cases hc : c.up with
  | false => exact .bind (.atomic fun _ => ⟨rfl, rfl⟩) fun _ => .atomic fun _ => ⟨rfl, rfl⟩
  | true =>
    refine .bind (.atomic fun _ => ⟨rfl, rfl⟩) fun connected => ?_
    cases connected with
    | true => exact .pure ()
    | false => exact .bind (tryRegister_aside outcomes) fun _ => .atomic fun _ => ⟨rfl, rfl⟩

theorem runIteration_aside (outcomes : RegisterOutcomes) : (runIteration outcomes).Does Aside := by
  refine .bind (.atomic fun _ => ⟨rfl, rfl⟩) fun shutdown => ?_
  cases shutdown with
  | true => exact .pure ()
  | false =>
    refine .bind (.atomic fun _ => ⟨rfl, rfl⟩) fun connected => ?_
    cases connected with
    | false => exact .pure ()
    | true =>
      refine .bind (.atomic fun _ => ⟨rfl, rfl⟩) fun registered => ?_
      cases registered with
      | true => exact .pure ()
      | false => exact tryRegister_aside outcomes

/-- A handler sends its own value once. -/
theorem setDatapoint_costs (name : String) (fed value : DatapointValue) (outcome : UpdateOutcome) :
    (setDatapoint name fed outcome).Costs (timesSent value) (if some fed = some value then 1 else 0) := by
  have hlookup : (Prog.peek (.lookup : Site) fun s : HvacService => s.ids.lookup name).Costs (timesSent value) 0 :=
    .atomic fun _ => Nat.le_refl _
  rw [← Nat.zero_add (ite _ _ _)]
  refine .bind hlookup fun id => ?_
  cases id with
  | none => exact .pure false
  | some stored =>
    have hsend : (Prog.atomic (.send : Site) fun s : HvacService => ((), { s with notes :=
        { s.notes with sent := s.notes.sent ++ [⟨stored.id, fed⟩] } })).Costs (timesSent value)
          (if some fed = some value then 1 else 0) := by
      refine .atomic fun s => ?_
      simp [timesSent, List.count_singleton]
    refine .bind (m := 0) hsend fun _ => ?_
    cases outcome with
    | ok => exact .pure true
    | rpcError code =>
      have hfailed : (Prog.atomic (.failed : Site) fun s : HvacService => ((), { s with
          connected := isGrpcFatalError code
          notes := { s.notes with fatal := s.notes.fatal || isGrpcFatalError code } })).Costs
            (timesSent value) 0 := .atomic fun _ => Nat.le_refl _
      exact .bind (m := 0) hfailed fun _ => .pure false

theorem code_costs (task : Task) (value : DatapointValue) :
    task.code.Costs (timesSent value) (if task.asks = some value then 1 else 0) := by
  have hsame : ∀ s t, Aside s t → timesSent value t ≤ timesSent value s := by
    intro s t h
    rw [timesSent, timesSent, h.sent]
  cases task with
  | notify c outcomes => exact (notify_aside c outcomes).costs hsame
  | iterate outcomes => exact (runIteration_aside outcomes).costs hsame
  | setTemperature temperature outcome =>
    exact .bind (m := 0) (setDatapoint_costs _ _ value outcome) fun _ => .pure ()
  | setAcStatus status outcome =>
    exact .bind (m := 0) (setDatapoint_costs _ _ value outcome) fun _ => .pure ()

-- ---------------------------------------------------------------------------
-- Runs
-- ---------------------------------------------------------------------------

theorem taskCode_some {s : HvacService} (h : taskCode task t s = some c) : c = task.code := by
  unfold taskCode at h
  split at h <;> first | exact (Option.some.inj h).symm | cases h

theorem spent_eq_count (moves : List (Move Thread Task)) (value : DatapointValue) :
    Pool.spent (fun task : Task => if task.asks = some value then 1 else 0) moves =
      (moves.filterMap askedBy).count value := by
  induction moves with
  | nil => rfl
  | cons m moves ih =>
    rw [Pool.spent, ih]
    cases m with
    | step t => simp [Pool.price, List.filterMap_cons, askedBy]
    | start t task =>
      cases hasks : task.asks with
      | none => simp [Pool.price, askedBy, hasks]
      | some asked => simp [Pool.price, askedBy, hasks, List.count_cons, Nat.add_comm]

/-- Over every interleaving of the callback, `_run` and the handlers, whatever
the broker answers and the connection does. -/
theorem updates_genuine {p : Pool Thread Site HvacService} {moves : List (Move Thread Task)}
    (hrun : run hvacSections.step (.idle .initial) moves = some p) :
    (∀ request ∈ p.shared.notes.sent, Granted moves request.value.datapoint.name request.id) ∧
      ∀ value, timesSent value p.shared ≤ (moves.filterMap askedBy).count value := by
  constructor
  · have hcode : ∀ t task s c, .start t task ∈ moves → hvacSections.code task t s = some c →
        Matches (Granted moves) c := by
      intro t task s c hmem hc
      obtain rfl := taskCode_some (s := s) hc
      exact code_matches task fun outcomes ho name id hg => ⟨t, task, hmem, outcomes, ho, hg⟩
    have hinitial : Matched (Granted moves) .initial :=
      ⟨fun _ _ h => absurd h (by simp [HvacService.initial]), fun _ h => absurd h (by simp [HvacService.initial])⟩
    exact ((Pool.keeping_run hcode (Pool.keeping_idle hinitial)).last hrun).1.sent
  · intro value
    have hcosts : ∀ t task s c, hvacSections.code task t s = some c →
        c.Costs (timesSent value) (if task.asks = some value then 1 else 0) := by
      intro t task s c hc
      obtain rfl := taskCode_some (s := s) hc
      exact code_costs task value
    calc timesSent value p.shared
        ≤ timesSent value .initial + _ := Pool.measure_le hcosts hrun
      _ = (moves.filterMap askedBy).count value := by
        rw [spent_eq_count]
        exact Nat.zero_add _

/-- The two updates go out under the ids of their names. -/
theorem updates_genuine_reconnected : ∃ p, run hvacSections.step (.idle .initial) reconnected = some p ∧
    p.shared.notes.sent = [⟨2, .floatValue 0⟩, ⟨3, .boolValue true⟩] ∧
    (∀ request ∈ p.shared.notes.sent, Granted reconnected request.value.datapoint.name request.id) ∧
    ∀ value, timesSent value p.shared ≤ (reconnected.filterMap askedBy).count value := by
  have hsent : (run hvacSections.step (.idle .initial) reconnected).map (·.shared.notes.sent) =
      some [⟨2, .floatValue 0⟩, ⟨3, .boolValue true⟩] := by decide
  obtain ⟨p, hrun, hsent⟩ := Option.map_eq_some_iff.mp hsent
  exact ⟨p, hrun, hsent, updates_genuine hrun⟩

end KuksaServices.Hvac
