import KuksaServices.Atomic.Pool
import KuksaServices.Hvac.Service

/-!
# The connection to the databroker

Two attributes tell about the connection. `_connected` follows the channel's
notifications, and both handlers set it on an RPC error, but the wrong way
round: it is true exactly when it should be in the runs in which no
`UpdateDatapoints` fails, or only harmlessly while it is false already
(`connected_truthful_iff`).

`_registered` stands for ids that the current connection has given out. The
callback and `_run` register without excluding each other or a reconnect, and
the handlers use the ids without looking at the flag. Where registrations and
reconnects do not overlap and the handlers only send under the flag, the ids
are those of the current connection (`current_ids`).
-/

namespace KuksaServices.Hvac

open Atomic Atomic.Prog

-- ---------------------------------------------------------------------------
-- The connected flag
-- ---------------------------------------------------------------------------

def taskStep (s : HvacService) (task : Task) : Option HvacService := some (task.code.exec s).2

/-- The last notification was a connected state, and no fatal RPC error came
since. -/
def HvacService.reachable (s : HvacService) : Bool := s.notes.up && !s.notes.fatal

def HvacService.Truthful (s : HvacService) : Prop := s.connected = s.reachable

instance : DecidablePred HvacService.Truthful := fun _ => inferInstanceAs (Decidable (_ = _))

def Task.updateError : Task → Option (String × StatusCode)
  | .setTemperature _ (.rpcError code) => some (desiredAmbientAirTemperature.name, code)
  | .setAcStatus _ (.rpcError code) => some (isAirConditioningActive.name, code)
  | _ => none

/-- An `UpdateDatapoints` that is sent does not fail, or it fails with a
non-fatal error while the flag is false already. -/
def Harmless (s : HvacService) (task : Task) : Prop :=
  ∀ e ∈ task.updateError, (s.ids.lookup e.1).isSome = true →
    isGrpcFatalError e.2 = false ∧ s.connected = false

section
variable {s : HvacService}

structure SameChannel (s t : HvacService) : Prop where
  connected : t.connected = s.connected
  up : t.notes.up = s.notes.up
  fatal : t.notes.fatal = s.notes.fatal

theorem SameChannel.refl (s : HvacService) : SameChannel s s := ⟨rfl, rfl, rfl⟩

theorem register_sameChannel (v : HvacService) (rpc store : Site) (datapoint : RegistrationMetadata)
    (call : Nat) (outcome : RegisterOutcome) :
    Preserves (SameChannel v) (register rpc store datapoint call outcome) := by
  unfold register
  refine .bind (.pause _) fun _ => ?_
  cases outcome with
  | id id => exact .bind (.atomic fun _ h => ⟨h.connected, h.up, h.fatal⟩) fun _ => .pure _
  | rpcError code => exact .pure _
  | exception => exact .pure _

theorem tryRegister_sameChannel (v : HvacService) (outcomes : RegisterOutcomes) :
    Preserves (SameChannel v) (tryRegister outcomes) := by
  refine .bind ?_ fun ok => ?_
  · refine .bind (.atomic fun _ h => ⟨h.connected, h.up, h.fatal⟩) fun call => ?_
    refine .bind (register_sameChannel v _ _ _ _ _) fun ac => ?_
    split
    · refine .bind (register_sameChannel v _ _ _ _ _) fun temp => ?_
      split
      · exact .bind (.atomic fun _ h => ⟨h.connected, h.up, h.fatal⟩) fun _ => .pure _
      · exact .pure _
    · exact .pure _
  · split
    · exact .atomic fun _ h => ⟨h.connected, h.up, h.fatal⟩
    · exact .pure _

theorem notify_truthful (s : HvacService) (c : Connectivity) (outcomes : RegisterOutcomes) :
    ((onBrokerConnectivityChange c outcomes).exec s).2.Truthful := by
  cases hc : c.up with
  | false =>
    simp [onBrokerConnectivityChange, hc, HvacService.Truthful, HvacService.reachable,
      HvacService.notified]
  | true =>
    have hsame := (tryRegister_sameChannel (s.notified c) outcomes).exec (.refl _)
    cases hcon : s.connected with
    | true =>
      simp [onBrokerConnectivityChange, hc, hcon, HvacService.Truthful, HvacService.reachable,
        HvacService.notified]
    | false =>
      have hcon' : (s.notified c).connected = false := hcon
      simp only [onBrokerConnectivityChange, exec_bind, exec_atomic, hc, if_true, exec_peek,
        hcon', Bool.false_eq_true, if_false, HvacService.Truthful, HvacService.reachable, hsame.up,
        hsame.fatal]
      simp [HvacService.notified, hc]

theorem runIteration_sameChannel (s : HvacService) (outcomes : RegisterOutcomes) :
    SameChannel s ((runIteration outcomes).exec s).2 := by
  have h : Preserves (SameChannel s) (runIteration outcomes) := by
    refine .bind (.peek _ _) fun shutdown => ?_
    split
    · exact .pure _
    refine .bind (.peek _ _) fun connected => ?_
    split
    · exact .pure _
    refine .bind (.peek _ _) fun registered => ?_
    split
    · exact tryRegister_sameChannel s outcomes
    · exact .pure _
  exact h.exec (.refl s)

theorem SameChannel.truthful (h : SameChannel s t) (hs : s.Truthful) : t.Truthful := by
  unfold HvacService.Truthful HvacService.reachable
  rw [h.connected, h.up, h.fatal]
  exact hs

theorem setDatapoint_unsent (name : String) (value : DatapointValue) (outcome : UpdateOutcome)
    (h : s.ids.lookup name = none) : ((setDatapoint name value outcome).exec s).2 = s := by
  simp [setDatapoint, h]

theorem setDatapoint_ok (name : String) (value : DatapointValue) :
    SameChannel s ((setDatapoint name value .ok).exec s).2 := by
  cases h : s.ids.lookup name <;> simp [setDatapoint, h] <;> exact ⟨rfl, rfl, rfl⟩

/-- An RPC error makes the flag true where it should become false, and false
where it should stay. -/
theorem setDatapoint_error (name : String) (value : DatapointValue) (code : StatusCode)
    (hs : s.Truthful) : ((setDatapoint name value (.rpcError code)).exec s).2.Truthful ↔
      ((s.ids.lookup name).isSome = true → isGrpcFatalError code = false ∧ s.connected = false) := by
  cases h : s.ids.lookup name with
  | none => simp [setDatapoint_unsent name value _ h, hs]
  | some stored =>
    unfold HvacService.Truthful HvacService.reachable at hs
    cases hf : isGrpcFatalError code <;>
      simp [setDatapoint, h, HvacService.Truthful, HvacService.reachable, hf, hs]

end

theorem taskStep_truthful (s : HvacService) (task : Task) (hs : s.Truthful) :
    (task.code.exec s).2.Truthful ↔ Harmless s task := by
  have hupdate : ∀ (name : String) (value : DatapointValue) (outcome : UpdateOutcome),
      ((void (setDatapoint name value outcome)).exec s).2.Truthful ↔
        ∀ code, outcome = .rpcError code → (s.ids.lookup name).isSome = true →
          isGrpcFatalError code = false ∧ s.connected = false := by
    intro name value outcome
    have hvoid : ((void (setDatapoint name value outcome)).exec s).2 =
        ((setDatapoint name value outcome).exec s).2 := by
      simp [void]
    rw [hvoid]
    cases outcome with
    | ok => simp [(setDatapoint_ok name value).truthful hs]
    | rpcError code => simp [setDatapoint_error name value code hs]
  cases task with
  | notify c outcomes => simp [Harmless, Task.updateError, Task.code, notify_truthful s c outcomes]
  | iterate outcomes =>
    have h := (runIteration_sameChannel s outcomes).truthful hs
    simp [Harmless, Task.updateError, Task.code, h]
  | setTemperature temperature outcome =>
    refine (hupdate _ _ outcome).trans ?_
    cases outcome <;> simp [Harmless, Task.updateError]
  | setAcStatus status outcome =>
    refine (hupdate _ _ outcome).trans ?_
    cases outcome <;> simp [Harmless, Task.updateError]

/-- Over every sequence of notifications, iterations and handlers. -/
theorem connected_truthful_iff (tasks : List Task) :
    Throughout taskStep HvacService.Truthful .initial tasks ↔
      Along taskStep Harmless .initial tasks := by
  refine throughout_iff_along (I := fun _ => True) (fun _ _ _ _ _ => trivial) ?_ trivial rfl
  intro s task t _ hs ht
  obtain rfl := Option.some.inj ht
  exact taskStep_truthful s task hs

/-- The broker is there and takes the registration; then it becomes
unavailable, and the update that notices it sets the flag. In the second
sequence a rejected value clears it. -/
theorem connected_wrong_way_round :
    ¬Throughout taskStep HvacService.Truthful .initial
        [.notify .ready ⟨.id 1, .id 2⟩, .notify .transientFailure ⟨.exception, .exception⟩,
          .setTemperature 0 (.rpcError .unavailable)] ∧
      ¬Throughout taskStep HvacService.Truthful .initial
        [.notify .ready ⟨.id 1, .id 2⟩, .setAcStatus true (.rpcError .invalidArgument)] := by
  decide

-- ---------------------------------------------------------------------------
-- Registrations and reconnects as sections
-- ---------------------------------------------------------------------------

/-- Both ids come from one call of `register_datapoints` that succeeded after
the last change to a connected state. -/
def HvacService.CurrentIds (s : HvacService) : Prop :=
  ∃ call, (s.ids.lookup isAirConditioningActive.name).map (·.call) = some call ∧
    (s.ids.lookup desiredAmbientAirTemperature.name).map (·.call) = some call ∧
    (call, s.notes.epoch) ∈ s.notes.completed

def HvacService.FlagKept (s : HvacService) : Prop := s.registered = true → s.CurrentIds

/-- From a change to a connected state to the end of its callback, and from
the start of a registration to the end of the program that made it. -/
def Site.registering : Site → Bool
  | .notified changed => changed
  | .beginCall | .rpcAc | .storeAc | .rpcTemp | .storeTemp | .complete | .setRegistered
  | .setConnected => true
  | _ => false

/-- A reconnect and a registration come while the flag is down, an update
while it is up. -/
def Site.proper (l : Site) (s : HvacService) : Prop :=
  (l = .notify true → s.notes.up = false → s.registered = false) ∧
    (l = .beginCall → s.registered = false) ∧ (l = .send → s.registered = true)

instance (l : Site) (s : HvacService) : Decidable (l.proper s) :=
  inferInstanceAs (Decidable (_ ∧ _ ∧ _))

/-- What a registration can live with: the ids and the epoch stay, and the
flag does not go up. -/
structure Undisturbed (s t : HvacService) : Prop where
  ids : t.ids = s.ids
  epoch : t.notes.epoch = s.notes.epoch
  completed : t.notes.completed = s.notes.completed
  registered : t.registered = true → s.registered = true

theorem Undisturbed.refl (s : HvacService) : Undisturbed s s := ⟨rfl, rfl, rfl, fun h => h⟩

theorem Undisturbed.trans (h : Undisturbed a b) (h' : Undisturbed b c) : Undisturbed a c :=
  ⟨h'.ids.trans h.ids, h'.epoch.trans h.epoch, h'.completed.trans h.completed,
    fun hr => h.registered (h'.registered hr)⟩

theorem Undisturbed.down (h : Undisturbed s t) (hs : s.registered = false) : t.registered = false := by
  rw [← Bool.not_eq_true] at hs ⊢
  exact mt h.registered hs

theorem Undisturbed.currentIds (h : Undisturbed s t) (hs : s.CurrentIds) : t.CurrentIds := by
  unfold HvacService.CurrentIds
  rw [h.ids, h.epoch, h.completed]
  exact hs

theorem Undisturbed.flagKept (h : Undisturbed s t) (hs : s.FlagKept) : t.FlagKept :=
  fun hr => h.currentIds (hs (h.registered hr))

def registration : Discipline Site HvacService where
  site l := l.registering = true
  rely := Undisturbed
  rely_refl := .refl
  rely_trans := .trans
  may _ _ t := t.FlagKept
  on := Site.proper

def taskCode (task : Task) (t : Thread) (_ : HvacService) : Option (Py Unit) :=
  match task, t with
  | .notify .., .channel | .iterate _, .connector | .setTemperature .., .handler _
  | .setAcStatus .., .handler _ => some task.code
  | _, _ => none

def hvacSections : Sections Thread Site HvacService Task where
  code := taskCode
  enabled _ _ := true
  opens l := l == .notify true || l.registering
  inner := Site.registering
  disc := registration
  inv := HvacService.FlagKept
  out _ := Undisturbed
  proper := Site.proper
  inv_stable _ _ h hr := hr.flagKept h
  rely_of_out _ _ _ h := h
  inner_of_site _ h := h
  opens_of_inner l h := by simp [h]
  on_of_proper _ _ _ hp := hp

instance (l : Site) (s : HvacService) : Decidable (hvacSections.proper l s) :=
  inferInstanceAs (Decidable (l.proper s))

-- ---------------------------------------------------------------------------
-- A registration
-- ---------------------------------------------------------------------------

structure Registering (ac temp done : Bool) (call : Nat) (s : HvacService) : Prop where
  registered : s.registered = false
  ac : ac = true → (s.ids.lookup isAirConditioningActive.name).map (·.call) = some call
  temp : temp = true → (s.ids.lookup desiredAmbientAirTemperature.name).map (·.call) = some call
  done : done = true → (call, s.notes.epoch) ∈ s.notes.completed

theorem registering_stable (ac temp done : Bool) (call : Nat) :
    Stable registration (Registering ac temp done call) := by
  intro s t hs hr
  refine ⟨hr.down hs.registered, fun h => ?_, fun h => ?_, fun h => ?_⟩
  · rw [hr.ids]
    exact hs.ac h
  · rw [hr.ids]
    exact hs.temp h
  · rw [hr.epoch, hr.completed]
    exact hs.done h

theorem Registering.flagKept {a t d : Bool} (h : Registering a t d call s) : s.FlagKept := by
  intro hr
  rw [h.registered] at hr
  cases hr

theorem flagKept_stable : Stable registration HvacService.FlagKept := hvacSections.inv_stable

theorem registering_atomic {f : HvacService → α × HvacService} (hl : l.registering = true)
    (h : ∀ s, Registering ac temp done call s → Registering ac' temp' done' call (f s).2) :
    Triple registration (Registering ac temp done call) (Prog.atomic l f)
      fun _ => Registering ac' temp' done' call :=
  .atomic hl (registering_stable _ _ _ _) (fun _ => registering_stable _ _ _ _)
    fun s hs _ => ⟨(h s hs).flagKept, h s hs⟩

/-- `_register` on the way from `A` to `B`: it stores an id of the call, or it
fails and leaves everything as it was. -/
theorem register_triple {B : Bool → HvacService → Prop} (hrpc : rpc.registering = true)
    (hstore : store.registering = true) (hB : ∀ ok, Stable registration (B ok))
    (hstored : ∀ s id, Registering ac temp done call s →
      ∃ ac' temp', Registering ac' temp' done call (s.storeId datapoint.name ⟨id, call⟩) ∧
        B true (s.storeId datapoint.name ⟨id, call⟩))
    (hfailed : ∀ s, Registering ac temp done call s → B false s) :
    Triple registration (Registering ac temp done call)
      (register rpc store datapoint call outcome) B := by
  have hpure : Triple registration (Registering ac temp done call) (pure false : Py Bool) B :=
    (Triple.pure (hB false)).conseq hfailed fun _ _ h => h
  unfold register
  refine .bind (B := fun _ => Registering ac temp done call) ?_ fun _ => ?_
  · exact registering_atomic hrpc fun _ h => h
  cases outcome with
  | id id =>
    refine .bind (B := fun _ => B true) ?_ fun _ => .pure (hB true)
    refine .atomic hstore (registering_stable _ _ _ _) (fun _ => hB true) fun s hs _ => ?_
    obtain ⟨_, _, hreg, hpost⟩ := hstored s id hs
    exact ⟨hreg.flagKept, hpost⟩
  | rpcError code => exact hpure
  | exception => exact hpure

/-- What `register_datapoints` leaves: with all of it done, or the flag down. -/
def LeftBy (ok : Bool) (s : HvacService) : Prop := ∃ call, Registering ok ok ok call s

theorem leftBy_stable (ok : Bool) : Stable registration (LeftBy ok) := by
  rintro s t ⟨call, hs⟩ hr
  exact ⟨call, registering_stable _ _ _ _ s t hs hr⟩

theorem registerDatapoints_triple (outcomes : RegisterOutcomes) :
    Triple registration (fun _ => True) (registerDatapoints outcomes) LeftBy := by
  have hfailed : ∀ ac temp call, Triple registration (Registering ac temp false call)
      (pure false : Py Bool) LeftBy := by
    intro ac temp call s hs t hr
    exact ⟨call, hr.down hs.registered, nofun, nofun, nofun⟩
  unfold registerDatapoints
  refine .bind (B := Registering false false false) ?_ fun call => ?_
  · refine .atomic rfl (fun _ _ _ _ => trivial) (fun call => registering_stable _ _ _ _) ?_
    intro s _ hon
    have hpost : Registering false false false s.notes.calls
        { s with notes := { s.notes with calls := s.notes.calls + 1 } } :=
      ⟨hon.2.1 rfl, nofun, nofun, nofun⟩
    exact ⟨hpost.flagKept, hpost⟩
  refine .bind (B := fun ac => Registering ac false false call) ?_ fun ac => ?_
  · refine register_triple rfl rfl (fun _ => registering_stable _ _ _ _) ?_ fun _ h => h
    intro s id h
    have hpost : Registering true false false call (s.storeId isAirConditioningActive.name ⟨id, call⟩) := by
      refine ⟨h.registered, fun _ => ?_, nofun, nofun⟩
      simp [HvacService.storeId]
    exact ⟨_, _, hpost, hpost⟩
  cases ac with
  | false => exact hfailed _ _ call
  | true =>
    refine .bind (B := fun temp => Registering true temp false call) ?_ fun temp => ?_
    · refine register_triple rfl rfl (fun _ => registering_stable _ _ _ _) ?_ fun _ h => h
      intro s id h
      have hne : isAirConditioningActive.name ≠ desiredAmbientAirTemperature.name := by decide
      have hpost : Registering true true false call
          (s.storeId desiredAmbientAirTemperature.name ⟨id, call⟩) := by
        refine ⟨h.registered, fun _ => ?_, fun _ => ?_, nofun⟩
        · rw [HvacService.storeId, AList.lookup_insert_ne hne]
          exact h.ac rfl
        · simp [HvacService.storeId]
      exact ⟨_, _, hpost, hpost⟩
    cases temp with
    | false => exact hfailed _ _ call
    | true =>
      refine .bind (B := fun _ => Registering true true true call) ?_ fun _ => ?_
      · exact registering_atomic rfl fun s h => ⟨h.registered, h.ac, h.temp, fun _ => by simp⟩
      · exact (Triple.pure (leftBy_stable true)).conseq (fun s h => ⟨call, h⟩) fun _ _ h => h

theorem tryRegister_triple (outcomes : RegisterOutcomes) :
    Triple registration (fun _ => True) (tryRegister outcomes) fun _ => HvacService.FlagKept := by
  refine .bind (registerDatapoints_triple outcomes) fun ok => ?_
  cases ok with
  | true =>
    refine .atomic rfl (leftBy_stable true) (fun _ => flagKept_stable) ?_
    rintro s ⟨call, hs⟩ -
    have hkept : HvacService.FlagKept { s with registered := true } :=
      fun _ => ⟨call, hs.ac rfl, hs.temp rfl, hs.done rfl⟩
    exact ⟨hkept, hkept⟩
  | false =>
    refine (Triple.pure (B := fun _ => HvacService.FlagKept) flagKept_stable).conseq ?_ fun _ _ h => h
    rintro s ⟨call, hs⟩
    exact hs.flagKept

def registerConnected (outcomes : RegisterOutcomes) : Py Unit := do
  tryRegister outcomes
  .atomic .setConnected fun s => ((), { s with connected := true })

theorem registerConnected_triple (outcomes : RegisterOutcomes) :
    Triple registration (fun _ => True) (registerConnected outcomes) fun _ => HvacService.FlagKept :=
  .bind (tryRegister_triple outcomes) fun _ =>
    .atomic rfl flagKept_stable (fun _ => flagKept_stable) fun _ h _ => ⟨h, h⟩

theorem callback_triple (outcomes : RegisterOutcomes) :
    Triple registration HvacService.FlagKept (do
      let connected ← Prog.peek (.notified true) (·.connected)
      if connected then pure () else registerConnected outcomes) fun _ => HvacService.FlagKept := by
  refine .bind (B := fun _ => HvacService.FlagKept) ?_ fun connected => ?_
  · exact .atomic rfl flagKept_stable (fun _ => flagKept_stable) fun _ h _ => ⟨h, h⟩
  · split
    · exact .pure (B := fun _ => HvacService.FlagKept) flagKept_stable
    · exact (registerConnected_triple outcomes).conseq (fun _ _ => trivial) fun _ _ h => h

-- ---------------------------------------------------------------------------
-- The programs
-- ---------------------------------------------------------------------------

theorem tryRegister_outside (outcomes : RegisterOutcomes) : hvacSections.Outside (tryRegister outcomes) :=
  Sections.Outside.ofTriple (X := hvacSections)
    ((tryRegister_triple outcomes).conseq (fun _ _ => trivial) fun _ _ h => h) fun _ => rfl

theorem registerConnected_outside (outcomes : RegisterOutcomes) :
    hvacSections.Outside (registerConnected outcomes) :=
  Sections.Outside.ofTriple (X := hvacSections)
    ((registerConnected_triple outcomes).conseq (fun _ _ => trivial) fun _ _ h => h) fun _ => rfl

theorem quiet_peek {f : HvacService → α} (hl : hvacSections.opens l = false) :
    hvacSections.Quiet (Prog.peek l f) :=
  .atomic hl fun s _ => .refl s

theorem setDatapoint_quiet (name : String) (value : DatapointValue) (outcome : UpdateOutcome) :
    hvacSections.Quiet (setDatapoint name value outcome) := by
  refine .bind (quiet_peek rfl) fun id => ?_
  cases id with
  | none => trivial
  | some stored =>
    refine .bind (.atomic rfl fun s _ => ⟨rfl, rfl, rfl, fun h => h⟩) fun _ => ?_
    cases outcome with
    | ok => trivial
    | rpcError code => exact .bind (.atomic rfl fun s _ => ⟨rfl, rfl, rfl, fun h => h⟩) fun _ => trivial

theorem setDatapoint_void_quiet (name : String) (value : DatapointValue) (outcome : UpdateOutcome) :
    hvacSections.Quiet (void (setDatapoint name value outcome)) :=
  .bind (setDatapoint_quiet name value outcome) fun _ => trivial

theorem runIteration_outside (outcomes : RegisterOutcomes) :
    hvacSections.Outside (runIteration outcomes) := by
  refine .bind (quiet_peek rfl) fun shutdown => ?_
  split
  · trivial
  refine .bind (quiet_peek rfl) fun connected => ?_
  split
  · trivial
  refine .bind (quiet_peek rfl) fun registered => ?_
  split
  · exact tryRegister_outside outcomes
  · trivial

theorem notify_outside (c : Connectivity) (outcomes : RegisterOutcomes) :
    hvacSections.Outside (onBrokerConnectivityChange c outcomes) := by
  cases hc : c.up with
  | false =>
    have hquiet : hvacSections.Quiet (onBrokerConnectivityChange c outcomes) := by
      unfold onBrokerConnectivityChange
      rw [hc]
      refine .bind (.atomic rfl fun s _ => ?_) fun changed => ?_
      · exact ⟨rfl, by simp [HvacService.notified, hc], rfl, fun h => h⟩
      · refine .bind (.atomic rfl fun s _ => ⟨rfl, rfl, rfl, fun h => h⟩) fun _ => ?_
        exact .atomic rfl fun s _ => ⟨rfl, rfl, rfl, nofun⟩
    exact hquiet.outside
  | true =>
    unfold onBrokerConnectivityChange
    simp only [hc, if_true, Bool.true_and]
    refine .atomic (fun s hon hw hinv => ?_) fun s hon hw => ?_
    · -- `within` asks for the site of the next action, which tells whether the state changed
      have hchanged : (!s.notes.up) = true := hw
      have hup : s.notes.up = false := by simpa using hchanged
      have hdown : (s.notified c).registered = false := hon.1 rfl hup
      have hkept : (s.notified c).FlagKept := by
        intro hr
        rw [hdown] at hr
        cases hr
      refine ⟨hkept, ?_⟩
      rw [hup]
      exact callback_triple outcomes _ hkept
    · have hchanged : (!s.notes.up) = false := hw
      have hup : s.notes.up = true := by simpa using hchanged
      refine ⟨⟨rfl, by simp [HvacService.notified, hup], rfl, fun h => h⟩, ?_⟩
      rw [hup]
      refine .bind (quiet_peek rfl) fun connected => ?_
      split
      · trivial
      · exact registerConnected_outside outcomes

theorem taskCode_outside {s : HvacService} (h : taskCode task t s = some c) :
    hvacSections.Outside c := by
  unfold taskCode at h
  split at h
  · obtain rfl := Option.some.inj h
    exact notify_outside _ _
  · obtain rfl := Option.some.inj h
    exact runIteration_outside _
  · obtain rfl := Option.some.inj h
    exact (setDatapoint_void_quiet _ _ _).outside
  · obtain rfl := Option.some.inj h
    exact (setDatapoint_void_quiet _ _ _).outside
  · cases h

-- ---------------------------------------------------------------------------
-- Ids of the current connection
-- ---------------------------------------------------------------------------

def SendsCurrent (p : Pool Thread Site HvacService) : Move Thread Task → Prop
  | .start .. => True
  | .step t => (p.thread t).site? = some .send → p.shared.CurrentIds

/-- Registrations and reconnects do not overlap and come while the flag is
down, and updates are sent while it is up. -/
abbrev Undisputed (p : Pool Thread Site HvacService) (m : Move Thread Task) : Prop :=
  hvacSections.Orderly (fun _ _ => True) p m

/-- Over every interleaving of the callback, `_run` and the handlers. -/
theorem current_ids (moves : List (Move Thread Task))
    (hrun : Along hvacSections.step Undisputed (.idle .initial) moves) :
    Throughout hvacSections.step (fun p => p.shared.FlagKept) (.idle .initial) moves ∧
      Along hvacSections.step SendsCurrent (.idle .initial) moves := by
  have hmove : ∀ p m p', hvacSections.Ordered p ∧ p.shared.FlagKept → Undisputed p m →
      hvacSections.step p m = some p' → hvacSections.Ordered p' ∧ p'.shared.FlagKept := by
    rintro p m p' ⟨hord, hkept⟩ hm hs
    obtain ⟨heffect, hord⟩ := hord.move (fun _ _ s _ _ hc => taskCode_outside (s := s) hc) hm hs
    refine ⟨hord, ?_⟩
    cases m with
    | start t task =>
      have hshared : p'.shared = p.shared := heffect
      rwa [hshared]
    | step t =>
      obtain ⟨l, -, hout | hmay⟩ := heffect
      · exact Undisturbed.flagKept hout hkept
      · exact hmay
  have hinitial : HvacService.initial.FlagKept := nofun
  have hstart : hvacSections.Ordered (.idle .initial) ∧
      (Pool.idle .initial : Pool Thread Site HvacService).shared.FlagKept :=
    ⟨Sections.ordered_idle (X := hvacSections) hinitial, hinitial⟩
  constructor
  · exact (hrun.throughout hmove hstart).mono fun _ h => h.2
  · refine hrun.along hmove (fun p m h hm => ?_) hstart
    cases m with
    | start t task => trivial
    | step t => exact fun hsend => h.2 ((hm.1 .send hsend).2.2 rfl)

instance (s : HvacService) : Decidable s.CurrentIds :=
  decidable_of_iff (∃ e ∈ s.notes.completed, e.2 = s.notes.epoch ∧
      (s.ids.lookup isAirConditioningActive.name).map (·.call) = some e.1 ∧
      (s.ids.lookup desiredAmbientAirTemperature.name).map (·.call) = some e.1) (by
    constructor
    · rintro ⟨⟨call, epoch⟩, he, rfl, hac, htemp⟩
      exact ⟨call, hac, htemp, he⟩
    · rintro ⟨call, hac, htemp, he⟩
      exact ⟨(call, s.notes.epoch), he, rfl, hac, htemp⟩)

instance (s : HvacService) : Decidable s.FlagKept := inferInstanceAs (Decidable (_ → _))

instance (p : Pool Thread Site HvacService) : DecidablePred (SendsCurrent p)
  | .start .. => inferInstanceAs (Decidable True)
  | .step _ => inferInstanceAs (Decidable (_ → _))

def steps (t : Thread) (n : Nat) : List (Move Thread Task) := List.replicate n (.step t)

def reconnected : List (Move Thread Task) :=
  List.flatten [
    .start .channel (.notify .ready ⟨.id 1, .id 2⟩) :: steps .channel 10,
    .start (.handler 0) (.setTemperature 0 .ok) :: steps (.handler 0) 2,
    .start .channel (.notify .transientFailure ⟨.exception, .exception⟩) :: steps .channel 3,
    .start .channel (.notify .ready ⟨.id 3, .id 4⟩) :: steps .channel 10,
    .start .connector (.iterate ⟨.exception, .exception⟩) :: steps .connector 3,
    .start (.handler 1) (.setAcStatus true .ok) :: steps (.handler 1) 2]

theorem current_ids_reconnected :
    Along hvacSections.step Undisputed (.idle .initial) reconnected ∧
      Throughout hvacSections.step (fun p => p.shared.FlagKept) (.idle .initial) reconnected ∧
      Along hvacSections.step SendsCurrent (.idle .initial) reconnected :=
  ⟨by decide, current_ids _ (by decide)⟩

/-- `_run` has registered but not set the flag yet when the broker goes away;
the callback of the reconnect fails to register, and then the flag is set. -/
def straddling : List (Move Thread Task) :=
  List.flatten [
    .start .channel (.notify .ready ⟨.rpcError .unavailable, .exception⟩) :: steps .channel 5,
    .start .connector (.iterate ⟨.id 1, .id 2⟩) :: steps .connector 9,
    .start .channel (.notify .transientFailure ⟨.exception, .exception⟩) :: steps .channel 3,
    .start .channel (.notify .ready ⟨.rpcError .unavailable, .exception⟩) :: steps .channel 5,
    steps .connector 1]

def unregistered : List (Move Thread Task) :=
  List.flatten [
    .start .channel (.notify .ready ⟨.id 1, .id 2⟩) :: steps .channel 10,
    .start .channel (.notify .transientFailure ⟨.exception, .exception⟩) :: steps .channel 3,
    .start .channel (.notify .ready ⟨.rpcError .unavailable, .exception⟩) :: steps .channel 5,
    .start (.handler 0) (.setTemperature 0 .ok) :: steps (.handler 0) 2]

theorem stale_ids :
    ¬Throughout hvacSections.step (fun p => p.shared.FlagKept) (.idle .initial) straddling ∧
      ¬Along hvacSections.step SendsCurrent (.idle .initial) unregistered := by
  decide

end KuksaServices.Hvac
