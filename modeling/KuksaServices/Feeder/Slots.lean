import KuksaServices.Feeder.Feeder

/-!
# The feeder as slots

For every name the feeder is a slot (`slot`): its queue entry, the entry of
the batch in flight and the values the broker accepted. Every step of the
feeder is a step of each slot (`step_slot`), a lossless one when the fed
names are registered and nobody shuts the feeder down.
-/

namespace KuksaServices.Feeder

open Atomic (Dict Origin Slot Along Throughout)

variable {D : Type} {dpConfig : DatapointConfiguration D} {s s' : State D}

-- ---------------------------------------------------------------------------
-- Under one name
-- ---------------------------------------------------------------------------

def FeedCall.value? : FeedCall D → String → Option D
  | .feedValue name value, n => if n = name then some value else none
  | .feedValues values, n => values.lookup n

theorem lookup_store (call : FeedCall D) (n : Nat) (stored : DatapointValues D) (name : String) :
    (call.store n stored).lookup name =
      ((call.value? name).map fun value => ⟨value, .put n⟩).or (stored.lookup name) := by
  cases call with
  | feedValue key value =>
    by_cases h : name = key
    · subst h
      simp [FeedCall.store, storeValue, FeedCall.value?]
    · simp [FeedCall.store, storeValue, FeedCall.value?, h, AList.lookup_insert_ne h]
  | feedValues values =>
    exact Dict.lookup_foldl_insert (g := some) (f := fun value => Value.mk value (.put n)) rfl
      (fun _ h => Option.some.inj h) values.nodupKeys stored

/-- The configured value of a name; the first entry counts. -/
def initialValue? (dpConfig : DatapointConfiguration D) (name : String) : Option (Value D) :=
  (dpConfig.find? (·.name == name)).map fun dp => ⟨dp.initialValue, .filler⟩

theorem lookup_addInitialValues (values : DatapointValues D) (name : String) :
    (addInitialValues dpConfig values).lookup name =
      (values.lookup name).or (initialValue? dpConfig name) := by
  induction dpConfig generalizing values with
  | nil => simp [addInitialValues, initialValue?]
  | cons dp dpConfig ih =>
    have hstep := ih (insertNew values dp.name ⟨dp.initialValue, .filler⟩)
    rw [insertNew, Dict.lookup_union, Dict.lookup_singleton] at hstep
    refine hstep.trans ?_
    cases hv : values.lookup name with
    | some v => rfl
    | none =>
      by_cases h : name = dp.name
      · simp [initialValue?, h]
      · simp [initialValue?, h, Ne.symm h]

theorem origin_addInitialValues (values : DatapointValues D) (name : String) :
    ((addInitialValues dpConfig values).lookup name).map (·.origin) =
      ((values.lookup name).map (·.origin)).or
        (if (initialValue? dpConfig name).isSome then some .filler else none) := by
  rw [lookup_addInitialValues]
  cases values.lookup name with
  | some v => rfl
  | none =>
    unfold initialValue?
    cases dpConfig.find? (·.name == name) <;> rfl

theorem lookup_updateRequest {idMap : Dict String DatapointId} {id : DatapointId} (values : DatapointValues D)
    (hid : idMap.lookup name = some id) (hinj : ∀ b, idMap.lookup b = some id → b = name) :
    (updateRequest idMap values).lookup id = values.lookup name := by
  refine (Dict.lookup_foldl_insert (g := fun name => idMap.lookup name) (f := fun v => v) hid hinj
    values.nodupKeys ∅).trans ?_
  simp [AList.lookup]

theorem mem_of_updateRequest {idMap : Dict String DatapointId} {values : DatapointValues D}
    {id : DatapointId} (h : (updateRequest idMap values).lookup id = some v) : ∃ name, values.lookup name = some v := by
  have h := Dict.mem_of_lookup_foldl_insert (g := fun name => idMap.lookup name) h
  rcases h with h | ⟨e, he, rfl⟩
  · cases h
  · exact ⟨e.1, AList.mem_lookup_iff.mpr he⟩

-- ---------------------------------------------------------------------------
-- The slot of a name
-- ---------------------------------------------------------------------------

def latestFed (fed : List (FeedCall D)) (name : String) : Option Nat :=
  (fed.zipIdx.filter fun call => (call.1.value? name).isSome).getLast?.map (·.2)

def Place.batch? : Place D → Option (DatapointValues D)
  | .sending values | .restoring values => some values
  | _ => none

def Delivery.value? (d : Delivery D) (name : String) : Option (Value D) :=
  (d.ids.lookup name).bind fun id => d.request.lookup id

/-- The value of a name that the broker accepted with a request. As for
`feedToBroker`, a request answered with OK is accepted; the datapoint errors
of the reply are only printed. -/
def Delivery.accepted? (d : Delivery D) (name : String) : Option (Value D) :=
  if d.reply.isOk then d.value? name else none

def accepted (sent : List (Delivery D)) (name : String) : List (Value D) :=
  sent.filterMap (·.accepted? name)

def acceptedPuts (sent : List (Delivery D)) (name : String) : List Nat :=
  (accepted sent name).filterMap (·.origin.put?)

def State.settled (s : State D) : Bool :=
  s.sent.any fun d => d.session == s.session && d.reply.isOk

def slot (s : State D) (name : String) : Slot where
  next := s.fed.length
  latest := latestFed s.fed name
  stored := (s.storedValues.lookup name).map (·.origin)
  flying := s.place.batch?.isSome
  flight := (s.place.batch?.bind fun values => values.lookup name).map (·.origin)
  accepted := acceptedPuts s.sent name
  settled := s.settled

theorem latestFed_snoc (fed : List (FeedCall D)) (call : FeedCall D) (name : String) :
    latestFed (fed ++ [call]) name =
      if (call.value? name).isSome then some fed.length else latestFed fed name := by
  unfold latestFed
  rw [List.zipIdx_append, List.filter_append]
  cases h : (call.value? name).isSome <;> simp [h]

theorem accepted_snoc (sent : List (Delivery D)) (d : Delivery D) (name : String) :
    accepted (sent ++ [d]) name = accepted sent name ++ (d.accepted? name).toList := by
  cases h : d.accepted? name <;> simp [accepted, h]

theorem acceptedPuts_snoc (sent : List (Delivery D)) (d : Delivery D) (name : String) :
    acceptedPuts (sent ++ [d]) name =
      acceptedPuts sent name ++ ((d.accepted? name).bind (·.origin.put?)).toList := by
  unfold acceptedPuts
  rw [accepted_snoc, List.filterMap_append]
  cases d.accepted? name with
  | none => rfl
  | some v => cases h : v.origin.put? <;> simp [h]

-- ---------------------------------------------------------------------------
-- The steps of `Run`
-- ---------------------------------------------------------------------------

def Place.opens : Place D → Bool
  | .inner init | .taking init => init
  | _ => false

def Place.later : Place D → Bool
  | .inner init | .taking init => !init
  | .restoring _ | .waitTest | .emptyTest | .waiting | .tail => true
  | _ => false

structure Place.Follows (p p' : Place D) : Prop where
  batch : p.batch? = none
  batch' : p'.batch? = none
  opens : p'.opens = true → p.opens = true
  later : p'.later = true → p.later = true

structure Passes (s s' : State D) : Prop where
  storedValues : s'.storedValues = s.storedValues
  fed : s'.fed = s.fed
  sent : s'.sent = s.sent
  session : s'.session = s.session
  place : s.place.Follows s'.place

theorem afterMetadata_passes (h : s.place.batch? = none) : Passes s (afterMetadata dpConfig s) := by
  unfold afterMetadata
  split <;> exact ⟨rfl, rfl, rfl, rfl, h, rfl, nofun, nofun⟩

theorem Passes.trans (h : Passes a b) (h' : Passes b c) : Passes a c :=
  ⟨h'.storedValues.trans h.storedValues, h'.fed.trans h.fed, h'.sent.trans h.sent,
    h'.session.trans h.session, h.place.batch, h'.place.batch', fun ho => h.place.opens (h'.place.opens ho),
    fun hl => h.place.later (h'.place.later hl)⟩

theorem getMetadata_passes (h : s.place.batch? = none) (reply : Reply (List Metadata)) :
    Passes s (getMetadata reply s) := by
  cases reply with
  | ok list => exact ⟨rfl, rfl, rfl, rfl, h, h, fun ho => ho, fun hl => hl⟩
  | error code => exact ⟨rfl, rfl, rfl, rfl, h, h, fun ho => ho, fun hl => hl⟩

theorem passes_ite {c : Prop} [Decidable c] (h : s.place = place) (hp : place.Follows p)
    (hq : place.Follows q) : Passes s { s with place := if c then p else q } := by
  subst h
  split
  · exact ⟨rfl, rfl, rfl, rfl, hp⟩
  · exact ⟨rfl, rfl, rfl, rfl, hq⟩

theorem runStep_cases (h : runStep dpConfig s input = some s') :
    Passes s s' ∨
    s.place = .ready ∧ s' = { s with
      feederReady := true, place := .inner true, session := s.session + 1 } ∨
    (∃ init, s.place = .taking init ∧ s' = { s with
      storedValues := ∅
      place := .sending
        (if init then addInitialValues dpConfig s.storedValues else s.storedValues) }) ∨
    (∃ values reply, s.place = .sending values ∧ input = .updated reply ∧
      s' = delivered values reply s) ∨
    ∃ values, s.place = .restoring values ∧ s' = { s with
      storedValues := restoreValues values s.storedValues, place := .waitTest } := by
  cases line_of_runStep h with
  | outer hp => exact .inl (passes_ite hp ⟨rfl, rfl, nofun, nofun⟩ ⟨rfl, rfl, nofun, nofun⟩)
  | connecting _ hp => exact .inl ⟨rfl, rfl, rfl, rfl, by rw [hp]; rfl, rfl, nofun, nofun⟩
  | connectedTest hp =>
    refine .inl ?_
    split_ifs
    · exact afterMetadata_passes (by rw [hp]; rfl)
    · exact ⟨rfl, rfl, rfl, rfl, by rw [hp]; rfl, rfl, nofun, nofun⟩
    · exact ⟨rfl, rfl, rfl, rfl, by rw [hp]; rfl, rfl, nofun, nofun⟩
  | metadata reply hp =>
    have hget := getMetadata_passes (s := s) (by rw [hp]; rfl) reply
    exact .inl (hget.trans (afterMetadata_passes hget.place.batch'))
  | registered _ hp => exact .inl ⟨rfl, rfl, rfl, rfl, by rw [hp]; rfl, rfl, nofun, nofun⟩
  | refused _ hp => exact .inl ⟨rfl, rfl, rfl, rfl, by rw [hp]; rfl, rfl, nofun, nofun⟩
  | ready hp => exact .inr (.inl ⟨hp, rfl⟩)
  | inner _ hp =>
    exact .inl (passes_ite hp ⟨rfl, rfl, fun h => h, fun h => h⟩ ⟨rfl, rfl, nofun, nofun⟩)
  | taking _ hp => exact .inr (.inr (.inl ⟨_, hp, rfl⟩))
  | sending _ _ hp => exact .inr (.inr (.inr (.inl ⟨_, _, hp, rfl, rfl⟩)))
  | restoring _ hp => exact .inr (.inr (.inr (.inr ⟨_, hp, rfl⟩)))
  | waitTest hp =>
    exact .inl (passes_ite hp ⟨rfl, rfl, nofun, fun _ => rfl⟩ ⟨rfl, rfl, nofun, fun _ => rfl⟩)
  | emptyTest hp =>
    exact .inl (passes_ite hp ⟨rfl, rfl, nofun, fun _ => rfl⟩ ⟨rfl, rfl, nofun, fun _ => rfl⟩)
  | waiting _ hp =>
    exact .inl (passes_ite hp ⟨rfl, rfl, nofun, fun _ => rfl⟩ ⟨rfl, rfl, nofun, fun _ => rfl⟩)
  | tail hp =>
    exact .inl (passes_ite hp ⟨rfl, rfl, nofun, fun _ => rfl⟩ ⟨rfl, rfl, nofun, nofun⟩)
  | cleanup hp => exact .inl ⟨rfl, rfl, rfl, rfl, by rw [hp]; rfl, rfl, nofun, nofun⟩
  | unready hp => exact .inl ⟨rfl, rfl, rfl, rfl, by rw [hp]; rfl, rfl, nofun, nofun⟩

-- ---------------------------------------------------------------------------
-- Sessions
-- ---------------------------------------------------------------------------

structure Sessions (s : State D) : Prop where
  bound : ∀ d ∈ s.sent, d.session ≤ s.session
  opening : s.place.opens = true → ∀ d ∈ s.sent, d.session < s.session
  later : s.place.later = true → ∃ d ∈ s.sent, d.session = s.session

theorem delivered_eq (values : DatapointValues D) (reply : Reply (List DatapointId)) (s : State D) :
    (delivered values reply s).storedValues = s.storedValues ∧
      (delivered values reply s).fed = s.fed ∧ (delivered values reply s).session = s.session ∧
      (delivered values reply s).sent =
        s.sent ++ [⟨s.session, s.idMap, updateRequest s.idMap values, reply⟩] ∧
      (delivered values reply s).place = if reply.isOk then .waitTest else .restoring values := by
  cases reply <;> exact ⟨rfl, rfl, rfl, rfl, rfl⟩

/-- The other threads leave `Run` where it is and send nothing. -/
theorem step_cases (hs : step dpConfig s e = some s') :
    (∃ input, e = .run input ∧ runStep dpConfig s input = some s') ∨
      s'.sent = s.sent ∧ s'.session = s.session ∧ s'.place = s.place := by
  cases e with
  | feed call =>
    obtain rfl := Option.some.inj hs
    split <;> exact .inr ⟨rfl, rfl, rfl⟩
  | store i =>
    obtain ⟨call, -, rfl⟩ := Option.map_eq_some_iff.mp hs
    exact .inr ⟨rfl, rfl, rfl⟩
  | shutdown =>
    obtain rfl := Option.some.inj hs
    split <;> exact .inr ⟨rfl, rfl, rfl⟩
  | stop =>
    obtain ⟨-, hs⟩ := Option.ite_none_right_eq_some.mp hs
    obtain rfl := Option.some.inj hs
    exact .inr ⟨rfl, rfl, rfl⟩
  | client connected =>
    obtain rfl := Option.some.inj hs
    exact .inr ⟨rfl, rfl, rfl⟩
  | run input => exact .inl ⟨input, rfl, hs⟩

theorem Sessions.delivered (h : Sessions s) (values : DatapointValues D)
    (reply : Reply (List DatapointId)) : Sessions (delivered values reply s) := by
  obtain ⟨-, -, hsession, hsent, hplace⟩ := delivered_eq values reply s
  refine ⟨fun d hd => ?_, fun ho => ?_, fun _ => ?_⟩
  · rw [hsession]
    rw [hsent] at hd
    rcases List.mem_append.mp hd with hd | hd
    · exact h.bound d hd
    · obtain rfl := List.mem_singleton.mp hd
      exact Nat.le_refl _
  · rw [hplace] at ho
    split at ho <;> cases ho
  · rw [hsent, hsession]
    exact ⟨_, List.mem_append_right _ (List.mem_singleton_self _), rfl⟩

theorem Sessions.step (h : Sessions s) (hs : step dpConfig s e = some s') : Sessions s' := by
  rcases step_cases hs with ⟨input, -, hs⟩ | ⟨hsent, hsession, hplace⟩
  · rcases runStep_cases hs with hp | ⟨-, rfl⟩ | ⟨init, -, rfl⟩ | ⟨values, reply, -, -, rfl⟩ |
      ⟨values, hplace, rfl⟩
    · refine ⟨hp.sent ▸ hp.session ▸ h.bound, fun ho => ?_, fun hl => ?_⟩
      · rw [hp.sent, hp.session]
        exact h.opening (hp.place.opens ho)
      · rw [hp.sent, hp.session]
        exact h.later (hp.place.later hl)
    · exact ⟨fun d hd => Nat.le_succ_of_le (h.bound d hd),
        fun _ d hd => Nat.lt_succ_of_le (h.bound d hd), nofun⟩
    · exact ⟨h.bound, nofun, nofun⟩
    · exact h.delivered values reply
    · exact ⟨h.bound, nofun, fun _ => h.later (by rw [hplace]; rfl)⟩
  · obtain ⟨hbound, hopening, hlater⟩ := h
    exact ⟨hsent ▸ hsession ▸ hbound, hsent ▸ hsession ▸ hplace ▸ hopening,
      hsent ▸ hsession ▸ hplace ▸ hlater⟩

-- ---------------------------------------------------------------------------
-- Every step is a step of the slot
-- ---------------------------------------------------------------------------

def FeedCall.names : FeedCall D → List String
  | .feedValue name _ => [name]
  | .feedValues values => values.keys

/-- Every fed name has an id, and different names have different ids. -/
def Registered (s : State D) : Prop :=
  (∀ call ∈ s.fed, ∀ name ∈ call.names, (s.idMap.lookup name).isSome = true) ∧
    (s.idMap.entries.map (·.2)).Nodup

instance (s : State D) : Decidable (Registered s) := inferInstanceAs (Decidable (_ ∧ _))

theorem FeedCall.mem_names {call : FeedCall D} (h : (call.value? name).isSome = true) :
    name ∈ call.names := by
  cases call with
  | feedValue key value =>
    by_cases hkey : name = key
    · exact List.mem_singleton.mpr hkey
    · simp [FeedCall.value?, hkey] at h
  | feedValues values => exact AList.mem_keys.mp (AList.lookup_isSome.mp h)

theorem Registered.covers (h : Registered s) (hn : latestFed s.fed name = some n) :
    (s.idMap.lookup name).isSome = true := by
  obtain ⟨⟨call, i⟩, hlast, -⟩ := Option.map_eq_some_iff.mp hn
  obtain ⟨hmem, hvalue⟩ := List.mem_filter.mp (List.mem_of_getLast? hlast)
  exact h.1 call (List.fst_mem_of_mem_zipIdx hmem) name (FeedCall.mem_names hvalue)

theorem Registered.distinct {id : DatapointId} (h : Registered s) (ha : s.idMap.lookup a = some id)
    (hb : s.idMap.lookup b = some id) : a = b := by
  have ha : (⟨a, id⟩ : Σ _ : String, DatapointId) ∈ s.idMap.entries := AList.mem_lookup_iff.mp ha
  have hb : (⟨b, id⟩ : Σ _ : String, DatapointId) ∈ s.idMap.entries := AList.mem_lookup_iff.mp hb
  exact congrArg Sigma.fst (List.inj_on_of_nodup_map h.2 ha hb rfl)

/-- Requests are made under a registration, and nobody shuts the feeder down. -/
def Careful (s : State D) : Event D → Prop
  | .shutdown | .stop => False
  | .run (.updated _) => Registered s
  | _ => True

instance (s : State D) : DecidablePred (Careful s)
  | .shutdown | .stop => inferInstanceAs (Decidable False)
  | .run (.updated _) => inferInstanceAs (Decidable (Registered s))
  | .feed _ | .store _ | .client _ | .run .go | .run (.waitForConnected _) | .run (.metadata _)
  | .run (.registered _) | .run (.wakes _) => inferInstanceAs (Decidable True)

section
variable {lossless : Bool} {name : String}

theorem slot_passes (h : Passes s s') : slot s' name = slot s name := by
  simp [slot, State.settled, h.storedValues, h.fed, h.sent, h.session, h.place.batch, h.place.batch']

theorem slot_ready (h : Sessions s) (hp : s.place = .ready) :
    Slot.Step lossless (slot s name) (slot { s with
      feederReady := true, place := .inner true, session := s.session + 1 } name) := by
  have hfresh : (State.settled { s with
      feederReady := true, place := .inner true, session := s.session + 1 }) = false := by
    simp only [State.settled, List.any_eq_false, Bool.and_eq_true, beq_iff_eq, not_and]
    intro d hd heq
    have := h.bound d hd
    omega
  have heq : slot { s with
      feederReady := true, place := .inner true, session := s.session + 1 } name =
      { slot s name with settled := false } := by
    simp [slot, hfresh, hp, Place.batch?]
  rw [heq]
  exact .opening

theorem slot_taking (h : Sessions s) (hp : s.place = .taking init) :
    Slot.Step lossless (slot s name) (slot { s with
      storedValues := ∅
      place := .sending
        (if init then addInitialValues dpConfig s.storedValues else s.storedValues) } name) := by
  have hfill : (init && (initialValue? dpConfig name).isSome) = true → (slot s name).settled = false := by
    intro hinit
    have hopen := h.opening (by rw [hp]; exact (Bool.and_eq_true_iff.mp hinit).1)
    simp only [slot, State.settled, List.any_eq_false, Bool.and_eq_true, beq_iff_eq, not_and]
    intro d hd heq
    have := hopen d hd
    omega
  have hflight : ((if init then addInitialValues dpConfig s.storedValues
      else s.storedValues).lookup name).map (·.origin) = (slot s name).stored.or
        (if init && (initialValue? dpConfig name).isSome then some .filler else none) := by
    cases init with
    | true => simpa [slot] using origin_addInitialValues s.storedValues name
    | false => simp [slot]
  have hfly : (slot s name).flying = false := by simp [slot, hp, Place.batch?]
  have heq : slot { s with
      storedValues := ∅
      place := .sending
        (if init then addInitialValues dpConfig s.storedValues else s.storedValues) } name =
      { slot s name with
        stored := none, flying := true
        flight := (slot s name).stored.or
          (if init && (initialValue? dpConfig name).isSome then some .filler else none) } := by
    rw [← hflight]
    simp [slot, State.settled, Place.batch?]
  rw [heq]
  exact .take _ hfly hfill

theorem carried_puts (hr : Registered s) (hline : (slot s name).InLine)
    (hp : s.place.batch? = some values) :
    ((s.idMap.lookup name).bind fun id => (updateRequest s.idMap values).lookup id).bind
      (·.origin.put?) = ((slot s name).flight).bind Origin.put? := by
  have hflight : (slot s name).flight = (values.lookup name).map (·.origin) := by simp [slot, hp]
  cases hid : s.idMap.lookup name with
  | some id =>
    have hcarried := lookup_updateRequest values hid fun b hb => hr.distinct hb hid
    simp only [Option.bind_some, hcarried, hflight]
    cases values.lookup name <;> rfl
  | none =>
    have hunfed : latestFed s.fed name = none := by
      refine Option.eq_none_iff_forall_ne_some.mpr fun n hn => ?_
      have hcovers := hr.covers hn
      rw [hid] at hcovers
      cases hcovers
    exact (Option.toList_eq_nil_iff.mp (hline.flight_of_latest hunfed)).symm

theorem slot_delivered (hp : s.place = .sending values)
    (hc : lossless = true → Registered s ∧ (slot s name).InLine) :
    Slot.Step lossless (slot s name) (slot (delivered values reply s) name) := by
  obtain ⟨hstored, hfed, hsession, hsent, hplace⟩ := delivered_eq values reply s
  cases reply with
  | error code =>
    have heq : slot (delivered values (.error code) s) name = slot s name := by
      simp [slot, State.settled, hstored, hfed, hsession, hsent, hplace, acceptedPuts_snoc,
        Delivery.accepted?, Reply.isOk, hp, Place.batch?]
    rw [heq]
    exact .idle
  | ok errors =>
    have heq : slot (delivered values (.ok errors) s) name = { slot s name with
        flying := false, flight := none, settled := true
        accepted := (slot s name).accepted ++
          (((s.idMap.lookup name).bind fun id => (updateRequest s.idMap values).lookup id).bind
            (·.origin.put?)).toList } := by
      simp [slot, State.settled, hstored, hfed, hsession, hsent, hplace, acceptedPuts_snoc,
        Delivery.accepted?, Reply.isOk, Place.batch?, Delivery.value?]
    rw [heq]
    refine .accept (by simp [slot, hp, Place.batch?]) fun hl => ?_
    obtain ⟨hr, hline⟩ := hc hl
    rw [carried_puts hr hline (by rw [hp]; rfl)]
    rfl

theorem slot_restoring (hp : s.place = .restoring values) :
    Slot.Step lossless (slot s name) (slot { s with
      storedValues := restoreValues values s.storedValues, place := .waitTest } name) := by
  have heq : slot { s with
      storedValues := restoreValues values s.storedValues, place := .waitTest } name =
      { slot s name with
        stored := (slot s name).stored.or (slot s name).flight, flying := false, flight := none } := by
    have hlookup : ((restoreValues values s.storedValues).lookup name).map (·.origin) =
        ((s.storedValues.lookup name).map (·.origin)).or ((values.lookup name).map (·.origin)) := by
      rw [restoreValues, Dict.lookup_union]
      cases s.storedValues.lookup name <;> rfl
    simp [slot, State.settled, Place.batch?, hp, hlookup]
  rw [heq]
  exact .restore (by simp [slot, hp, Place.batch?])

theorem slot_store (call : FeedCall D) (calls : List (FeedCall D)) :
    Slot.Step lossless (slot s name) (slot { s with
      storedValues := call.store s.fed.length s.storedValues, calls := calls
      fed := s.fed ++ [call] } name) := by
  cases hv : call.value? name with
  | none =>
    have heq : slot { s with
        storedValues := call.store s.fed.length s.storedValues, calls := calls
        fed := s.fed ++ [call] } name = { slot s name with next := (slot s name).next + 1 } := by
      simp [slot, State.settled, lookup_store, latestFed_snoc, hv]
    rw [heq]
    exact .skip
  | some value =>
    have heq : slot { s with
        storedValues := call.store s.fed.length s.storedValues, calls := calls
        fed := s.fed ++ [call] } name = { slot s name with
          next := (slot s name).next + 1, latest := some (slot s name).next
          stored := some (.put (slot s name).next) } := by
      simp [slot, State.settled, lookup_store, latestFed_snoc, hv]
    rw [heq]
    exact .put

/-- With care the steps are lossless, as long as the slot is in line. -/
theorem step_slot (h : Sessions s) (hs : step dpConfig s e = some s')
    (hc : lossless = true → Careful s e ∧ (slot s name).InLine) :
    Slot.Step lossless (slot s name) (slot s' name) := by
  cases e with
  | feed call =>
    obtain rfl := Option.some.inj hs
    split <;> exact .idle
  | store i =>
    obtain ⟨call, -, rfl⟩ := Option.map_eq_some_iff.mp hs
    exact slot_store call _
  | shutdown =>
    obtain rfl := Option.some.inj hs
    split <;> exact .idle
  | stop =>
    obtain ⟨-, hs⟩ := Option.ite_none_right_eq_some.mp hs
    obtain rfl := Option.some.inj hs
    exact .drop (Bool.eq_false_iff.mpr fun hl => (hc hl).1)
  | client connected =>
    obtain rfl := Option.some.inj hs
    exact .idle
  | run input =>
    rcases runStep_cases hs with hp | ⟨hp, rfl⟩ | ⟨init, hp, rfl⟩ | ⟨values, reply, hp, rfl, rfl⟩ |
      ⟨values, hp, rfl⟩
    · rw [slot_passes hp]
      exact .idle
    · exact slot_ready h hp
    · exact slot_taking h hp
    · exact slot_delivered hp hc
    · exact slot_restoring hp

end

end KuksaServices.Feeder
