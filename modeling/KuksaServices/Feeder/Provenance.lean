import KuksaServices.Feeder.Batches

/-!
# Where the broker's values come from

Whatever the order of calls, batches, failures and reconnects: with all fed
names registered, a value that the broker holds under a name is the one that
some call fed under this very name, or the configured initial value of it
(`accepted_genuine`). No value is made up, and none ends under another name.
-/

namespace KuksaServices.Feeder

open Atomic (Dict Origin Along Throughout)

variable {D : Type} {dpConfig : DatapointConfiguration D} {s s' : State D}

def Genuine (dpConfig : DatapointConfiguration D) (fed : List (FeedCall D)) (name : String)
    (v : Value D) : Prop :=
  match v.origin with
  | .put n => FedBy fed n name v
  | .filler => initialValue? dpConfig name = some v

def AllGenuine (dpConfig : DatapointConfiguration D) (fed : List (FeedCall D))
    (values : DatapointValues D) : Prop :=
  ∀ name v, values.lookup name = some v → Genuine dpConfig fed name v

structure Traced (dpConfig : DatapointConfiguration D) (s : State D) : Prop where
  stored : AllGenuine dpConfig s.fed s.storedValues
  flight : ∀ values, s.place.batch? = some values → AllGenuine dpConfig s.fed values
  sent : ∀ d ∈ s.sent, ∀ name v, d.accepted? name = some v → Genuine dpConfig s.fed name v

section
variable {fed : List (FeedCall D)} {values stored : DatapointValues D} {v : Value D}

theorem Genuine.snoc (h : Genuine dpConfig fed name v) (call : FeedCall D) :
    Genuine dpConfig (fed ++ [call]) name v := by
  unfold Genuine at h ⊢
  split at h
  · exact h.snoc call
  · exact h

theorem AllGenuine.snoc (h : AllGenuine dpConfig fed values) (call : FeedCall D) :
    AllGenuine dpConfig (fed ++ [call]) values :=
  fun name v hv => (h name v hv).snoc call

theorem AllGenuine.store (h : AllGenuine dpConfig fed values) (call : FeedCall D) :
    AllGenuine dpConfig (fed ++ [call]) (call.store fed.length values) := by
  intro name v hv
  rw [lookup_store] at hv
  rcases Option.or_eq_some_iff.mp hv with hv | ⟨-, hv⟩
  · obtain ⟨datapoint, hd, rfl⟩ := Option.map_eq_some_iff.mp hv
    exact fedBy_last hd
  · exact (h name v hv).snoc call

theorem AllGenuine.addInitialValues (h : AllGenuine dpConfig fed values) :
    AllGenuine dpConfig fed (addInitialValues dpConfig values) := by
  intro name v hv
  rw [lookup_addInitialValues] at hv
  rcases Option.or_eq_some_iff.mp hv with hv | ⟨-, hinit⟩
  · exact h name v hv
  · obtain ⟨dp, -, rfl⟩ := Option.map_eq_some_iff.mp hinit
    exact hinit

theorem AllGenuine.restore (hs : AllGenuine dpConfig fed stored) (hv : AllGenuine dpConfig fed values) :
    AllGenuine dpConfig fed (restoreValues values stored) := by
  intro name v hlookup
  rw [restoreValues, Dict.lookup_union] at hlookup
  rcases Option.or_eq_some_iff.mp hlookup with h | ⟨-, h⟩
  · exact hs name v h
  · exact hv name v h

theorem AllGenuine.request (h : AllGenuine dpConfig s.fed values) (hr : Registered s)
    (hd : Delivery.value? ⟨session, s.idMap, updateRequest s.idMap values, reply⟩ name = some v) :
    Genuine dpConfig s.fed name v := by
  obtain ⟨id, hid, hv⟩ := Option.bind_eq_some_iff.mp hd
  refine h name v ?_
  rw [← lookup_updateRequest values hid fun b hb => hr.distinct hb hid]
  exact hv

end

theorem Traced.passes (h : Traced dpConfig s) (hp : Passes s s') : Traced dpConfig s' := by
  refine ⟨?_, fun values hv => ?_, ?_⟩
  · rw [hp.fed, hp.storedValues]
    exact h.stored
  · cases hp.place.batch'.symm.trans hv
  · rw [hp.fed, hp.sent]
    exact h.sent

theorem Traced.delivered (h : Traced dpConfig s) (hp : s.place = .sending values) (hr : Registered s) :
    Traced dpConfig (delivered values reply s) := by
  obtain ⟨hstored, hfed, -, hsent, hplace⟩ := delivered_eq values reply s
  have hflight := h.flight values (by rw [hp]; rfl)
  refine ⟨?_, fun values' hv => ?_, fun d hd name v hv => ?_⟩
  · rw [hfed, hstored]
    exact h.stored
  · rw [hplace] at hv
    rw [hfed]
    split at hv
    · cases hv
    · obtain rfl := Option.some.inj hv
      exact hflight
  · rw [hsent] at hd
    rw [hfed]
    rcases List.mem_append.mp hd with hd | hd
    · exact h.sent d hd name v hv
    · obtain rfl := List.mem_singleton.mp hd
      exact hflight.request hr (Option.ite_none_right_eq_some.mp hv).2

theorem Traced.run (h : Traced dpConfig s) (hc : AllRegistered s (.run input))
    (hs : runStep dpConfig s input = some s') : Traced dpConfig s' := by
  rcases runStep_cases hs with hp | ⟨-, rfl⟩ | ⟨init, -, rfl⟩ | ⟨values, reply, hp, rfl, rfl⟩ |
    ⟨values, hp, rfl⟩
  · exact h.passes hp
  · exact ⟨h.stored, nofun, h.sent⟩
  · -- taking
    refine ⟨nofun, fun values hv => ?_, h.sent⟩
    obtain rfl := Option.some.inj hv
    cases init with
    | true => exact h.stored.addInitialValues
    | false => exact h.stored
  · exact h.delivered hp hc
  · exact ⟨h.stored.restore (h.flight values (by rw [hp]; rfl)), nofun, h.sent⟩

theorem Traced.step (h : Traced dpConfig s) (hc : AllRegistered s e) (hs : step dpConfig s e = some s') :
    Traced dpConfig s' := by
  cases e with
  | run input => exact h.run hc hs
  | store i =>
    obtain ⟨call, -, rfl⟩ := Option.map_eq_some_iff.mp hs
    refine ⟨h.stored.store call, fun values hv => (h.flight values hv).snoc call, ?_⟩
    exact fun d hd name v hv => (h.sent d hd name v hv).snoc call
  | feed call =>
    obtain rfl := Option.some.inj hs
    split <;> exact ⟨h.stored, h.flight, h.sent⟩
  | shutdown =>
    obtain rfl := Option.some.inj hs
    split <;> exact ⟨h.stored, h.flight, h.sent⟩
  | client connected =>
    obtain rfl := Option.some.inj hs
    exact ⟨h.stored, h.flight, h.sent⟩
  | stop =>
    obtain ⟨-, hs⟩ := Option.ite_none_right_eq_some.mp hs
    obtain rfl := Option.some.inj hs
    exact ⟨nofun, h.flight, h.sent⟩

theorem traced_initial : Traced dpConfig (State.initial : State D) := ⟨nofun, nofun, nofun⟩

theorem Traced.of_accepted {v : Value D} (h : Traced dpConfig s) (hv : v ∈ accepted s.sent name) :
    Genuine dpConfig s.fed name v := by
  obtain ⟨d, hd, hv⟩ := List.mem_filterMap.mp hv
  exact h.sent d hd name v hv

/-- Whatever the broker answers, in every run with all names registered. -/
theorem accepted_genuine (dpConfig : DatapointConfiguration D) (events : List (Event D))
    (hc : Along (step dpConfig) AllRegistered .initial events) :
    Throughout (step dpConfig) (fun s => ∀ name, ∀ v ∈ accepted s.sent name, Genuine dpConfig s.fed name v)
      .initial events := by
  have htraced := hc.throughout (fun _ _ _ h hc hs => Traced.step h hc hs) traced_initial
  exact htraced.mono fun _ h _ _ hv => h.of_accepted hv

theorem accepted_genuine_bench :
    Along (step benchConfig) AllRegistered .initial benchBatch ∧
      Throughout (step benchConfig) (fun s => ∀ name, ∀ v ∈ accepted s.sent name,
        Genuine benchConfig s.fed name v) .initial benchBatch ∧
      (Atomic.run (step benchConfig) .initial benchBatch).map (fun s => accepted s.sent "Position") =
        some [⟨some 30, .put 1⟩] :=
  ⟨by decide, accepted_genuine _ _ (by decide), by decide⟩

end KuksaServices.Feeder
