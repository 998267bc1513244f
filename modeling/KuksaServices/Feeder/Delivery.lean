import KuksaServices.Feeder.Slots

/-!
# What becomes of a fed value

Nothing fed is lost or reordered (`fed_values_delivered`), and once a request
of a session is accepted the session sends no initial value any more
(`initial_values_first`). The first batch of every session carries the
initial value of each name without a queued one, so a reconnect replaces
what the broker knew.
-/

namespace KuksaServices.Feeder

open Atomic (Dict Origin Slot Along Throughout)

variable {D : Type} {dpConfig : DatapointConfiguration D} {s s' : State D}

-- ---------------------------------------------------------------------------
-- Nothing is lost or reordered
-- ---------------------------------------------------------------------------

structure Orderly (s : State D) : Prop where
  sessions : Sessions s
  filled : ∀ name, (slot s name).Filled

theorem orderly_initial : Orderly (State.initial : State D) :=
  ⟨⟨nofun, nofun, nofun⟩, fun _ => ⟨fun _ => rfl, nofun, nofun⟩⟩

theorem Orderly.step (h : Orderly s) (hs : step dpConfig s e = some s') : Orderly s' := by
  refine ⟨h.sessions.step hs, fun name => ?_⟩
  have hstep : Slot.Step false (slot s name) (slot s' name) := step_slot h.sessions hs nofun
  exact (h.filled name).step hstep

/-- The latest fed value of a name is queued, in the batch in flight, or the
last fed value of that name that the broker accepted. -/
def Delivered (s : State D) (name : String) : Prop :=
  ∀ n, latestFed s.fed name = some n →
    (∃ v, s.storedValues.lookup name = some v ∧ v.origin = .put n) ∨
    (∃ values v, s.place.batch? = some values ∧ values.lookup name = some v ∧ v.origin = .put n) ∨
    (acceptedPuts s.sent name).getLast? = some n

theorem delivered_of_inLine (h : (slot s name).InLine) : Delivered s name := by
  intro n hn
  rcases h.latest_cases hn with hstored | hflight | hlast
  · exact .inl (by simpa [slot] using hstored)
  · obtain ⟨v, hv, horigin⟩ := Option.map_eq_some_iff.mp hflight
    obtain ⟨values, hvalues, hv⟩ := Option.bind_eq_some_iff.mp hv
    exact .inr (.inl ⟨values, v, hvalues, hv, horigin⟩)
  · exact .inr (.inr hlast)

/-- Whatever the broker answers, in every run with care. -/
theorem fed_values_delivered (dpConfig : DatapointConfiguration D) (events : List (Event D))
    (hc : Along (step dpConfig) Careful .initial events) :
    Throughout (step dpConfig) (fun s => ∀ name,
      (acceptedPuts s.sent name).Pairwise (· < ·) ∧ Delivered s name) .initial events := by
  have hline : Throughout (step dpConfig)
      (fun s => Orderly s ∧ ∀ name, (slot s name).InLine) .initial events := by
    refine hc.throughout ?_ ⟨orderly_initial, fun _ => ⟨List.Pairwise.nil, nofun, rfl⟩⟩
    rintro s e s' ⟨hord, hline⟩ hc hs
    refine ⟨hord.step hs, fun name => ?_⟩
    exact (hline name).step (hord.filled name)
      (step_slot hord.sessions hs fun _ => ⟨hc, hline name⟩)
  refine hline.mono fun s hs name => ⟨(hs.2 name).accepted_ordered, delivered_of_inLine (hs.2 name)⟩

-- ---------------------------------------------------------------------------
-- A broker that goes away
-- ---------------------------------------------------------------------------

def benchConfig : DatapointConfiguration (Option Nat) :=
  [⟨"Position", .uint16, none⟩, ⟨"RowCount", .uint8, some 2⟩]

def benchConnect : List (Event (Option Nat)) :=
  [.run .go, .run (.waitForConnected true), .run .go,
    .run (.metadata (.ok [⟨7, "Position", .uint16⟩, ⟨8, "RowCount", .uint8⟩])), .run .go, .run .go]

def benchFeed (value : Nat) : List (Event (Option Nat)) :=
  [.feed (.feedValue "Position" (some value)), .store 0]

/-- A value is fed before the first batch and one while the second is in
flight, which fails; `Run` reconnects and sends what is left. -/
def benchRestored : List (Event (Option Nat)) :=
  List.flatten [
    benchConnect, benchFeed 20, [.run .go, .run (.updated (.ok [])), .run .go, .run .go],
    benchFeed 30, [.run (.wakes false), .run .go, .run .go, .run .go],
    benchFeed 40, [.run (.updated (.error .unavailable)), .run .go, .run .go, .run .go, .run .go,
      .run .go],
    benchConnect, [.run .go, .run (.updated (.ok []))]]

theorem fed_values_delivered_bench :
    Along (step benchConfig) Careful .initial benchRestored ∧
      Throughout (step benchConfig) (fun s => ∀ name,
        (acceptedPuts s.sent name).Pairwise (· < ·) ∧ Delivered s name) .initial benchRestored :=
  ⟨by decide, fed_values_delivered _ _ (by decide)⟩

-- ---------------------------------------------------------------------------
-- Initial values
-- ---------------------------------------------------------------------------

def Delivery.CarriesInitial (d : Delivery D) : Prop :=
  ∃ id v, d.request.lookup id = some v ∧ v.origin = .filler

/-- After an accepted request its session sends no initial value. -/
def InitialFirst (sent : List (Delivery D)) : Prop :=
  sent.Pairwise fun d d' => d'.session = d.session → d.reply.isOk = true → ¬d'.CarriesInitial

def brokerValue (sent : List (Delivery D)) (name : String) : Option (Value D) :=
  (accepted sent name).getLast?

/-- Once the current session had a fed value of the name accepted, the
broker's value is the fed one that was accepted last. -/
def KeepsFed (s : State D) (name : String) : Prop :=
  (∃ d ∈ s.sent, d.session = s.session ∧ ∃ v n, d.accepted? name = some v ∧ v.origin = .put n) →
    ∃ v n, brokerValue s.sent name = some v ∧ v.origin = .put n ∧
      (acceptedPuts s.sent name).getLast? = some n

def State.hasSent (s : State D) : Bool := s.sent.any (·.session == s.session)

/-- A batch takes what is queued and, as the first of its session, the
initial value of every other configured name. -/
def TakesBatch (dpConfig : DatapointConfiguration D) (s : State D) (e : Event D) : Prop :=
  ∀ s' values, step dpConfig s e = some s' → s.place.batch? = none → s'.place.batch? = some values →
    ∀ name, values.lookup name = (s.storedValues.lookup name).or
      (if s.hasSent then none else initialValue? dpConfig name)

theorem brokerValue_snoc (sent : List (Delivery D)) (d : Delivery D) (name : String) :
    brokerValue (sent ++ [d]) name = (d.accepted? name).or (brokerValue sent name) := by
  unfold brokerValue
  rw [accepted_snoc]
  cases d.accepted? name <;> simp

theorem acceptedPuts_getLast? (h : brokerValue sent name = some v) (hv : v.origin = .put n) :
    (acceptedPuts sent name).getLast? = some n := by
  obtain ⟨before, hbefore⟩ := List.getLast?_eq_some_iff.mp h
  simp [acceptedPuts, hbefore, hv, Origin.put?]

theorem Orderly.carries_fed {id : DatapointId} {v : Value D} (h : Orderly s)
    (hset : s.settled = true) (hp : s.place = .sending values)
    (hv : (updateRequest s.idMap values).lookup id = some v) : ∃ n, v.origin = .put n := by
  obtain ⟨name, hname⟩ := mem_of_updateRequest hv
  have hflight := ((h.filled name).settled hset).2
  simp only [slot, hp, Place.batch?, Option.bind_some, hname, Option.map_some] at hflight
  cases ho : v.origin with
  | filler => exact absurd (congrArg some ho) hflight
  | put n => exact ⟨n, rfl⟩

theorem settled_of_mem {d : Delivery D} (hd : d ∈ s.sent) (hses : d.session = s.session)
    (hok : d.reply.isOk = true) : s.settled = true :=
  List.any_eq_true.mpr ⟨d, hd, by simp [hses, hok]⟩

theorem step_sent (hs : step dpConfig s e = some s') :
    s'.sent = s.sent ∧ (s'.session = s.session ∨ s'.session = s.session + 1) ∨
      ∃ values reply, s.place = .sending values ∧ s'.session = s.session ∧
        s'.sent = s.sent ++ [⟨s.session, s.idMap, updateRequest s.idMap values, reply⟩] := by
  rcases step_cases hs with ⟨input, -, hs⟩ | ⟨hsent, hsession, -⟩
  · rcases runStep_cases hs with hp | ⟨-, rfl⟩ | ⟨init, -, rfl⟩ | ⟨values, reply, hp, -, rfl⟩ |
      ⟨values, -, rfl⟩
    · exact .inl ⟨hp.sent, .inl hp.session⟩
    · exact .inl ⟨rfl, .inr rfl⟩
    · exact .inl ⟨rfl, .inl rfl⟩
    · obtain ⟨-, -, hsession, hsent, -⟩ := delivered_eq values reply s
      exact .inr ⟨values, reply, hp, hsession, hsent⟩
    · exact .inl ⟨rfl, .inl rfl⟩
  · exact .inl ⟨hsent, .inl hsession⟩

theorem InitialFirst.step (h : InitialFirst s.sent) (ho : Orderly s)
    (hs : step dpConfig s e = some s') : InitialFirst s'.sent := by
  rcases step_sent hs with ⟨hsent, -⟩ | ⟨values, reply, hp, -, hsent⟩
  · rw [hsent]
    exact h
  · rw [hsent]
    refine List.pairwise_append.mpr ⟨h, List.pairwise_singleton .., fun d hd d' hd' => ?_⟩
    obtain rfl := List.mem_singleton.mp hd'
    rintro hses hok ⟨id, v, hv, hfiller⟩
    obtain ⟨n, hn⟩ := ho.carries_fed (settled_of_mem hd hses.symm hok) hp hv
    cases hfiller.symm.trans hn

theorem KeepsFed.step (h : KeepsFed s name) (ho : Orderly s) (hs : step dpConfig s e = some s') :
    KeepsFed s' name := by
  rcases step_sent hs with ⟨hsent, hses | hses⟩ | ⟨values, reply, hp, hses, hsent⟩
  · unfold KeepsFed
    rw [hsent, hses]
    exact h
  · rintro ⟨d, hd, hd', -⟩
    -- a new session has no delivery yet
    rw [hsent] at hd
    have := ho.sessions.bound d hd
    omega
  · rintro ⟨d, hd, hdses, v, n, hv, hfed⟩
    rw [hsent] at hd ⊢
    rw [hses] at hdses
    suffices hbroker : ∃ u m, brokerValue (s.sent ++ [_]) name = some u ∧ u.origin = .put m by
      obtain ⟨u, m, hu, hm⟩ := hbroker
      exact ⟨u, m, hu, hm, acceptedPuts_getLast? hu hm⟩
    rw [brokerValue_snoc]
    rcases List.mem_append.mp hd with hd | hd
    · have hok : d.reply.isOk = true := (Option.ite_none_right_eq_some.mp hv).1
      cases hnew : Delivery.accepted? ⟨s.session, s.idMap, updateRequest s.idMap values, reply⟩ name with
      | none =>
        obtain ⟨u, m, hu, hm, -⟩ := h ⟨d, hd, hdses, v, n, hv, hfed⟩
        exact ⟨u, m, hu, hm⟩
      | some u =>
        obtain ⟨-, hu⟩ := Option.ite_none_right_eq_some.mp hnew
        obtain ⟨id, -, hu⟩ := Option.bind_eq_some_iff.mp hu
        obtain ⟨m, hm⟩ := ho.carries_fed (settled_of_mem hd hdses hok) hp hu
        exact ⟨u, m, rfl, hm⟩
    · obtain rfl := List.mem_singleton.mp hd
      exact ⟨v, n, by rw [hv]; rfl, hfed⟩

theorem Sessions.hasSent (h : Sessions s) (hp : s.place = .taking init) : s.hasSent = !init := by
  cases init with
  | true =>
    simp only [State.hasSent, Bool.not_true, List.any_eq_false, beq_iff_eq]
    intro d hd
    exact Nat.ne_of_lt (h.opening (by rw [hp]; rfl) d hd)
  | false =>
    obtain ⟨d, hd, hses⟩ := h.later (by rw [hp]; rfl)
    exact List.any_eq_true.mpr ⟨d, hd, by simp [hses]⟩

theorem Sessions.takesBatch (h : Sessions s) (e : Event D) : TakesBatch dpConfig s e := by
  intro s' values hs hbatch hbatch' name
  rcases step_cases hs with ⟨input, -, hs⟩ | ⟨-, -, hplace⟩
  · rcases runStep_cases hs with hp | ⟨-, rfl⟩ | ⟨init, hp, rfl⟩ | ⟨values, reply, hp, -, rfl⟩ |
      ⟨values, -, rfl⟩
    · cases hp.place.batch'.symm.trans hbatch'
    · cases hbatch'
    · obtain rfl := Option.some.inj hbatch'
      rw [h.hasSent hp]
      cases init with
      | true => exact lookup_addInitialValues s.storedValues name
      | false => simp
    · rw [hp] at hbatch
      cases hbatch
    · cases hbatch'
  · rw [hplace, hbatch] at hbatch'
    cases hbatch'

/-- In every run, whatever the broker answers and whenever it goes away. -/
theorem initial_values_first (dpConfig : DatapointConfiguration D) (events : List (Event D)) :
    Throughout (step dpConfig) (fun s => InitialFirst s.sent ∧ (∀ name, KeepsFed s name) ∧
      ∀ e, TakesBatch dpConfig s e) .initial events := by
  have h : Throughout (step dpConfig) (fun s => Orderly s ∧ InitialFirst s.sent ∧
      ∀ name, KeepsFed s name) .initial events := by
    refine Atomic.throughout_of_keeps ?_ ⟨orderly_initial, List.Pairwise.nil, fun name => nofun⟩
    rintro s e s' ⟨hord, hfirst, hkeeps⟩ hs
    exact ⟨hord.step hs, hfirst.step hord hs, fun name => (hkeeps name).step hord hs⟩
  exact h.mono fun s hs => ⟨hs.2.1, hs.2.2, hs.1.sessions.takesBatch⟩

def benchReconnect : List (Event (Option Nat)) :=
  List.flatten [
    benchConnect, benchFeed 20, [.run .go, .run (.updated (.ok [])), .run .go, .run .go],
    [.client false, .run (.wakes true), .run .go, .run .go, .run .go],
    benchConnect, [.run .go, .run (.updated (.ok []))]]

/-- The broker knows 20 and is told the initial value. -/
theorem reconnect_sends_initial :
    ∃ s, Atomic.run (step benchConfig) .initial benchReconnect = some s ∧
      latestFed s.fed "Position" = some 0 ∧ acceptedPuts s.sent "Position" = [0] ∧
      s.sent.map (fun d => d.value? "Position") = [some ⟨some 20, .put 0⟩, some ⟨none, .filler⟩] ∧
      brokerValue s.sent "Position" = some ⟨none, .filler⟩ := by
  have hend : (Atomic.run (step benchConfig) .initial benchReconnect).map (fun s =>
      ((latestFed s.fed "Position", acceptedPuts s.sent "Position"),
        s.sent.map (fun d => d.value? "Position"), brokerValue s.sent "Position")) =
      some ((some 0, [0]), [some ⟨some 20, .put 0⟩, some ⟨none, .filler⟩],
        some ⟨none, .filler⟩) := by
    decide
  obtain ⟨s, hrun, hs⟩ := Option.map_eq_some_iff.mp hend
  simp only [Prod.mk.injEq] at hs
  obtain ⟨⟨hlatest, haccepted⟩, hvalues, hbroker⟩ := hs
  exact ⟨s, hrun, hlatest, haccepted, hvalues, hbroker⟩

end KuksaServices.Feeder
