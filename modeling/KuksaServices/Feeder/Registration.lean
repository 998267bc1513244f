import KuksaServices.Feeder.Delivery

/-!
# The registration a request is made under

The feeder's `Run` and the seat position subscriber share one `KuksaClient`,
and both set its flag `connected_`. `Watched` keeps beside the feeder the ids
that the broker gave to the registration in force. As long as the other user
leaves the flag alone where `Run` depends on it (`Exclusive`), a request is
made under a registration of its own session (`sent_under_registration`);
without that, `Run` feeds what it never registered.
-/

namespace KuksaServices.Feeder

open Atomic (Dict Along Throughout)

variable {D : Type} {dpConfig : DatapointConfiguration D} {s s' : State D}

-- ---------------------------------------------------------------------------
-- The registration in force
-- ---------------------------------------------------------------------------

def Event.ids : Event D → List (String × DatapointId)
  | .run (.metadata (.ok list)) => list.map fun m => (m.name, m.id)
  | .run (.registered (.ok results)) => results.entries.map fun e => (e.1, e.2)
  | _ => []

def registers (dpConfig : DatapointConfiguration D) (s : State D) (e : Event D) : Bool :=
  match s.place, e with
  | .connectedTest, .run .go => s.feederActive && s.connected && dpConfig.isEmpty
  | .metadata, .run (.metadata reply) => checkDatapoints dpConfig (getMetadata reply s).dpMeta
  | .registering, .run (.registered (.ok _)) => true
  | _, _ => false

/-- A call of the feeder fails, or somebody finds the connection missing. -/
def Event.disconnects : Event D → Bool
  | .run (.waitForConnected false) | .run (.metadata (.error _)) | .run (.registered (.error _))
  | .run (.updated (.error _)) | .client false => true
  | _ => false

/-- The feeder and the ids of the last registration, unless something has
failed since. -/
structure Watched (D : Type) where
  state : State D
  registration : Option (List (String × DatapointId))

def Watched.initial : Watched D := ⟨.initial, none⟩

def watch (dpConfig : DatapointConfiguration D) (w : Watched D) (e : Event D) :
    Option (List (String × DatapointId)) :=
  if registers dpConfig w.state e then some e.ids
  else if e.disconnects then none
  else w.registration

def watchedStep (dpConfig : DatapointConfiguration D) (w : Watched D) (e : Event D) :
    Option (Watched D) :=
  (step dpConfig w.state e).map fun s => ⟨s, watch dpConfig w e⟩

/-- The ids cover the configured names, and each is one of those the broker
gave to the registration in force. -/
def UnderRegistration (dpConfig : DatapointConfiguration D) (w : Watched D) : Prop :=
  ∃ ids, w.registration = some ids ∧
    (∀ dp ∈ dpConfig, (w.state.idMap.lookup dp.name).isSome = true) ∧
    ∀ name id, w.state.idMap.lookup name = some id → (name, id) ∈ ids

-- ---------------------------------------------------------------------------
-- Who may touch the flag
-- ---------------------------------------------------------------------------

/-- Where `Run` stands in a session: before the registration, in the feeding
loop, from the loop's test of the flag to the reply, or at the end. -/
inductive Phase where
  | resting
  | looping
  | requesting
  | leaving
  deriving DecidableEq, Repr

def Place.phase : Place D → Phase
  | .outer | .connecting | .connectedTest | .metadata | .registering | .finished => .resting
  | .ready | .inner _ | .restoring _ | .waitTest | .emptyTest | .waiting | .tail => .looping
  | .taking _ | .sending _ => .requesting
  | .cleanup | .unready => .leaving

/-- The other user of the client turns the flag on only before the
registration, and finds no connection missing during a request. After a
registration that failed, `GetMetadata` lists again what it listed before.
The broker maps each name of a registration to an id. -/
def Exclusive (dpConfig : DatapointConfiguration D) (w : Watched D) : Event D → Prop
  | .client true => w.state.connected = true ∨ w.state.place.phase = .resting
  | .client false => w.state.place.phase ≠ .requesting
  | .run (.metadata (.ok list)) => ∀ name ∈ w.state.dpMeta.keys, name ∈ list.map (·.name)
  | .run (.registered (.ok results)) => ∀ dp ∈ dpConfig, (results.lookup dp.name).isSome = true
  | _ => True

-- ---------------------------------------------------------------------------
-- What a registration leaves behind
-- ---------------------------------------------------------------------------

theorem lookup_metadata {list : List Metadata} {dpMeta : Dict String Metadata}
    (h : (list.foldl (fun dpMeta m => dpMeta.insert m.name m) dpMeta).lookup name = some md) :
    md ∈ list ∧ md.name = name ∨ name ∉ list.map (·.name) ∧ dpMeta.lookup name = some md := by
  induction list generalizing dpMeta with
  | nil => exact .inr ⟨List.not_mem_nil, h⟩
  | cons m list ih =>
    rcases ih h with ⟨hmem, hname⟩ | ⟨hmem, hlookup⟩
    · exact .inl ⟨List.mem_cons_of_mem _ hmem, hname⟩
    · by_cases hm : name = m.name
      · subst hm
        rw [AList.lookup_insert] at hlookup
        obtain rfl := Option.some.inj hlookup
        exact .inl ⟨List.mem_cons_self, rfl⟩
      · rw [AList.lookup_insert_ne hm] at hlookup
        refine .inr ⟨?_, hlookup⟩
        rw [List.map_cons, List.mem_cons]
        rintro (hcons | hcons)
        · exact hm hcons
        · exact hmem hcons

theorem lookup_ids (dpMeta : Dict String Metadata) (name : String) :
    AList.lookup name (dpMeta.entries.foldl (fun ids m => ids.insert m.1 m.2.id)
      (∅ : Dict String DatapointId)) = (dpMeta.lookup name).map (·.id) := by
  refine (Dict.lookup_foldl_insert (g := some) (f := Metadata.id) rfl (fun _ h => Option.some.inj h)
    dpMeta.nodupKeys ∅).trans ?_
  simp [AList.lookup]

theorem covered_of_check (h : checkDatapoints dpConfig dpMeta = true) :
    ∀ dp ∈ dpConfig, (dpMeta.lookup dp.name).isSome = true := by
  intro dp hdp
  have hdp := List.all_eq_true.mp h dp hdp
  cases hm : dpMeta.lookup dp.name with
  | none => simp [hm] at hdp
  | some md => rfl

theorem under_afterMetadata (hids : s.idMap = ∅) (hcheck : checkDatapoints dpConfig s.dpMeta = true)
    (hfresh : ∀ name md, s.dpMeta.lookup name = some md → (name, md.id) ∈ ids) :
    UnderRegistration dpConfig ⟨afterMetadata dpConfig s, some ids⟩ := by
  have hlookup : ∀ name, (afterMetadata dpConfig s).idMap.lookup name =
      (s.dpMeta.lookup name).map (·.id) := by
    intro name
    simp only [afterMetadata, hcheck, if_true, hids]
    exact lookup_ids s.dpMeta name
  refine ⟨ids, rfl, fun dp hdp => ?_, fun name id hid => ?_⟩
  · simpa only [hlookup, Option.isSome_map] using covered_of_check hcheck dp hdp
  · obtain ⟨md, hmd, rfl⟩ := Option.map_eq_some_iff.mp ((hlookup name).symm.trans hid)
    exact hfresh name md hmd

-- ---------------------------------------------------------------------------
-- The invariant
-- ---------------------------------------------------------------------------

structure Unregistered (dpConfig : DatapointConfiguration D) (s : State D) : Prop where
  idMap : s.idMap = ∅
  feederReady : s.feederReady = false
  dpMeta : dpConfig.isEmpty = true → s.dpMeta = ∅
  incomplete : dpConfig.isEmpty = false → checkDatapoints dpConfig s.dpMeta = false

def KeptIn (dpConfig : DatapointConfiguration D) (w : Watched D) : Phase → Prop
  | .resting => Unregistered dpConfig w.state
  | .looping => (w.state.feederActive && w.state.connected) = true → UnderRegistration dpConfig w
  | .requesting => UnderRegistration dpConfig w
  | .leaving => (w.state.feederActive && w.state.connected) = false ∧
    (w.state.place = .unready → w.state.idMap = ∅ ∧ w.state.dpMeta = ∅)

def Kept (dpConfig : DatapointConfiguration D) (w : Watched D) : Prop :=
  KeptIn dpConfig w w.state.place.phase

variable {w w' : Watched D}

theorem Kept.within (h : Kept dpConfig w) (hp : w.state.place.phase = phase) :
    KeptIn dpConfig w phase := by
  rw [← hp]
  exact h

theorem UnderRegistration.congr (h : UnderRegistration dpConfig w)
    (hids : w'.state.idMap = w.state.idMap) (hreg : w'.registration = w.registration) :
    UnderRegistration dpConfig w' := by
  unfold UnderRegistration
  rw [hids, hreg]
  exact h

theorem Unregistered.moves (h : Unregistered dpConfig s) (hp : p.phase = .resting) :
    Kept dpConfig ⟨{ s with connected := c, feederActive := a, place := p }, r⟩ := by
  unfold Kept
  simp only [hp]
  exact ⟨h.idMap, h.feederReady, h.dpMeta, h.incomplete⟩

-- ---------------------------------------------------------------------------
-- The steps of `Run`
-- ---------------------------------------------------------------------------

theorem watch_of_registered (hp : w.state.place.phase ≠ .resting) (he : e.disconnects = false) :
    watch dpConfig w e = w.registration := by
  have hreg : registers dpConfig w.state e = false := by
    unfold registers
    split <;> simp_all [Place.phase]
  simp [watch, hreg, he]

theorem Kept.loops (h : Kept dpConfig w) (hw : w.state.place.phase = .looping)
    (he : e.disconnects = false) (hids : s'.idMap = w.state.idMap)
    (hactive : (s'.feederActive && s'.connected) = (w.state.feederActive && w.state.connected))
    (hp : s'.place.phase = .looping) : Kept dpConfig ⟨s', watch dpConfig w e⟩ := by
  have hin : KeptIn dpConfig w .looping := h.within hw
  unfold Kept
  simp only [hp]
  intro hc
  refine (hin (hactive.symm.trans hc)).congr hids ?_
  exact watch_of_registered (by rw [hw]; nofun) he

theorem Kept.afterMetadata (hids : s.idMap = ∅) (hready : s.feederReady = false)
    (hfresh : checkDatapoints dpConfig s.dpMeta = true →
      ∃ ids, r = some ids ∧ ∀ name md, s.dpMeta.lookup name = some md → (name, md.id) ∈ ids) :
    Kept dpConfig ⟨Feeder.afterMetadata dpConfig s, r⟩ := by
  cases hcheck : checkDatapoints dpConfig s.dpMeta with
  | true =>
    obtain ⟨ids, rfl, hgiven⟩ := hfresh hcheck
    have hunder := under_afterMetadata hids hcheck hgiven
    have hplace : (Feeder.afterMetadata dpConfig s).place = .ready := by
      simp [Feeder.afterMetadata, hcheck]
    unfold Kept
    simp only [hplace]
    exact fun _ => hunder
  | false =>
    have hplace : Feeder.afterMetadata dpConfig s = { s with place := .registering } := by
      simp [Feeder.afterMetadata, hcheck]
    have hempty : dpConfig.isEmpty = true → s.dpMeta = ∅ := by
      intro hnil
      simp [List.isEmpty_iff.mp hnil, checkDatapoints] at hcheck
    rw [hplace]
    exact Unregistered.mk hids hready hempty fun _ => hcheck

theorem Kept.connectedTest (h : Unregistered dpConfig w.state) (hp : w.state.place = .connectedTest)
    (hs : runStep dpConfig w.state .go = some s') :
    Kept dpConfig ⟨s', watch dpConfig w (.run .go)⟩ := by
  simp only [runStep, hp, Option.some.injEq] at hs
  obtain rfl := hs
  simp only [watch, registers, hp]
  cases hactive : w.state.feederActive && w.state.connected with
  | false =>
    -- without a connection `Run` goes on as if it had registered
    intro hc
    cases hactive.symm.trans hc
  | true =>
    cases hempty : dpConfig.isEmpty with
    | false => exact Unregistered.mk h.idMap h.feederReady h.dpMeta h.incomplete
    | true =>
      refine .afterMetadata h.idMap h.feederReady fun _ => ⟨[], rfl, fun name md hmd => ?_⟩
      rw [h.dpMeta hempty] at hmd
      cases hmd

theorem Kept.metadata (h : Unregistered dpConfig w.state) (hp : w.state.place = .metadata)
    (hx : Exclusive dpConfig w (.run (.metadata reply))) :
    Kept dpConfig ⟨Feeder.afterMetadata dpConfig (getMetadata reply w.state),
      watch dpConfig w (.run (.metadata reply))⟩ := by
  simp only [watch, registers, hp]
  cases reply with
  | ok list =>
    refine .afterMetadata (s := getMetadata (.ok list) w.state) h.idMap h.feederReady fun hcheck => ?_
    refine ⟨_, if_pos hcheck, fun name md hmd => ?_⟩
    rcases lookup_metadata hmd with ⟨hmem, rfl⟩ | ⟨hmem, hold⟩
    · exact List.mem_map.mpr ⟨md, hmem, rfl⟩
    · refine absurd (hx name ?_) hmem
      exact AList.mem_keys.mp (AList.lookup_isSome.mp (by rw [hold]; rfl))
  | error code =>
    refine .afterMetadata (s := getMetadata (.error code) w.state) h.idMap h.feederReady fun hcheck => ?_
    refine ⟨_, if_pos hcheck, fun name md hmd => ?_⟩
    -- what an earlier call has listed does not pass the check
    cases hempty : dpConfig.isEmpty with
    | true =>
      have hold : w.state.dpMeta.lookup name = some md := hmd
      rw [h.dpMeta hempty] at hold
      cases hold
    | false => cases (h.incomplete hempty).symm.trans hcheck

theorem Kept.registered (hp : w.state.place = .registering)
    (hx : Exclusive dpConfig w (.run (.registered (.ok results)))) :
    Kept dpConfig ⟨{ w.state with idMap := results, place := .ready },
      watch dpConfig w (.run (.registered (.ok results)))⟩ := by
  simp only [watch, registers, hp, if_true]
  intro _
  refine ⟨_, rfl, hx, fun name id hid => ?_⟩
  exact List.mem_map.mpr ⟨⟨name, id⟩, AList.mem_lookup_iff.mp hid, rfl⟩

theorem Kept.sending (h : UnderRegistration dpConfig w) (hp : w.state.place = .sending values) :
    Kept dpConfig ⟨delivered values reply w.state, watch dpConfig w (.run (.updated reply))⟩ := by
  cases reply with
  | ok errors =>
    intro _
    exact h.congr rfl (watch_of_registered (by rw [hp]; nofun) rfl)
  | error code =>
    intro hc
    simp [delivered, handleError] at hc

theorem Kept.inner (h : Kept dpConfig w) (hp : w.state.place = .inner init) :
    Kept dpConfig ⟨{ w.state with
      place := if w.state.feederActive && w.state.connected then .taking init else .cleanup },
      watch dpConfig w (.run .go)⟩ := by
  have hin : KeptIn dpConfig w .looping := h.within (by rw [hp]; rfl)
  split
  · rename_i hc
    exact (hin hc).congr rfl (watch_of_registered (by rw [hp]; nofun) rfl)
  · rename_i hc
    exact ⟨Bool.eq_false_iff.mpr hc, nofun⟩

theorem Kept.tail (h : Kept dpConfig w) (hp : w.state.place = .tail) :
    Kept dpConfig ⟨{ w.state with place := if w.state.connected then .inner false else .cleanup },
      watch dpConfig w (.run .go)⟩ := by
  split
  · exact h.loops (by rw [hp]; rfl) rfl rfl rfl rfl
  · rename_i hc
    refine ⟨?_, nofun⟩
    simp only [Bool.eq_false_iff.mpr hc, Bool.and_false]

theorem Kept.runStep (h : Kept dpConfig w) (hx : Exclusive dpConfig w (.run input))
    (hs : runStep dpConfig w.state input = some s') :
    Kept dpConfig ⟨s', watch dpConfig w (.run input)⟩ := by
  have hrests : w.state.place.phase = .resting → KeptIn dpConfig w .resting := h.within
  cases line_of_runStep hs with
  | outer hp => exact (hrests (by rw [hp]; rfl)).moves (by split <;> rfl)
  | connecting _ hp => exact (hrests (by rw [hp]; rfl)).moves rfl
  | connectedTest hp => exact Kept.connectedTest (hrests (by rw [hp]; rfl)) hp hs
  | metadata _ hp => exact Kept.metadata (hrests (by rw [hp]; rfl)) hp hx
  | registered _ hp => exact Kept.registered hp hx
  | refused _ hp => exact (hrests (by rw [hp]; rfl)).moves rfl
  | ready hp => exact h.loops (by rw [hp]; rfl) rfl rfl rfl rfl
  | inner _ hp => exact h.inner hp
  | taking _ hp =>
    have hunder : KeptIn dpConfig w .requesting := h.within (by rw [hp]; rfl)
    exact hunder.congr rfl (watch_of_registered (by rw [hp]; nofun) rfl)
  | sending _ _ hp =>
    have hunder : KeptIn dpConfig w .requesting := h.within (by rw [hp]; rfl)
    exact Kept.sending hunder hp
  | restoring _ hp => exact h.loops (by rw [hp]; rfl) rfl rfl rfl rfl
  | waitTest hp => exact h.loops (by rw [hp]; rfl) rfl rfl rfl (by dsimp only; split <;> rfl)
  | emptyTest hp => exact h.loops (by rw [hp]; rfl) rfl rfl rfl (by dsimp only; split <;> rfl)
  | waiting _ hp => exact h.loops (by rw [hp]; rfl) rfl rfl rfl (by dsimp only; split <;> rfl)
  | tail hp => exact h.tail hp
  | cleanup hp =>
    have hleave : KeptIn dpConfig w .leaving := h.within (by rw [hp]; rfl)
    exact ⟨hleave.1, fun _ => ⟨rfl, rfl⟩⟩
  | unready hp =>
    have hleave : KeptIn dpConfig w .leaving := h.within (by rw [hp]; rfl)
    obtain ⟨hids, hmeta⟩ := hleave.2 hp
    refine Unregistered.mk hids rfl (fun _ => hmeta) fun hne => ?_
    obtain ⟨dp, rest, rfl⟩ := List.exists_cons_of_ne_nil (List.isEmpty_eq_false_iff.mp hne)
    simp [checkDatapoints, hmeta]

-- ---------------------------------------------------------------------------
-- The other threads
-- ---------------------------------------------------------------------------

theorem Kept.client (h : Kept dpConfig w) (hx : Exclusive dpConfig w (.client c)) :
    Kept dpConfig ⟨{ w.state with connected := c }, watch dpConfig w (.client c)⟩ := by
  cases hphase : w.state.place.phase with
  | resting =>
    have hrest : KeptIn dpConfig w .resting := h.within hphase
    exact hrest.moves hphase
  | looping =>
    unfold Kept
    simp only [hphase]
    cases c with
    | false =>
      intro hc
      simp at hc
    | true =>
      rcases hx with hx | hx
      · have hin : KeptIn dpConfig w .looping := h.within hphase
        intro hc
        refine (hin (by rw [hx]; exact hc)).congr rfl ?_
        exact watch_of_registered (by rw [hphase]; nofun) rfl
      · cases hphase.symm.trans hx
  | requesting =>
    unfold Kept
    simp only [hphase]
    cases c with
    | false => exact absurd hphase hx
    | true =>
      have hunder : KeptIn dpConfig w .requesting := h.within hphase
      exact hunder.congr rfl (watch_of_registered (by rw [hphase]; nofun) rfl)
  | leaving =>
    have hleave : KeptIn dpConfig w .leaving := h.within hphase
    unfold Kept
    simp only [hphase]
    refine ⟨?_, hleave.2⟩
    cases c with
    | false => simp
    | true =>
      rcases hx with hx | hx
      · simpa [hx] using hleave.1
      · cases hphase.symm.trans hx

theorem Kept.calls (h : Kept dpConfig w) (hp : s'.place = w.state.place)
    (hids : s'.idMap = w.state.idMap) (hmeta : s'.dpMeta = w.state.dpMeta)
    (hready : s'.feederReady = w.state.feederReady) (hconnected : s'.connected = w.state.connected)
    (hactive : s'.feederActive = true → w.state.feederActive = true) (he : ∀ input, e ≠ .run input)
    (hd : e.disconnects = false) : Kept dpConfig ⟨s', watch dpConfig w e⟩ := by
  have hregisters : registers dpConfig w.state e = false := by
    unfold registers
    split <;> simp_all
  have hwatch : watch dpConfig w e = w.registration := by simp [watch, hregisters, hd]
  have hboth : (s'.feederActive && s'.connected) = true →
      (w.state.feederActive && w.state.connected) = true := by
    rw [hconnected, Bool.and_eq_true, Bool.and_eq_true]
    exact fun hc => ⟨hactive hc.1, hc.2⟩
  unfold Kept at h ⊢
  simp only [hp, hwatch]
  cases hphase : w.state.place.phase with
  | resting =>
    rw [hphase] at h
    obtain ⟨h1, h2, h3, h4⟩ := h
    exact ⟨hids.trans h1, hready.trans h2, hmeta ▸ h3, hmeta ▸ h4⟩
  | looping =>
    rw [hphase] at h
    exact fun hc => (h (hboth hc)).congr hids rfl
  | requesting =>
    rw [hphase] at h
    exact UnderRegistration.congr h hids rfl
  | leaving =>
    rw [hphase] at h
    refine ⟨Bool.eq_false_iff.mpr fun hc => ?_, fun hu => ?_⟩
    · cases h.1.symm.trans (hboth hc)
    · rw [hids, hmeta]
      exact h.2 (hp ▸ hu)

theorem Kept.step (h : Kept dpConfig w) (hx : Exclusive dpConfig w e)
    (hw : watchedStep dpConfig w e = some w') : Kept dpConfig w' := by
  obtain ⟨s', hs, rfl⟩ := Option.map_eq_some_iff.mp hw
  cases e with
  | run input => exact h.runStep hx hs
  | client connected =>
    obtain rfl := Option.some.inj hs
    exact h.client hx
  | feed call =>
    obtain rfl := Option.some.inj hs
    split <;> exact h.calls rfl rfl rfl rfl rfl (fun ha => ha) nofun rfl
  | store i =>
    obtain ⟨call, -, rfl⟩ := Option.map_eq_some_iff.mp hs
    exact h.calls rfl rfl rfl rfl rfl (fun ha => ha) nofun rfl
  | shutdown =>
    obtain rfl := Option.some.inj hs
    split <;> exact h.calls rfl rfl rfl rfl rfl (fun ha => ha) nofun rfl
  | stop =>
    obtain ⟨-, hs⟩ := Option.ite_none_right_eq_some.mp hs
    obtain rfl := Option.some.inj hs
    exact h.calls rfl rfl rfl rfl rfl nofun nofun rfl

-- ---------------------------------------------------------------------------
-- Requests and `Ready`
-- ---------------------------------------------------------------------------

def SentUnderRegistration (dpConfig : DatapointConfiguration D) (w : Watched D) : Prop :=
  (∀ values, w.state.place = .sending values → UnderRegistration dpConfig w) ∧
    (w.state.ready = true → UnderRegistration dpConfig w)

theorem Kept.sentUnderRegistration (h : Kept dpConfig w) : SentUnderRegistration dpConfig w := by
  refine ⟨fun values hp => ?_, fun hready => ?_⟩
  · have hunder : KeptIn dpConfig w .requesting := h.within (by rw [hp]; rfl)
    exact hunder
  · simp only [State.ready, Bool.and_eq_true] at hready
    obtain ⟨hactive, hready⟩ := hready
    have hboth : (w.state.feederActive && w.state.connected) = true := by simp [hactive]
    cases hphase : w.state.place.phase with
    | resting =>
      have hrest : KeptIn dpConfig w .resting := h.within hphase
      cases hrest.feederReady.symm.trans hready
    | looping =>
      have hin : KeptIn dpConfig w .looping := h.within hphase
      exact hin hboth
    | requesting =>
      have hunder : KeptIn dpConfig w .requesting := h.within hphase
      exact hunder
    | leaving =>
      have hleave : KeptIn dpConfig w .leaving := h.within hphase
      cases hleave.1.symm.trans hboth

/-- In every run in which the flag is left alone where `Run` depends on it. -/
theorem sent_under_registration (dpConfig : DatapointConfiguration D) (events : List (Event D))
    (hx : Along (watchedStep dpConfig) (Exclusive dpConfig) .initial events) :
    Throughout (watchedStep dpConfig) (SentUnderRegistration dpConfig) .initial events := by
  have hstart : Kept dpConfig (Watched.initial : Watched D) := by
    refine Unregistered.mk rfl rfl (fun _ => rfl) fun hne => ?_
    obtain ⟨dp, rest, rfl⟩ := List.exists_cons_of_ne_nil (List.isEmpty_eq_false_iff.mp hne)
    rfl
  have hkept := hx.throughout (fun _ _ _ h hx hs => h.step hx hs) hstart
  exact hkept.mono fun _ h => h.sentUnderRegistration

-- ---------------------------------------------------------------------------
-- A flag that is turned on too early
-- ---------------------------------------------------------------------------

instance (w : Watched D) : DecidablePred (Exclusive dpConfig w)
  | .client true => inferInstanceAs (Decidable (_ ∨ _))
  | .client false => inferInstanceAs (Decidable (_ ≠ _))
  | .run (.metadata (.ok _)) => inferInstanceAs (Decidable (∀ name ∈ _, name ∈ _))
  | .run (.registered (.ok _)) => inferInstanceAs (Decidable (∀ dp ∈ dpConfig, _ = _))
  | .feed _ | .store _ | .shutdown | .stop | .run .go | .run (.waitForConnected _)
  | .run (.metadata (.error _)) | .run (.registered (.error _)) | .run (.updated _)
  | .run (.wakes _) => inferInstanceAs (Decidable True)

theorem sent_under_registration_bench :
    Along (watchedStep benchConfig) (Exclusive benchConfig) .initial (.client true :: benchRestored) ∧
      Throughout (watchedStep benchConfig) (SentUnderRegistration benchConfig) .initial
        (.client true :: benchRestored) :=
  ⟨by decide, sent_under_registration _ _ (by decide)⟩

/-- `Run` has waited in vain; the subscriber is connected a moment later. -/
def benchLateFlag : List (Event (Option Nat)) :=
  List.flatten [
    benchFeed 20, [.run .go, .run (.waitForConnected false), .run .go, .client true, .run .go,
      .run .go, .run .go]]

/-- Nothing is registered, `Ready` is true, and the request leaves out the
value that was queued. -/
theorem unregistered_value_dropped :
    ∃ w values, Atomic.run (watchedStep benchConfig) .initial benchLateFlag = some w ∧
      w.state.place = .sending values ∧ values.lookup "Position" = some ⟨some 20, .put 0⟩ ∧
      updateRequest w.state.idMap values = ∅ ∧ w.state.ready = true ∧
      ¬SentUnderRegistration benchConfig w := by
  refine ⟨_, _, rfl, rfl, rfl, rfl, rfl, fun h => ?_⟩
  obtain ⟨ids, hids, -⟩ := h.2 rfl
  cases hids

end KuksaServices.Feeder
