import KuksaServices.Feeder.Delivery

/-!
# A batch stays whole

The values of one call are queued under one lock, taken together and restored
together, so wherever one of them is, the others are there too or newer ones
in their place (`Whole`). With all names registered this is what a request
carries (`batches_consistent`).
-/

namespace KuksaServices.Feeder

open Atomic (Dict Origin Along Throughout)

variable {D : Type} {dpConfig : DatapointConfiguration D} {s s' : State D}

-- ---------------------------------------------------------------------------
-- Whole maps
-- ---------------------------------------------------------------------------

def FedBy (fed : List (FeedCall D)) (m : Nat) (name : String) (v : Value D) : Prop :=
  v.origin = .put m ∧ ∃ call, fed[m]? = some call ∧ call.value? name = some v.datapoint

/-- Every name of call `k` has the value of this call or one that a later
call fed under the name. -/
def Covers (fed : List (FeedCall D)) (k : Nat) (value? : String → Option (Value D)) : Prop :=
  ∃ call, fed[k]? = some call ∧ ∀ name, (call.value? name).isSome = true →
    ∃ v m, value? name = some v ∧ k ≤ m ∧ FedBy fed m name v

def Whole (fed : List (FeedCall D)) (values : DatapointValues D) : Prop :=
  ∀ name v k, values.lookup name = some v → v.origin = .put k →
    FedBy fed k name v ∧ Covers fed k fun name => values.lookup name

def Delivery.Consistent (fed : List (FeedCall D)) (d : Delivery D) : Prop :=
  ∀ id v k, d.request.lookup id = some v → v.origin = .put k → Covers fed k d.value?

section
variable {fed : List (FeedCall D)} {values stored : DatapointValues D} {k : Nat}

theorem Covers.lt (h : Covers fed k value?) : k < fed.length := by
  obtain ⟨call, hcall, -⟩ := h
  exact (List.getElem?_eq_some_iff.mp hcall).1

theorem Covers.mono (h : Covers fed k value?) (hv : ∀ name v, value? name = some v →
    value?' name = some v) : Covers fed k value?' := by
  obtain ⟨call, hcall, hnames⟩ := h
  refine ⟨call, hcall, fun name hname => ?_⟩
  obtain ⟨v, m, hvalue, hrest⟩ := hnames name hname
  exact ⟨v, m, hv name v hvalue, hrest⟩

theorem getElem?_snoc {l : List α} (h : l[k]? = some a) (b : α) : (l ++ [b])[k]? = some a := by
  rw [List.getElem?_append_left (List.getElem?_eq_some_iff.mp h).1]
  exact h

theorem FedBy.snoc (h : FedBy fed m name v) (call : FeedCall D) :
    FedBy (fed ++ [call]) m name v := by
  obtain ⟨ho, later, hlater, hvalue⟩ := h
  exact ⟨ho, later, getElem?_snoc hlater call, hvalue⟩

theorem Covers.snoc (h : Covers fed k value?) (call : FeedCall D) :
    Covers (fed ++ [call]) k value? := by
  obtain ⟨batch, hbatch, hnames⟩ := h
  refine ⟨batch, getElem?_snoc hbatch call, fun name hname => ?_⟩
  obtain ⟨v, m, hvalue, hle, hfed⟩ := hnames name hname
  exact ⟨v, m, hvalue, hle, hfed.snoc call⟩

theorem Whole.snoc (h : Whole fed values) (call : FeedCall D) : Whole (fed ++ [call]) values := by
  intro name v k hv ho
  obtain ⟨hfed, hcovers⟩ := h name v k hv ho
  exact ⟨hfed.snoc call, hcovers.snoc call⟩

theorem Delivery.Consistent.snoc {d : Delivery D} (h : d.Consistent fed) (call : FeedCall D) :
    d.Consistent (fed ++ [call]) :=
  fun id v k hv ho => (h id v k hv ho).snoc call

theorem Whole.addInitialValues (h : Whole fed values) :
    Whole fed (addInitialValues dpConfig values) := by
  intro name v k hv ho
  rw [lookup_addInitialValues] at hv
  rcases Option.or_eq_some_iff.mp hv with hv | ⟨-, hinit⟩
  · obtain ⟨hfed, hcovers⟩ := h name v k hv ho
    refine ⟨hfed, hcovers.mono fun name v hv => ?_⟩
    refine (lookup_addInitialValues values name).trans ?_
    rw [hv]
    rfl
  · -- an initial value comes from no call
    obtain ⟨dp, -, rfl⟩ := Option.map_eq_some_iff.mp hinit
    cases ho

-- ---------------------------------------------------------------------------
-- Storing
-- ---------------------------------------------------------------------------

theorem lookup_store_some {call : FeedCall D} (hd : call.value? name = some datapoint) :
    (call.store n stored).lookup name = some ⟨datapoint, .put n⟩ := by
  rw [lookup_store, hd]
  rfl

theorem lookup_store_none {call : FeedCall D} (hd : call.value? name = none) :
    (call.store n stored).lookup name = stored.lookup name := by
  rw [lookup_store, hd]
  rfl

theorem fedBy_last {call : FeedCall D} (hd : call.value? name = some datapoint) :
    FedBy (fed ++ [call]) fed.length name ⟨datapoint, .put fed.length⟩ :=
  ⟨rfl, call, List.getElem?_concat_length, hd⟩

theorem Whole.store (h : Whole fed values) (call : FeedCall D) :
    Whole (fed ++ [call]) (call.store fed.length values) := by
  intro name v k hv ho
  cases hd : call.value? name with
  | some datapoint =>
    rw [lookup_store_some hd] at hv
    obtain rfl := Option.some.inj hv
    cases ho
    refine ⟨fedBy_last hd, call, List.getElem?_concat_length, fun name hname => ?_⟩
    obtain ⟨datapoint, hd⟩ := Option.isSome_iff_exists.mp hname
    exact ⟨_, _, lookup_store_some hd, Nat.le_refl _, fedBy_last hd⟩
  | none =>
    rw [lookup_store_none hd] at hv
    obtain ⟨hfed, hcovers⟩ := h name v k hv ho
    have hlt := hcovers.lt
    obtain ⟨batch, hbatch, hnames⟩ := hcovers.snoc call
    refine ⟨hfed.snoc call, batch, hbatch, fun name hname => ?_⟩
    cases hd : call.value? name with
    | some datapoint => exact ⟨_, _, lookup_store_some hd, Nat.le_of_lt hlt, fedBy_last hd⟩
    | none =>
      obtain ⟨v, m, hvalue, hrest⟩ := hnames name hname
      exact ⟨v, m, (lookup_store_none hd).trans hvalue, hrest⟩

-- ---------------------------------------------------------------------------
-- Restoring
-- ---------------------------------------------------------------------------

def Newer (stored values : DatapointValues D) : Prop :=
  ∀ name v, stored.lookup name = some v → ∃ m, v.origin = .put m ∧
    ∀ name v k, values.lookup name = some v → v.origin = .put k → k ≤ m

theorem Newer.store (h : Newer stored values) (hw : Whole fed values) (call : FeedCall D) :
    Newer (call.store fed.length stored) values := by
  intro name v hv
  cases hd : call.value? name with
  | some datapoint =>
    rw [lookup_store_some hd] at hv
    obtain rfl := Option.some.inj hv
    refine ⟨fed.length, rfl, fun name v k hv ho => ?_⟩
    exact Nat.le_of_lt (hw name v k hv ho).2.lt
  | none =>
    rw [lookup_store_none hd] at hv
    exact h name v hv

theorem Whole.restore (hs : Whole fed stored) (hw : Whole fed values) (hn : Newer stored values) :
    Whole fed (restoreValues values stored) := by
  have hlookup : ∀ name, (restoreValues values stored).lookup name =
      (stored.lookup name).or (values.lookup name) := Dict.lookup_union stored values
  have hqueued : ∀ name v, stored.lookup name = some v →
      (restoreValues values stored).lookup name = some v := by
    intro name v hv
    rw [hlookup, hv]
    rfl
  intro name v k hv ho
  rw [hlookup] at hv
  rcases Option.or_eq_some_iff.mp hv with hv | ⟨-, hv⟩
  · obtain ⟨hfed, hcovers⟩ := hs name v k hv ho
    exact ⟨hfed, hcovers.mono hqueued⟩
  · obtain ⟨hfed, call, hcall, hnames⟩ := hw name v k hv ho
    refine ⟨hfed, call, hcall, fun other hother => ?_⟩
    cases hq : stored.lookup other with
    | none =>
      obtain ⟨u, m, hu, hrest⟩ := hnames other hother
      refine ⟨u, m, (hlookup other).trans ?_, hrest⟩
      rw [hq]
      exact hu
    | some q =>
      -- a queued value takes the place of the one in flight
      obtain ⟨m, hm, hle⟩ := hn other q hq
      exact ⟨q, m, hqueued other q hq, hle name v k hv ho, (hs other q m hq hm).1⟩

end

-- ---------------------------------------------------------------------------
-- Requests
-- ---------------------------------------------------------------------------

def AllRegistered (s : State D) : Event D → Prop
  | .run (.updated _) => Registered s
  | _ => True

instance (s : State D) : DecidablePred (AllRegistered s)
  | .run (.updated _) => inferInstanceAs (Decidable (Registered s))
  | .feed _ | .store _ | .shutdown | .stop | .client _ | .run .go | .run (.waitForConnected _)
  | .run (.metadata _) | .run (.registered _) | .run (.wakes _) => inferInstanceAs (Decidable True)

theorem Registered.value? (hr : Registered s) (hv : values.lookup name = some v)
    (hm : FedBy s.fed m name v) :
    Delivery.value? ⟨session, s.idMap, updateRequest s.idMap values, reply⟩ name = some v := by
  obtain ⟨-, call, hcall, hvalue⟩ := hm
  have hname : name ∈ call.names := FeedCall.mem_names (by rw [hvalue]; rfl)
  obtain ⟨id, hid⟩ := Option.isSome_iff_exists.mp (hr.1 call (List.mem_of_getElem? hcall) name hname)
  simp only [Delivery.value?, hid, Option.bind_some]
  exact (lookup_updateRequest values hid fun b hb => hr.distinct hb hid).trans hv

theorem Whole.consistent (hw : Whole s.fed values) (hr : Registered s) :
    Delivery.Consistent s.fed ⟨session, s.idMap, updateRequest s.idMap values, reply⟩ := by
  intro id v k hv ho
  obtain ⟨name, hname⟩ := mem_of_updateRequest hv
  obtain ⟨-, call, hcall, hnames⟩ := hw name v k hname ho
  refine ⟨call, hcall, fun other hother => ?_⟩
  obtain ⟨u, m, hu, hle, hfed⟩ := hnames other hother
  exact ⟨u, m, hr.value? hu hfed, hle, hfed⟩

-- ---------------------------------------------------------------------------
-- Every run
-- ---------------------------------------------------------------------------

structure Batched (s : State D) : Prop where
  stored : Whole s.fed s.storedValues
  flight : ∀ values, s.place.batch? = some values →
    Whole s.fed values ∧ Newer s.storedValues values
  sent : ∀ d ∈ s.sent, d.Consistent s.fed

theorem Batched.passes (h : Batched s) (hp : Passes s s') : Batched s' := by
  refine ⟨?_, fun values hv => ?_, ?_⟩
  · rw [hp.fed, hp.storedValues]
    exact h.stored
  · cases hp.place.batch'.symm.trans hv
  · rw [hp.fed, hp.sent]
    exact h.sent

theorem Batched.delivered (h : Batched s) (hp : s.place = .sending values) (hr : Registered s) :
    Batched (delivered values reply s) := by
  obtain ⟨hstored, hfed, -, hsent, hplace⟩ := delivered_eq values reply s
  have hflight := h.flight values (by rw [hp]; rfl)
  refine ⟨?_, fun values' hv => ?_, fun d hd => ?_⟩
  · rw [hfed, hstored]
    exact h.stored
  · rw [hplace] at hv
    rw [hfed, hstored]
    split at hv
    · cases hv
    · obtain rfl := Option.some.inj hv
      exact hflight
  · rw [hsent] at hd
    rw [hfed]
    rcases List.mem_append.mp hd with hd | hd
    · exact h.sent d hd
    · obtain rfl := List.mem_singleton.mp hd
      exact hflight.1.consistent hr

theorem Batched.runStep (h : Batched s) (hc : AllRegistered s (.run input))
    (hs : runStep dpConfig s input = some s') : Batched s' := by
  rcases runStep_cases hs with hp | ⟨-, rfl⟩ | ⟨init, -, rfl⟩ | ⟨values, reply, hp, rfl, rfl⟩ |
    ⟨values, hp, rfl⟩
  · exact h.passes hp
  · exact ⟨h.stored, nofun, h.sent⟩
  · -- taking
    refine ⟨nofun, fun values hv => ?_, h.sent⟩
    obtain rfl := Option.some.inj hv
    refine ⟨?_, nofun⟩
    cases init with
    | true => exact h.stored.addInitialValues
    | false => exact h.stored
  · exact h.delivered hp hc
  · -- restoring
    obtain ⟨hwhole, hnewer⟩ := h.flight values (by rw [hp]; rfl)
    exact ⟨h.stored.restore hwhole hnewer, nofun, h.sent⟩

theorem Batched.step (h : Batched s) (hc : AllRegistered s e) (hs : step dpConfig s e = some s') :
    Batched s' := by
  cases e with
  | run input => exact h.runStep hc hs
  | store i =>
    obtain ⟨call, -, rfl⟩ := Option.map_eq_some_iff.mp hs
    refine ⟨h.stored.store call, fun values hv => ?_, fun d hd => (h.sent d hd).snoc call⟩
    obtain ⟨hwhole, hnewer⟩ := h.flight values hv
    exact ⟨hwhole.snoc call, hnewer.store hwhole call⟩
  | feed call =>
    obtain rfl := Option.some.inj hs
    split <;> exact ⟨h.stored, h.flight, h.sent⟩
  | shutdown =>
    obtain rfl := Option.some.inj hs
    split <;> exact ⟨h.stored, h.flight, h.sent⟩
  | client connected =>
    obtain rfl := Option.some.inj hs
    exact ⟨h.stored, h.flight, h.sent⟩
  | stop =>
    obtain ⟨-, hs⟩ := Option.ite_none_right_eq_some.mp hs
    obtain rfl := Option.some.inj hs
    exact ⟨nofun, fun values hv => ⟨(h.flight values hv).1, nofun⟩, h.sent⟩

/-- Whatever the broker answers, in every run with all names registered. -/
theorem batches_consistent (dpConfig : DatapointConfiguration D) (events : List (Event D))
    (hc : Along (step dpConfig) AllRegistered .initial events) :
    Throughout (step dpConfig) (fun s => ∀ d ∈ s.sent, d.Consistent s.fed) .initial events := by
  have hstart : Batched (State.initial : State D) := ⟨nofun, nofun, nofun⟩
  have hbatched := hc.throughout (fun _ _ _ h hc hs => Batched.step h hc hs) hstart
  exact hbatched.mono fun _ h => h.sent

/-- A batch of two is in flight while a newer `Position` is stored; the
request fails and what is left is sent after a reconnect. -/
def benchBatch : List (Event (Option Nat)) :=
  List.flatten [
    benchConnect, [.feed (.feedValues (List.toAList [⟨"Position", some 20⟩, ⟨"RowCount", some 3⟩])),
      .store 0, .run .go],
    benchFeed 30, [.run (.updated (.error .unavailable)), .run .go, .run .go, .run .go, .run .go,
      .run .go],
    benchConnect, [.run .go, .run (.updated (.ok []))]]

theorem batches_consistent_bench :
    Along (step benchConfig) AllRegistered .initial benchBatch ∧
      Throughout (step benchConfig) (fun s => ∀ d ∈ s.sent, d.Consistent s.fed) .initial
        benchBatch ∧
      (Atomic.run (step benchConfig) .initial benchBatch).map (fun s =>
        s.sent.map fun d => (d.value? "Position", d.value? "RowCount")) =
          some [(some ⟨some 20, .put 0⟩, some ⟨some 3, .put 0⟩),
            (some ⟨some 30, .put 1⟩, some ⟨some 3, .put 0⟩)] :=
  ⟨by decide, batches_consistent _ _ (by decide), by decide⟩

end KuksaServices.Feeder
