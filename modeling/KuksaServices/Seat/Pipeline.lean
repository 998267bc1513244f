import KuksaServices.Feeder.Provenance
import KuksaServices.Seat.Published

/-!
# The position on its way to the broker

`Run` of `main.cc` puts the adjuster and the feeder together: the callback
hands every change of the position to `FeedValue`, in the CTL thread and
before the frame reaches the context. Once all of it has come through, the
broker shows what `CurrentPosition` replies, unless a reconnect has put the
initial value in its place (`broker_shows_position_iff`).
-/

namespace KuksaServices.Seat

open Atomic (Origin Along Throughout)
open Feeder (Metadata DatapointConfiguration FeedCall Value Genuine Traced Orderly AllRegistered slot latestFed
  accepted brokerValue)

-- ---------------------------------------------------------------------------
-- The start
-- ---------------------------------------------------------------------------

inductive SeatDatapoint where
  | scalar (dp : PositionDatapoint)
  | uint32Array (values : List Nat)
  deriving DecidableEq, Repr

def SeatDatapoint.base? : SeatDatapoint → Option Int
  | .scalar dp => dp.base?
  | .uint32Array _ => none

def seatPosVss3 : String := "Vehicle.Cabin.Seat.Row1.Pos1.Position"
def seatPosVss4 : String := "Vehicle.Cabin.Seat.Row1.DriverSide.Position"

def seatPosName (vss4 : Bool) : String := if vss4 then seatPosVss4 else seatPosVss3

/-- `metadata_4` and `metadata_3` differ in the name of the position. -/
def seatMetadata (vss4 : Bool) : DatapointConfiguration SeatDatapoint :=
  [⟨seatPosName vss4, .uint16, .scalar .notAvailable⟩,
    ⟨"Vehicle.Cabin.SeatRowCount", .uint8, .scalar (.uint32 2)⟩,
    ⟨"Vehicle.Cabin.SeatPosCount", .uint8Array, .uint32Array [2, 3]⟩]

/-- `given` is what the callback has built and `FeedValue` has not looked at
the feeder for yet. -/
structure Pipeline where
  service : SeatService
  feeder : Feeder.State SeatDatapoint
  given : Option PositionDatapoint

def Pipeline.createInstance (getenv : String → Option String) (canIfName : String) (memory : Context)
    (statics : Statics) (calls : OpenCalls) : Pipeline where
  service := .createInstance getenv canIfName memory statics calls
  feeder := .initial
  given := none

def feedCall (vss4 : Bool) (dp : PositionDatapoint) : FeedCall SeatDatapoint :=
  .feedValue (seatPosName vss4) (.scalar dp)

-- ---------------------------------------------------------------------------
-- The steps
-- ---------------------------------------------------------------------------

inductive PipelineEvent where
  | adjuster (happening : Happening)
  | feedValue
  | feeder (e : Feeder.Event SeatDatapoint)

def Pipeline.inCallback (p : Pipeline) : Bool := p.given.isSome || !p.feeder.calls.isEmpty

def Happening.stores : Happening → Bool
  | .store => true
  | _ => false

def pipelineStep (plat : Platform) (vss4 : Bool) (p : Pipeline) : PipelineEvent → Option Pipeline
  | .adjuster happening =>
    if happening.stores && p.inCallback then none
    else (serviceStep plat p.service happening).map fun s => { p with
      service := s, given := (s.fed.drop p.service.fed.length).head?.or p.given }
  | .feedValue => p.given.bind fun dp =>
    (Feeder.step (seatMetadata vss4) p.feeder (.feed (feedCall vss4 dp))).map fun s =>
      { p with feeder := s, given := none }
  | .feeder (.feed _) => none
  | .feeder e => (Feeder.step (seatMetadata vss4) p.feeder e).map fun s => { p with feeder := s }

def RegisteredRequests (p : Pipeline) : PipelineEvent → Prop
  | .feeder e => AllRegistered p.feeder e
  | _ => True

instance (p : Pipeline) : DecidablePred (RegisteredRequests p)
  | .feeder e => inferInstanceAs (Decidable (AllRegistered p.feeder e))
  | .adjuster _ | .feedValue => inferInstanceAs (Decidable True)

/-- Between frames, with the feeder active and no position on its way. -/
structure Pipeline.Still (vss4 : Bool) (p : Pipeline) : Prop where
  settled : p.service.settled
  active : p.feeder.feederActive = true
  queue : p.feeder.storedValues.lookup (seatPosName vss4) = none
  flight : (p.feeder.place.batch?.bind fun values => values.lookup (seatPosName vss4)) = none

/-- The broker's value denotes the base position that `CurrentPosition`
replies. -/
def BrokerShows (vss4 : Bool) (p : Pipeline) : Prop :=
  (brokerValue p.feeder.sent (seatPosName vss4)).bind (·.datapoint.base?) =
    some (currentPosition p.service.world.ctx)

section
variable {plat : Platform} {vss4 : Bool} {p p' : Pipeline} {s s' : SeatService}

-- ---------------------------------------------------------------------------
-- What the parts do
-- ---------------------------------------------------------------------------

theorem eventCb_fed (value : Nat) (s : SeatService) :
    ((seatctrlEventCb value s).fed = s.fed ∨ ∃ dp, (seatctrlEventCb value s).fed = s.fed ++ [dp]) ∧
      (seatctrlEventCb value s).handling = s.handling := by
  unfold seatctrlEventCb
  split
  · exact ⟨.inr ⟨_, rfl⟩, rfl⟩
  · exact ⟨.inl rfl, rfl⟩

theorem announce_fed (stat : Secu1Stat) (s : SeatService) :
    ((announce stat s).fed = s.fed ∨ ∃ dp, (announce stat s).fed = s.fed ++ [dp]) ∧
      (announce stat s).handling = some stat := by
  unfold announce
  dsimp only
  split <;> split
  · exact eventCb_fed _ _
  · exact ⟨.inl rfl, rfl⟩
  · exact eventCb_fed _ _
  · exact ⟨.inl rfl, rfl⟩

/-- The callback is called while a frame is handled, and at most once. -/
theorem serviceStep_fed (hs : serviceStep plat s happening = some s') :
    s'.fed = s.fed ∧ (s'.handling = s.handling ∨ happening.stores = true) ∨
      s.handling = none ∧ s'.handling ≠ none ∧ (s'.fed = s.fed ∨ ∃ dp, s'.fed = s.fed ++ [dp]) := by
  cases happening with
  | start =>
    obtain ⟨-, hs⟩ := Option.ite_none_right_eq_some.mp hs
    obtain rfl := Option.some.inj hs
    exact .inl ⟨rfl, .inl rfl⟩
  | read result =>
    obtain ⟨⟨-, hhandling⟩, hs⟩ := Option.ite_none_right_eq_some.mp hs
    cases hheard : heardStat plat s.world result with
    | some stat =>
      rw [hheard] at hs
      obtain rfl := Option.some.inj hs
      obtain ⟨hfed, hstat⟩ := announce_fed stat s
      exact .inr ⟨hhandling, by simp [hstat], hfed⟩
    | none =>
      rw [hheard] at hs
      obtain rfl := Option.some.inj hs
      exact .inl ⟨rfl, .inl rfl⟩
  | store =>
    obtain ⟨stat, -, rfl⟩ := Option.map_eq_some_iff.mp hs
    exact .inl ⟨rfl, .inr rfl⟩
  | subscribe =>
    obtain rfl := Option.some.inj hs
    exact .inl ⟨rfl, .inl rfl⟩
  | other w =>
    obtain ⟨-, hs⟩ := Option.ite_none_right_eq_some.mp hs
    obtain rfl := Option.some.inj hs
    exact .inl ⟨rfl, .inl rfl⟩

theorem runStep_calls {dpConfig : DatapointConfiguration D} {f f' : Feeder.State D}
    (hs : Feeder.runStep dpConfig f input = some f') :
    f'.fed = f.fed ∧ f'.calls = f.calls ∧ (f'.feederActive = true → f.feederActive = true) := by
  have hafter : ∀ f : Feeder.State D, (Feeder.afterMetadata dpConfig f).fed = f.fed ∧
      (Feeder.afterMetadata dpConfig f).calls = f.calls ∧
      (Feeder.afterMetadata dpConfig f).feederActive = f.feederActive := by
    intro f
    unfold Feeder.afterMetadata
    split <;> exact ⟨rfl, rfl, rfl⟩
  have herror : ∀ code (f : Feeder.State D),
      (Feeder.handleError code f).feederActive = true → f.feederActive = true :=
    fun _ _ h => (Bool.and_eq_true_iff.mp h).1
  cases Feeder.line_of_runStep hs with
  | connectedTest hp =>
    split_ifs
    · obtain ⟨hfed, hcalls, hactive⟩ := hafter f
      exact ⟨hfed, hcalls, fun h => hactive ▸ h⟩
    · exact ⟨rfl, rfl, id⟩
    · exact ⟨rfl, rfl, id⟩
  | metadata reply hp =>
    obtain ⟨hfed, hcalls, hactive⟩ := hafter (Feeder.getMetadata reply f)
    rw [hfed, hcalls, hactive]
    cases reply with
    | ok list => exact ⟨rfl, rfl, id⟩
    | error code => exact ⟨rfl, rfl, herror code f⟩
  | refused code hp => exact ⟨rfl, rfl, herror code f⟩
  | sending values reply hp =>
    cases reply with
    | ok errors => exact ⟨rfl, rfl, id⟩
    | error code => exact ⟨rfl, rfl, herror code _⟩
  | _ => exact ⟨rfl, rfl, id⟩

-- ---------------------------------------------------------------------------
-- The invariant
-- ---------------------------------------------------------------------------

/-- While the feeder is active it has got, or is about to get, every call of
the callback, and in their order. -/
structure Handed (vss4 : Bool) (p : Pipeline) : Prop where
  informed : Informed p.service
  orderly : Orderly p.feeder
  traced : Traced (seatMetadata vss4) p.feeder
  inLine : p.feeder.feederActive = true → ∀ name, (slot p.feeder name).InLine
  handed : p.feeder.feederActive = true → p.service.fed.map (feedCall vss4) =
    p.feeder.fed ++ p.feeder.calls ++ p.given.toList.map (feedCall vss4)
  single : p.feeder.calls.length + p.given.toList.length ≤ 1
  between : p.service.handling = none → p.given = none ∧ p.feeder.calls = []

theorem Handed.adjuster (h : Handed vss4 p) (hin : (happening.stores && p.inCallback) = false)
    (hs : serviceStep plat p.service happening = some s') : Handed vss4 { p with
      service := s', given := (s'.fed.drop p.service.fed.length).head?.or p.given } := by
  have hinformed := h.informed.step hs
  rcases serviceStep_fed hs with ⟨hfed, hhandling⟩ | ⟨hnone, hsome, hfed⟩
  · have hgiven : (s'.fed.drop p.service.fed.length).head?.or p.given = p.given := by
      rw [hfed, List.drop_length]
      rfl
    rw [hgiven]
    refine ⟨hinformed, h.orderly, h.traced, h.inLine, ?_, h.single, fun hidle => ?_⟩
    · intro hactive
      dsimp only
      rw [hfed]
      exact h.handed hactive
    · rcases hhandling with hsame | hstores
      · exact h.between (hsame ▸ hidle)
      · -- the callback has returned
        rw [hstores, Bool.true_and] at hin
        obtain ⟨hgiven, hcalls⟩ := Bool.or_eq_false_iff.mp hin
        exact ⟨by simpa using hgiven, by simpa using hcalls⟩
  · obtain ⟨hgiven, hcalls⟩ := h.between hnone
    rcases hfed with hfed | ⟨dp, hfed⟩
    · have hnew : (s'.fed.drop p.service.fed.length).head?.or p.given = none := by
        rw [hfed, List.drop_length, hgiven]
        rfl
      rw [hnew]
      refine ⟨hinformed, h.orderly, h.traced, h.inLine, fun hactive => ?_, by simp [hcalls], fun hidle => ?_⟩
      · have hhanded := h.handed hactive
        rw [hgiven] at hhanded
        dsimp only
        rw [hfed]
        exact hhanded
      · exact absurd hidle hsome
    · have hnew : (s'.fed.drop p.service.fed.length).head?.or p.given = some dp := by
        rw [hfed, List.drop_left]
        rfl
      rw [hnew]
      refine ⟨hinformed, h.orderly, h.traced, h.inLine, fun hactive => ?_, by simp [hcalls], fun hidle => ?_⟩
      · have hhanded := h.handed hactive
        rw [hgiven] at hhanded
        dsimp only
        rw [hfed, List.map_append, hhanded]
        simp
      · exact absurd hidle hsome

theorem Handed.feedValue (h : Handed vss4 p) (hgiven : p.given = some dp)
    (hs : Feeder.step (seatMetadata vss4) p.feeder (.feed (feedCall vss4 dp)) = some f) :
    Handed vss4 { p with feeder := f, given := none } := by
  have hcalls : p.feeder.calls = [] := by
    have hsingle := h.single
    rw [hgiven] at hsingle
    exact List.eq_nil_of_length_eq_zero (by simpa using hsingle)
  have hall : AllRegistered p.feeder (.feed (feedCall vss4 dp)) := trivial
  have horderly := h.orderly.step hs
  have htraced := h.traced.step hall hs
  obtain rfl := Option.some.inj hs
  cases hup : p.feeder.feederActive with
  | false =>
    simp only [hup, Bool.false_eq_true, if_false] at horderly htraced ⊢
    refine ⟨h.informed, horderly, htraced, fun hactive => ?_, fun hactive => ?_, by simp [hcalls], fun _ => ⟨rfl, hcalls⟩⟩
    · exact absurd hactive (by simp [hup])
    · exact absurd hactive (by simp [hup])
  | true =>
    simp only [hup, if_true] at horderly htraced ⊢
    refine ⟨h.informed, horderly, htraced, fun _ => h.inLine hup, fun _ => ?_, by simp [hcalls], fun hidle => ?_⟩
    · have hhanded := h.handed hup
      rw [hgiven] at hhanded
      simpa using hhanded
    · exact absurd (h.between hidle).1 (by simp [hgiven])

theorem Handed.feeder (h : Handed vss4 p) (hc : AllRegistered p.feeder e) (he : ∀ call, e ≠ .feed call)
    (hs : Feeder.step (seatMetadata vss4) p.feeder e = some f) : Handed vss4 { p with feeder := f } := by
  have horderly := h.orderly.step hs
  have htraced := h.traced.step hc hs
  cases e with
  | feed call => exact absurd rfl (he call)
  | store i =>
    have hline := fun hactive name => (h.inLine hactive name).step (h.orderly.filled name)
      (Feeder.step_slot h.orderly.sessions hs fun _ => ⟨trivial, h.inLine hactive name⟩)
    obtain ⟨call, hcall, rfl⟩ := Option.map_eq_some_iff.mp hs
    have hsingle := h.single
    obtain ⟨hlt, hget⟩ := List.getElem?_eq_some_iff.mp hcall
    obtain ⟨only, honly⟩ := List.length_eq_one_iff.mp (by omega : p.feeder.calls.length = 1)
    have hgiven : p.given = none := by
      rw [honly] at hsingle
      cases hg : p.given with
      | none => rfl
      | some dp => simp [hg] at hsingle
    obtain rfl : i = 0 := by simpa [honly] using hlt
    obtain rfl : only = call := by simpa [honly] using hcall
    refine ⟨h.informed, horderly, htraced, hline, fun hactive => ?_, by simp [honly, hgiven], fun hidle => ?_⟩
    · have hhanded := h.handed hactive
      rw [hgiven, honly] at hhanded
      simpa [honly, hgiven] using hhanded
    · exact absurd (h.between hidle).2 (by simp [honly])
  | shutdown =>
    have hs : f = p.feeder ∨ f = { p.feeder with shutdowns := p.feeder.shutdowns + 1 } := by
      obtain rfl := Option.some.inj hs
      split
      · exact .inr rfl
      · exact .inl rfl
    rcases hs with rfl | rfl
    · exact h
    · exact ⟨h.informed, horderly, htraced, h.inLine, h.handed, h.single, h.between⟩
  | stop =>
    obtain ⟨-, hs⟩ := Option.ite_none_right_eq_some.mp hs
    obtain rfl := Option.some.inj hs
    exact ⟨h.informed, horderly, htraced, nofun, nofun, h.single, h.between⟩
  | client connected =>
    obtain rfl := Option.some.inj hs
    exact ⟨h.informed, horderly, htraced, h.inLine, h.handed, h.single, h.between⟩
  | run input =>
    obtain ⟨hfed, hcalls, hactive⟩ := runStep_calls hs
    refine ⟨h.informed, horderly, htraced, fun hup name => ?_, fun hup => ?_, ?_, fun hidle => ?_⟩
    · have hline := h.inLine (hactive hup) name
      refine hline.step (h.orderly.filled name) (Feeder.step_slot h.orderly.sessions hs fun _ => ⟨?_, hline⟩)
      cases input <;> exact hc
    · dsimp only
      rw [hfed, hcalls]
      exact h.handed (hactive hup)
    · dsimp only
      rw [hcalls]
      exact h.single
    · dsimp only
      rw [hcalls]
      exact h.between hidle

theorem Handed.step (h : Handed vss4 p) (hc : RegisteredRequests p e)
    (hs : pipelineStep plat vss4 p e = some p') : Handed vss4 p' := by
  cases e with
  | adjuster happening =>
    obtain ⟨hin, hs⟩ := Option.ite_none_left_eq_some.mp hs
    obtain ⟨s', hstep, rfl⟩ := Option.map_eq_some_iff.mp hs
    exact h.adjuster (Bool.eq_false_iff.mpr hin) hstep
  | feedValue =>
    obtain ⟨dp, hgiven, hs⟩ := Option.bind_eq_some_iff.mp hs
    obtain ⟨f, hstep, rfl⟩ := Option.map_eq_some_iff.mp hs
    exact h.feedValue hgiven hstep
  | feeder e =>
    have hfeed : ∀ call, e ≠ .feed call := by
      rintro call rfl
      cases hs
    have hs : (Feeder.step (seatMetadata vss4) p.feeder e).map (fun s => { p with feeder := s }) = some p' := by
      cases e <;> first | exact hs | exact absurd rfl (hfeed _)
    obtain ⟨f, hstep, rfl⟩ := Option.map_eq_some_iff.mp hs
    exact h.feeder hc hfeed hstep

theorem Handed.created (getenv : String → Option String) (canIfName : String) (memory : Context)
    (statics : Statics) (calls : OpenCalls) :
    Handed vss4 (.createInstance getenv canIfName memory statics calls) :=
  ⟨.created getenv canIfName memory statics calls, Feeder.orderly_initial, Feeder.traced_initial,
    fun _ _ => ⟨List.Pairwise.nil, nofun, rfl⟩, fun _ => rfl, Nat.zero_le 1, fun _ => ⟨rfl, rfl⟩⟩

-- ---------------------------------------------------------------------------
-- What the broker shows
-- ---------------------------------------------------------------------------

theorem Handed.fed_eq (h : Handed vss4 p) (hstill : p.Still vss4) :
    p.feeder.fed = p.service.fed.map (feedCall vss4) := by
  obtain ⟨hgiven, hcalls⟩ := h.between hstill.settled.2.1
  have hhanded := h.handed hstill.active
  rw [hgiven, hcalls] at hhanded
  simpa using hhanded.symm

theorem value?_feedCall (vss4 : Bool) (dp : PositionDatapoint) :
    (feedCall vss4 dp).value? (seatPosName vss4) = some (.scalar dp) := if_pos rfl

theorem Handed.shows_fed (h : Handed vss4 p) (hstill : p.Still vss4)
    (hv : brokerValue p.feeder.sent (seatPosName vss4) = some v) (ho : v.origin = .put m) :
    p.service.fed ≠ [] ∧ v.datapoint = .scalar p.service.lastFed := by
  have hgenuine := h.traced.of_accepted (List.mem_of_getLast? hv)
  unfold Genuine at hgenuine
  rw [ho] at hgenuine
  obtain ⟨-, call, hcall, hvalue⟩ := hgenuine
  have hfed := h.fed_eq hstill
  rcases List.eq_nil_or_concat p.service.fed with hnil | ⟨earlier, dp, hsnoc⟩
  · rw [hfed, hnil] at hcall
    cases hcall
  rw [List.concat_eq_append] at hsnoc
  rw [hsnoc, List.map_append] at hfed
  have hlatest : latestFed p.feeder.fed (seatPosName vss4) = some earlier.length := by
    rw [hfed, List.map_singleton, Feeder.latestFed_snoc, value?_feedCall, List.length_map]
    rfl
  have hm : m = earlier.length := by
    have hlast := Feeder.acceptedPuts_getLast? hv ho
    rcases (h.inLine hstill.active (seatPosName vss4)).latest_cases hlatest with hqueue | hflight | haccepted
    · simp [slot, hstill.queue] at hqueue
    · simp [slot, hstill.flight] at hflight
    · exact Option.some.inj (hlast.symm.trans haccepted)
  rw [hfed, hm, ← List.length_map (f := feedCall vss4), List.map_singleton, List.getElem?_concat_length] at hcall
  obtain rfl := Option.some.inj hcall
  rw [value?_feedCall] at hvalue
  refine ⟨by simp [hsnoc], ?_⟩
  rw [← Option.some.inj hvalue]
  simp [SeatService.lastFed, hsnoc]

theorem Handed.shows_initial (h : Handed vss4 p)
    (hv : brokerValue p.feeder.sent (seatPosName vss4) = some v) (ho : v.origin = .filler) :
    v.datapoint = .scalar .notAvailable := by
  have hgenuine := h.traced.of_accepted (List.mem_of_getLast? hv)
  unfold Genuine at hgenuine
  rw [ho] at hgenuine
  simp only [Feeder.initialValue?, seatMetadata, List.find?_cons_of_pos, beq_self_eq_true, Option.map_some,
    Option.some.injEq] at hgenuine
  rw [← hgenuine]

theorem Handed.shows_iff (h : Handed vss4 p) (hstill : p.Still vss4)
    (hv : brokerValue p.feeder.sent (seatPosName vss4) = some v) :
    BrokerShows vss4 p ↔ v.origin ≠ .filler ∨ currentPosition p.service.world.ctx = -1 := by
  unfold BrokerShows
  rw [hv, Option.bind_some]
  cases ho : v.origin with
  | filler =>
    rw [h.shows_initial hv ho]
    simp [SeatDatapoint.base?, PositionDatapoint.base?, eq_comm]
  | put m =>
    obtain ⟨hfed, hdatapoint⟩ := h.shows_fed hstill hv ho
    obtain ⟨-, hcaught⟩ := h.informed.told hfed
    have hviews : ViewsAgree p.service := (h.informed.views hstill.settled).mpr (.inr hcaught)
    rw [hdatapoint]
    exact iff_of_true hviews (.inl (by simp))

/-- In every run, whatever becomes of the broker, the connection and the
feeder, and whenever the frames come. -/
theorem broker_shows_position_iff (plat : Platform) (vss4 : Bool) (getenv : String → Option String)
    (canIfName : String) (memory : Context) (statics : Statics) (calls : OpenCalls) (events : List PipelineEvent)
    (hc : Along (pipelineStep plat vss4) RegisteredRequests
      (.createInstance getenv canIfName memory statics calls) events) :
    Throughout (pipelineStep plat vss4) (fun p => p.Still vss4 →
        ∀ v, brokerValue p.feeder.sent (seatPosName vss4) = some v →
          (BrokerShows vss4 p ↔ v.origin ≠ .filler ∨ currentPosition p.service.world.ctx = -1))
      (.createInstance getenv canIfName memory statics calls) events := by
  have hhanded := hc.throughout (fun _ _ _ h hc hs => Handed.step h hc hs)
    (.created getenv canIfName memory statics calls)
  exact hhanded.mono fun _ h hstill _ hv => h.shows_iff hstill hv

end

def benchSends : List PipelineEvent :=
  [.feeder (.run .go), .feeder (.run (.waitForConnected true)), .feeder (.run .go),
    .feeder (.run (.metadata (.ok [⟨1, seatPosVss4, .uint16⟩, ⟨2, "Vehicle.Cabin.SeatRowCount", .uint8⟩,
      ⟨3, "Vehicle.Cabin.SeatPosCount", .uint8Array⟩]))),
    .feeder (.run .go), .feeder (.run .go), .feeder (.run .go), .feeder (.run (.updated (.ok [])))]

def benchShown : List PipelineEvent :=
  [.adjuster .subscribe, .adjuster .start, .adjuster (.read (statFrame 50 .off)), .feedValue,
    .feeder (.store 0), .adjuster .store] ++ benchSends

def benchShownAgain : List PipelineEvent :=
  benchShown ++ [.feeder (.client false), .feeder (.run .go), .feeder (.run .go), .feeder (.run .go),
    .feeder (.run .go)] ++ benchSends

def Pipeline.bench : Pipeline :=
  .createInstance (fun _ => none) "can0" Session.bench.memory .initial Session.bench.calls

/-- The broker shows 500 first, and after the reconnect that the position is
not available. -/
theorem broker_shows_position_bench :
    (∃ p, Atomic.run (pipelineStep (.ticking 100 fun _ => none) true) .bench benchShown = some p ∧
      currentPosition p.service.world.ctx = 500 ∧ BrokerShows true p) ∧
    ∃ p, Atomic.run (pipelineStep (.ticking 100 fun _ => none) true) .bench benchShownAgain = some p ∧
      currentPosition p.service.world.ctx = 500 ∧ ¬BrokerShows true p := by
  have hshows := fun events hc => broker_shows_position_iff (.ticking 100 fun _ => none) true (fun _ => none)
    "can0" Session.bench.memory .initial Session.bench.calls events hc
  constructor
  · refine ⟨_, rfl, rfl, ?_⟩
    have hiff := (hshows benchShown (by decide)).last rfl ⟨⟨rfl, rfl, rfl⟩, rfl, rfl, rfl⟩ _ rfl
    exact hiff.mpr (.inl nofun)
  · refine ⟨_, rfl, rfl, fun h => ?_⟩
    have hiff := (hshows benchShownAgain (by decide)).last rfl ⟨⟨rfl, rfl, rfl⟩, rfl, rfl, rfl⟩ _ rfl
    rcases hiff.mp h with ho | hunknown
    · exact ho rfl
    · cases hunknown

end KuksaServices.Seat
