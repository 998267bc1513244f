import KuksaServices.Mock.Contracts

/-!
# The shipped mock

`mock/mock.py` as calls of the DSL. Every execution of the file makes new
objects: those of the `n`-th one have the references from `9 * n` on, and its
lists those from `6 * n` on. As long as mocks are only deleted from it, what
the service writes for the speed and for the wiper stays within bounds
(`shipped_in_range`).
-/

namespace KuksaServices.Mock

open Atomic (Raise Along Throughout)

def vehicleSpeed : Path := "Vehicle.Speed"
def wiperMode : Path := "Vehicle.Body.Windshield.Front.Wiping.System.Mode"
def wiperTarget : Path := "Vehicle.Body.Windshield.Front.Wiping.System.TargetPosition"
def wiperActual : Path := "Vehicle.Body.Windshield.Front.Wiping.System.ActualPosition"
def frontDefroster : Path := "Vehicle.Cabin.HVAC.IsFrontDefrosterActive"
def brakeLight : Path := "Vehicle.Body.Lights.Brake.IsActive"
def brakeDefect : Path := "Vehicle.Body.Lights.Brake.IsDefect"

-- ---------------------------------------------------------------------------
-- The file
-- ---------------------------------------------------------------------------

/-- The triggers of the nine behaviors, in the order of the file. -/
def mockPyTrigger : Nat → Trigger
  | 0 => .clock (.new 0 false)
  | 7 => .event ⟨.value, some brakeDefect⟩
  | 8 => .event ⟨.actuatorTarget, some brakeLight⟩
  | _ => .event ⟨.actuatorTarget, none⟩

def mockPyMove : Action :=
  .animation ⟨10, .once, [.text "$self",
    .text "$Vehicle.Body.Windshield.Front.Wiping.System.TargetPosition"], true, none⟩

def mockPyAction : Nat → Action
  | 0 => .animation ⟨10, .repeats, [0, 30, 50, 70, 100, 70, 50, 30, 0].map .number, true, none⟩
  | 3 => .set ⟨.number 0, true⟩
  | 4 | 5 => mockPyMove
  | 7 => .set ⟨.text "INACTIVE", true⟩
  | _ => .set ⟨.text "$event.value", true⟩

/-- Only the behaviors of the actual position have a condition of their own;
the default one is the object 0. -/
def mockPyBehavior (n i : Nat) : Behavior :=
  ⟨9 * n + i, if 3 ≤ i ∧ i ≤ 5 then 3 * n + (i - 2) else 0, 9 * n + i⟩

def mockPyCondition (r : Ref) (ctx : ExecutionContext) : Bool × List Path :=
  if r = 0 then (true, [])
  else
    let mode : Value := .text (match (r - 1) % 3 with
      | 0 => "EMERGENCY_STOP"
      | 1 => "STOP_HOLD"
      | _ => "WIPE")
    ((ctx.client wiperMode).getD (.number 0) == mode, [wiperMode])

def mockPyList (r : Ref) : List Behavior :=
  (match r % 6 with
    | 0 => [0]
    | 1 => [1]
    | 2 => [2]
    | 3 => [3, 4, 5]
    | 4 => [6]
    | _ => [7, 8]).map (mockPyBehavior (r / 6))

/-- `False` is the number 0. -/
def mockPyEdits (n : Nat) : List Edit :=
  [.mockDatapoint vehicleSpeed (.number 0) (6 * n),
    .createEventTrigger none, .mockDatapoint wiperMode (.text "STOP_HOLD") (6 * n + 1),
    .createEventTrigger none, .mockDatapoint wiperTarget (.number 0) (6 * n + 2),
    .createEventTrigger none, .createEventTrigger none, .createEventTrigger none,
    .mockDatapoint wiperActual (.number 0) (6 * n + 3),
    .createEventTrigger none, .mockDatapoint frontDefroster (.number 0) (6 * n + 4),
    .createEventTrigger (some brakeDefect), .createEventTrigger (some brakeLight),
    .mockDatapoint brakeLight (.text "INACTIVE") (6 * n + 5)]

def Script.shipped (interp1d : Interp1d) (dataType : Path → Option DataType) : Script :=
  ⟨mockPyCondition, interp1d, dataType, mockPyEdits⟩

def Service.shipped (broker : Path → Option Value) : Service where
  heap := ⟨fun r => mockPyTrigger (r % 9), fun r => mockPyAction (r % 9)⟩
  datapoints _ := ⟨"", none, .none, false⟩
  fresh := 0
  registry := ⟨[], mockPyList, []⟩
  mocked := []
  pending := []
  registered := false
  loads := 0
  subscriptions := []
  broker := broker
  log := []

-- ---------------------------------------------------------------------------
-- What it writes
-- ---------------------------------------------------------------------------

def Value.Within (lo hi : ℚ) (v : Value) : Prop := ∃ q, v = .number q ∧ lo ≤ q ∧ q ≤ hi

def ofWiper (p : Path) : Prop := p = wiperTarget ∨ p = wiperActual

instance ofWiper.decidable (p : Path) : Decidable (ofWiper p) := inferInstanceAs (Decidable (_ ∨ _))

/-- `lo` and `hi` bound the positions of the wiper, the targets that are
requested for it and what others set. -/
def Contract.shipped (lo hi : ℚ) : Contract where
  writes p v := (p = vehicleSpeed → v.Within 0 100) ∧ (ofWiper p → v.Within lo hi)
  holds p v := ofWiper p → v.Within lo hi
  events name p v := name = .actuatorTarget → p = wiperTarget → v.Within lo hi
  carries x v := x % 9 = 2 → v.Within lo hi
  writes_holds _ _ h := h.2

variable {lo hi : ℚ} {h : Heap} {s t : Service} {p : Path} {b : Behavior} {r : Registry}

/-- The objects are those of the file, but for the animators and for the paths
that triggers were bound to. -/
structure Stocked (h : Heap) : Prop where
  blank : ∀ r, (h.actions r).blank = (mockPyAction (r % 9)).blank
  target : ∀ r, r % 9 = 2 → ∃ path, h.triggers r = .event ⟨.actuatorTarget, path⟩ ∧
    (path = none ∨ path = some wiperTarget)

theorem stocked_shipped (broker : Path → Option Value) : Stocked (Service.shipped broker).heap := by
  refine ⟨fun r => rfl, fun r hr => ⟨none, ?_, .inl rfl⟩⟩
  simp [Service.shipped, hr, mockPyTrigger]

theorem Stocked.set {a a' : SetAction} (hs : Stocked h) (hx : x % 9 = i) (ha : mockPyAction i = .set a)
    (ha' : h.actions x = .set a') : a' = a := by
  have hblank := hs.blank x
  rw [hx, ha, ha'] at hblank
  exact Action.set.inj hblank

theorem Stocked.animation {a a' : AnimationAction} (hs : Stocked h) (hx : x % 9 = i)
    (ha : mockPyAction i = .animation a) (ha' : h.actions x = .animation a') :
    a'.values = a.values ∧ a'.dynamic = a.dynamic := by
  have hblank := hs.blank x
  rw [hx, ha, ha'] at hblank
  have hsame := AnimationAction.mk.inj (Action.animation.inj hblank)
  exact ⟨hsame.2.2.1, hsame.2.2.2.1⟩

/-- Only the trigger of the target position brings what is bounded. -/
theorem Stocked.carries (hs : Stocked h) (hp : b.trigger % 9 = 2 → p = wiperTarget) (t : EventTrigger)
    (ht : h.triggers b.trigger = .event t) (v : Value)
    (hv : (Contract.shipped lo hi).events t.eventType (t.bound p) v) :
    (Contract.shipped lo hi).carries b.trigger v := by
  intro htwo
  obtain ⟨path, hpath, hnone | hsome⟩ := hs.target b.trigger htwo
  · obtain rfl := Trigger.event.inj (ht.symm.trans hpath)
    exact hv rfl (by rw [hnone]; exact hp htwo)
  · obtain rfl := Trigger.event.inj (ht.symm.trans hpath)
    exact hv rfl (by rw [hsome]; rfl)

theorem Stocked.types_set (hs : Stocked h) (hp : b.trigger % 9 = 2 → p = wiperTarget)
    (hx : b.action % 9 = i) {a : SetAction} (ha : mockPyAction i = .set a)
    (hy : (Contract.shipped lo hi).Yields p b.trigger a.dynamic ((Contract.shipped lo hi).Sets p) a.value) :
    (Contract.shipped lo hi).Types h p b := by
  refine ⟨hs.carries hp, fun a' ha' => ?_, fun a' ha' => ?_⟩
  · obtain rfl := hs.set hx ha ha'
    exact hy
  · have hblank := hs.blank b.action
    rw [hx, ha, ha'] at hblank
    cases hblank

theorem Stocked.types_animation (hs : Stocked h) (hp : b.trigger % 9 = 2 → p = wiperTarget)
    (hx : b.action % 9 = i) {a : AnimationAction} (ha : mockPyAction i = .animation a)
    (hinterval : (Contract.shipped lo hi).Interval p)
    (hy : ∀ v ∈ a.values, (Contract.shipped lo hi).Yields p b.trigger a.dynamic
      ((Contract.shipped lo hi).writes p) v) : (Contract.shipped lo hi).Types h p b := by
  refine ⟨hs.carries hp, fun a' ha' => ?_, fun a' ha' => ⟨hinterval, ?_⟩⟩
  · have hblank := hs.blank b.action
    rw [hx, ha, ha'] at hblank
    cases hblank
  · obtain ⟨hvalues, hdynamic⟩ := hs.animation hx ha ha'
    rw [hvalues, hdynamic]
    exact hy

theorem within_interval (hw : ∀ v, (Contract.shipped lo hi).writes p v ↔ v.Within a c) :
    (Contract.shipped lo hi).Interval p := by
  refine ⟨fun v hv => ?_, fun low q high hlow hhigh hle hle' => ?_⟩
  · obtain ⟨q, rfl, -⟩ := (hw v).mp hv
    exact ⟨q, rfl⟩
  · obtain ⟨_, ⟨⟩, hlow, -⟩ := (hw _).mp hlow
    obtain ⟨_, ⟨⟩, -, hhigh⟩ := (hw _).mp hhigh
    exact (hw _).mpr ⟨q, rfl, hlow.trans hle, hle'.trans hhigh⟩

theorem writes_speed (v : Value) : (Contract.shipped lo hi).writes vehicleSpeed v ↔ v.Within 0 100 := by
  have hne : ¬ ofWiper vehicleSpeed := by
    simp [ofWiper, vehicleSpeed, wiperTarget, wiperActual]
  simp [Contract.shipped, hne]

theorem writes_wiper (hp : ofWiper p) (v : Value) :
    (Contract.shipped lo hi).writes p v ↔ v.Within lo hi := by
  have hne : p ≠ vehicleSpeed := by
    rintro rfl
    simp [ofWiper, vehicleSpeed, wiperTarget, wiperActual] at hp
  simp [Contract.shipped, hne, hp]

def mockPyPath (r : Ref) : Path :=
  match r % 6 with
  | 0 => vehicleSpeed
  | 1 => wiperMode
  | 2 => wiperTarget
  | 3 => wiperActual
  | 4 => frontDefroster
  | _ => brakeLight

theorem mockPyBehavior_mod (n : Nat) (hx : i < 9) :
    (mockPyBehavior n i).trigger % 9 = i ∧ (mockPyBehavior n i).action % 9 = i := by
  have hmod : (9 * n + i) % 9 = i := by omega
  exact ⟨hmod, hmod⟩

/-- Whatever an event brings may be set, but for the speed and the wiper. -/
theorem Stocked.types_event (hs : Stocked h) (n : Nat) (hx : i < 9)
    (ha : mockPyAction i = .set ⟨.text "$event.value", true⟩) (hspeed : p ≠ vehicleSpeed)
    (hwiper : ofWiper p → i = 2) (htarget : i = 2 → p = wiperTarget) :
    (Contract.shipped lo hi).Types h p (mockPyBehavior n i) := by
  obtain ⟨htrigger, haction⟩ := mockPyBehavior_mod n hx
  rw [← htrigger] at hwiper htarget
  refine hs.types_set htarget haction ha (.event rfl fun v hv _ => ⟨fun hp => (hspeed hp).elim, fun hp => ?_⟩)
  exact hv (hwiper hp)

section
variable (hlo : lo ≤ 0) (hhi : 0 ≤ hi)
include hlo hhi

theorem within_zero : (Value.number 0).Within lo hi := ⟨0, rfl, hlo, hhi⟩

theorem yields_move (x : Ref) (v : Value) (hv : v ∈ [.text "$self",
    .text "$Vehicle.Body.Windshield.Front.Wiping.System.TargetPosition"]) :
    (Contract.shipped lo hi).Yields wiperActual x true ((Contract.shipped lo hi).writes wiperActual) v := by
  have hwrites : ∀ v, (Contract.shipped lo hi).writes wiperActual v ↔ v.Within lo hi :=
    writes_wiper (.inr rfl)
  have hzero := (hwrites (.number 0)).mpr (within_zero hlo hhi)
  simp only [List.mem_cons, List.not_mem_nil, or_false] at hv
  rcases hv with rfl | rfl
  · exact .reads (q := wiperActual) rfl (fun v hv => (hwrites v).mpr (hv (.inr rfl))) hzero
  · exact .reads (q := wiperTarget) rfl (fun v hv => (hwrites v).mpr (hv (.inl rfl))) hzero

/-- Every behavior of the file keeps to the contract. -/
theorem Stocked.types (hs : Stocked h) (hb : b ∈ mockPyList x) :
    (Contract.shipped lo hi).Types h (mockPyPath x) b := by
  unfold mockPyList at hb
  unfold mockPyPath
  generalize x % 6 = j at hb ⊢
  generalize x / 6 = n at hb
  rcases j with _ | _ | _ | _ | _ | j
  · obtain rfl := List.mem_singleton.mp hb
    obtain ⟨htrigger, haction⟩ := mockPyBehavior_mod n (i := 0) (by decide)
    refine hs.types_animation (by simp [htrigger]) haction rfl (within_interval writes_speed) fun v hv => ?_
    obtain ⟨q, hq, rfl⟩ := List.mem_map.mp hv
    refine .literal rfl (by simp) ((writes_speed _).mpr ⟨q, rfl, ?_⟩)
    simp only [List.mem_cons, List.not_mem_nil, or_false] at hq
    rcases hq with rfl | rfl | rfl | rfl | rfl | rfl | rfl | rfl | rfl <;> norm_num
  · obtain rfl := List.mem_singleton.mp hb
    exact hs.types_event n (by decide) rfl (by decide) (by decide) (by decide)
  · obtain rfl := List.mem_singleton.mp hb
    exact hs.types_event n (by decide) rfl (by decide) (by decide) (by decide)
  · simp only [List.map_cons, List.map_nil, List.mem_cons, List.not_mem_nil, or_false] at hb
    have hwrites : ∀ v, (Contract.shipped lo hi).writes wiperActual v ↔ v.Within lo hi :=
      writes_wiper (.inr rfl)
    rcases hb with rfl | rfl | rfl
    · obtain ⟨htrigger, haction⟩ := mockPyBehavior_mod n (i := 3) (by decide)
      refine hs.types_set (by simp [htrigger]) haction rfl (.literal rfl (by simp) fun _ => ?_)
      exact (hwrites _).mpr (within_zero hlo hhi)
    · obtain ⟨htrigger, haction⟩ := mockPyBehavior_mod n (i := 4) (by decide)
      exact hs.types_animation (by simp [htrigger]) haction rfl (within_interval hwrites)
        (yields_move hlo hhi _)
    · obtain ⟨htrigger, haction⟩ := mockPyBehavior_mod n (i := 5) (by decide)
      exact hs.types_animation (by simp [htrigger]) haction rfl (within_interval hwrites)
        (yields_move hlo hhi _)
  · obtain rfl := List.mem_singleton.mp hb
    exact hs.types_event n (by decide) rfl (by decide) (by decide) (by decide)
  · change (Contract.shipped lo hi).Types h brakeLight b
    simp only [List.map_cons, List.map_nil, List.mem_cons, List.not_mem_nil, or_false] at hb
    rcases hb with rfl | rfl
    · obtain ⟨htrigger, haction⟩ := mockPyBehavior_mod n (i := 7) (by decide)
      refine hs.types_set (by simp [htrigger]) haction rfl (.literal rfl (by simp) fun _ => ⟨?_, ?_⟩)
      · exact fun hp => absurd hp (by decide)
      · exact fun hp => absurd hp (by decide)
    · exact hs.types_event n (by decide) rfl (by decide) (by decide) (by decide)

def Supplies (lo hi : ℚ) : Edit → Prop
  | .mockDatapoint p v x => (Contract.shipped lo hi).writes p v ∧ p = mockPyPath x
  | .createEventTrigger _ => True
  | _ => False

theorem supplies_mockPy (n : Nat) : ∀ e ∈ mockPyEdits n, Supplies lo hi e := by
  have hmod : ∀ k < 6, mockPyPath (6 * n + k) = mockPyPath k := by
    intro k hk
    have heq : (6 * n + k) % 6 = k % 6 := by omega
    rw [mockPyPath, mockPyPath, heq]
  have hzero := within_zero hlo hhi
  have hspeed : (Contract.shipped lo hi).writes vehicleSpeed (.number 0) :=
    (writes_speed _).mpr ⟨0, rfl, by norm_num, by norm_num⟩
  have hopen : ∀ p v, ¬ p = vehicleSpeed → ¬ ofWiper p → (Contract.shipped lo hi).writes p v :=
    fun p v hspeed hwiper => ⟨fun h => (hspeed h).elim, fun h => (hwiper h).elim⟩
  unfold mockPyEdits
  simp only [List.forall_mem_cons, Supplies, true_and]
  refine ⟨⟨hspeed, (hmod 0 (by decide)).symm⟩, ⟨hopen _ _ (by decide) (by decide), (hmod 1 (by decide)).symm⟩,
    ⟨(writes_wiper (.inl rfl) _).mpr hzero, (hmod 2 (by decide)).symm⟩,
    ⟨(writes_wiper (.inr rfl) _).mpr hzero, (hmod 3 (by decide)).symm⟩,
    ⟨hopen _ _ (by decide) (by decide), (hmod 4 (by decide)).symm⟩,
    ⟨hopen _ _ (by decide) (by decide), (hmod 5 (by decide)).symm⟩, fun e he => by cases he⟩

def InStock (r : Registry) : Prop := ∀ x, ∀ b ∈ r.lists x, b ∈ mockPyList x

theorem Stocked.typesEdits (hs : Stocked h) (hr : InStock r) (es : List Edit)
    (hes : ∀ e ∈ es, Supplies lo hi e) : (Contract.shipped lo hi).TypesEdits h r es := by
  induction es generalizing r with
  | nil => trivial
  | cons e es ih =>
    have he := hes e List.mem_cons_self
    have hrest : ∀ e' ∈ es, Supplies lo hi e' := fun e' he' => hes e' (List.mem_cons_of_mem _ he')
    cases e with
    | mockDatapoint path v x =>
      obtain ⟨hv, rfl⟩ := he
      refine ⟨⟨hv, fun b hb => hs.types hlo hhi (hr x b hb)⟩, ih ?_ hrest⟩
      simp only [Edit.apply, Registry.mockDatapoint]
      split <;> exact hr
    | createEventTrigger path =>
      refine ⟨trivial, ih ?_ hrest⟩
      cases path with
      | none => exact hr
      | some path =>
        simp only [Edit.apply, Registry.createEventTrigger, Option.elim_some, InStock, (reads_require r path).lists]
        exact hr
    | _ => exact he.elim

end

-- ---------------------------------------------------------------------------
-- Runs
-- ---------------------------------------------------------------------------

def Edit.deletes : Edit → Bool
  | .mockDatapoint .. | .addBehavior .. => false
  | _ => true

/-- The targets requested for the wiper are within the bounds, and so is what
others set its positions to. -/
def Conforms (lo hi : ℚ) : SessionInput → Prop
  | .turn (.edit e) => e.deletes = true
  | .turn (.receive name path value) =>
    value ≠ .none → name = .actuatorTarget → path = wiperTarget → value.Within lo hi
  | .turn (.setExternally path value) => ofWiper path → value.Within lo hi
  | _ => True

theorem InStock.edit {e : Edit} (hr : InStock r) (he : ∀ b path, e ≠ .addBehavior b path) :
    InStock (e.apply h r) := by
  cases e with
  | mockDatapoint path v x =>
    simp only [Edit.apply, Registry.mockDatapoint]
    split <;> exact hr
  | addBehavior b path => exact absurd rfl (he b path)
  | deleteBehaviorOfMockedDatapoint b path =>
    exact fun x c hc => hr x c ((deleteBehavior_subset h r b path).2 x c hc)
  | deleteMockedDatapoint path => exact hr
  | deleteAllMockedDatapoints => exact hr
  | createEventTrigger path =>
    cases path with
    | none => exact hr
    | some path =>
      simp only [Edit.apply, Registry.createEventTrigger, Option.elim_some, InStock, (reads_require r path).lists]
      exact hr

theorem InStock.edits (hr : InStock r) (es : List Edit) (hes : ∀ e ∈ es, ∀ b path, e ≠ .addBehavior b path) :
    InStock (es.foldl (Edit.apply h) r) := by
  induction es generalizing r with
  | nil => exact hr
  | cons e es ih =>
    exact ih (hr.edit (hes e List.mem_cons_self)) fun e' he' => hes e' (List.mem_cons_of_mem _ he')

theorem InStock.reads {r' : Registry} (hr : InStock r) (h : r.Reads r') : InStock r' := by
  unfold InStock
  rw [h.lists]
  exact hr

theorem Stocked.touched {F : Footprint} (hs : Stocked s.heap) (ht : Touches F s t)
    (hF : ∀ x ∈ F.triggers, s.heap.triggers x = .event ⟨.actuatorTarget, none⟩ → x % 9 = 2 →
      F.path = wiperTarget) : Stocked t.heap := by
  refine ⟨fun x => (ht.blank x).trans (hs.blank x), fun x hx => ?_⟩
  obtain ⟨path, hpath, hbound⟩ := hs.target x hx
  by_cases hmem : x ∈ F.triggers
  · have hevolves := ht.evolves x
    rw [hpath] at hevolves
    cases htrigger : t.heap.triggers x with
    | clock c => simp [htrigger, Trigger.Evolves] at hevolves
    | event e =>
      rw [htrigger] at hevolves
      rcases hevolves with rfl | rfl
      · exact ⟨path, rfl, hbound⟩
      · refine ⟨_, rfl, .inr ?_⟩
        rcases hbound with rfl | rfl
        · simp [EventTrigger.bound, hF x hmem hpath hx]
        · rfl
  · rw [ht.triggers x hmem]
    exact ⟨path, hpath, hbound⟩

structure Supplied (s : Service) : Prop where
  stocked : Stocked s.heap
  inStock : InStock s.registry

theorem Supplied.touched {F : Footprint} (hs : Supplied s) (ht : Touches F s t)
    (hF : ∀ x ∈ F.triggers, s.heap.triggers x = .event ⟨.actuatorTarget, none⟩ → x % 9 = 2 →
      F.path = wiperTarget) : Supplied t :=
  ⟨hs.stocked.touched ht hF, hs.inStock.reads ht.registry⟩

theorem Supplied.reload (hs : Supplied s) (script : Script)
    (hno : ∀ e ∈ script.mockPy s.loads, ∀ b path, e ≠ .addBehavior b path)
    (hexec : (reload script).exec s = (result, t)) : Supplied t := by
  have htouches : Touches (.loading s.fresh) (runMockPy script s) ((load script).exec s).2 := by
    rw [exec_load]
    exact within_loadRegistry s.fresh (runMockPy script s) (Nat.le_refl _)
  have hrun : Supplied (runMockPy script s) := ⟨hs.stocked, hs.inStock.edits _ hno⟩
  have hload := hrun.touched htouches fun x hx => hx.elim
  cases result with
  | none =>
    rw [load_of_raise hexec] at hload
    exact hload
  | some _ =>
    simp only [Mock.reload, Raise.bind_some, Raise.exec_atomic, Prod.mk.injEq, true_and] at hexec
    obtain ⟨mocked, u, hexec, rfl⟩ := hexec
    rw [hexec] at hload
    exact ⟨hload.stocked, hload.inStock⟩

theorem mockPy_no_addBehavior (n : Nat) : ∀ e ∈ mockPyEdits n, ∀ b path, e ≠ .addBehavior b path := by
  simp [mockPyEdits]

section
variable {interp1d : Interp1d} {dataType : Path → Option DataType} (hlo : lo ≤ 0) (hhi : 0 ≤ hi)
include hlo hhi

theorem Supplied.accepts {s : Session} (hs : Supplied s.service) (hc : Conforms lo hi input) :
    (Contract.shipped lo hi).Accepts (.shipped interp1d dataType) s input := by
  have hedits : (Contract.shipped lo hi).TypesEdits s.service.heap s.service.registry
      (mockPyEdits s.service.loads) :=
    hs.stocked.typesEdits hlo hhi hs.inStock _ (supplies_mockPy hlo hhi _)
  cases input with
  | connect => exact hedits
  | feed => trivial
  | start => trivial
  | turn input =>
    cases input with
    | edit e => cases e <;> trivial
    | check => exact fun _ => hedits
    | visit element b deltaTime => trivial
    | play element b deltaTime => trivial
    | receive name path value => exact hc
    | setExternally path value => exact hc

omit hlo hhi

theorem Contract.Types.target (ht : (Contract.shipped lo hi).Types h p b)
    (htrigger : h.triggers b.trigger = .event ⟨.actuatorTarget, none⟩) (htwo : b.trigger % 9 = 2) :
    p = wiperTarget := by
  by_contra hne
  obtain ⟨q, hq, -⟩ := ht.event _ htrigger .none (fun _ hp => (hne hp).elim) htwo
  cases hq

theorem Supplied.turn {s t : Running} (hs : Supplied s.service)
    (hk : (Contract.shipped lo hi).Kept (.shipped interp1d dataType) s.service)
    (hc : Conforms lo hi (.turn input))
    (hstep : turnStep (.shipped interp1d dataType) s input = some t) : Supplied t.service := by
  obtain ⟨-, henabled, rfl⟩ := turnStep_some hstep
  cases input with
  | edit e =>
    refine ⟨hs.stocked, hs.inStock.edit ?_⟩
    rintro b path rfl
    cases hc
  | check =>
    cases hchanged : isChanged s.service with
    | false =>
      have hexec : (TurnInput.program (.shipped interp1d dataType) .check).exec s.service =
          (some (), s.service) := exec_check_unchanged hchanged
      rw [hexec]
      exact hs
    | true =>
      have hexec : (TurnInput.program (.shipped interp1d dataType) .check).exec s.service =
          (Mock.reload (.shipped interp1d dataType)).exec s.service := exec_check_changed hchanged
      rw [hexec]
      rcases hreload : (Mock.reload (.shipped interp1d dataType)).exec s.service with ⟨result, u⟩
      exact hs.reload (.shipped interp1d dataType) (mockPy_no_addBehavior _) hreload
  | visit element b deltaTime =>
    simp only [TurnInput.enabled, Bool.and_eq_true, decide_eq_true_eq] at henabled
    rw [exec_visit]
    refine hs.touched (hk.grounded.touches_visit henabled.1 _ b deltaTime) ?_
    rintro x rfl htrigger htwo
    exact (hk.mocked element henabled.1 b henabled.2).target htrigger htwo
  | play element b deltaTime =>
    rcases hk.grounded.play_cases (.shipped interp1d dataType) b deltaTime with hsame | ⟨a, -, -, ht⟩
    · simp only [TurnInput.program, hsame]
      exact hs
    · exact hs.touched ht fun x hx => hx.elim
  | receive name path value =>
    simp only [TurnInput.program, LoopInput.program, Raise.exec_atomic, receive]
    split <;> exact ⟨hs.stocked, hs.inStock⟩
  | setExternally path value => exact ⟨hs.stocked, hs.inStock⟩

theorem Supplied.step {s t : Session} (hs : Supplied s.service)
    (hk : (Contract.shipped lo hi).Kept (.shipped interp1d dataType) s.service)
    (hc : Conforms lo hi input) (hstep : sessionStep (.shipped interp1d dataType) s input = some t) :
    Supplied t.service := by
  cases input with
  | connect =>
    simp only [sessionStep] at hstep
    split at hstep
    · cases hstep
    · split at hstep
      · obtain rfl := Option.some.inj hstep
        exact hs
      · have hexec : (checkForNewMocks (.shipped interp1d dataType) true).exec s.service =
            (Mock.reload (.shipped interp1d dataType)).exec s.service := by
          simp [checkForNewMocks]
        rw [hexec] at hstep
        split at hstep
        · rename_i u hreload
          obtain rfl := Option.some.inj hstep
          exact hs.reload (.shipped interp1d dataType) (mockPy_no_addBehavior _) hreload
        · rename_i u hreload
          obtain rfl := Option.some.inj hstep
          exact hs.reload (.shipped interp1d dataType) (mockPy_no_addBehavior _) hreload
  | feed =>
    simp only [sessionStep] at hstep
    split at hstep
    · cases hstep
    · obtain rfl := Option.some.inj hstep
      simp only [exec_feedElement]
      split
      · obtain ⟨pending, broker, log, hframe⟩ := setDatapoint_frame _ _ s.service
        rw [hframe]
        exact ⟨hs.stocked, hs.inStock⟩
      · exact hs
  | start =>
    simp only [sessionStep] at hstep
    split at hstep
    · obtain rfl := Option.some.inj hstep
      exact hs
    · cases hstep
  | turn input =>
    simp only [sessionStep] at hstep
    split at hstep
    · cases hstep
    · obtain ⟨u, hturn, rfl⟩ := Option.map_eq_some_iff.mp hstep
      exact hs.turn hk hc hturn

end

theorem unloaded_shipped (broker : Path → Option Value) : Unloaded (.shipped broker) := by
  refine ⟨rfl, fun r => ?_, List.nodup_nil, List.nodup_nil⟩
  simp only [Service.shipped, mockPyAction]
  split <;> rfl

/-- What the service has written and what the broker holds. -/
structure InRange (lo hi : ℚ) (s : Service) : Prop where
  speed : ∀ v ∈ writtenTo vehicleSpeed s.log, v.Within 0 100
  wiper : ∀ p, ofWiper p → ∀ v ∈ writtenTo p s.log, v.Within lo hi
  broker : ∀ p, ofWiper p → ∀ v, s.broker p = some v → v.Within lo hi

/-- For all types that the broker may have and all orders of the steps of the
service. The bounds include the 0 that stands for a missing value. -/
theorem shipped_in_range (interp1d : Interp1d) (hbetween : interp1d.Between)
    (dataType : Path → Option DataType) (lo hi : ℚ) (hlo : lo ≤ 0) (hhi : 0 ≤ hi)
    (broker : Path → Option Value) (hbroker : ∀ p, ofWiper p → ∀ v, broker p = some v → v.Within lo hi)
    (inputs : List SessionInput) (hc : ∀ input ∈ inputs, Conforms lo hi input) :
    Throughout (sessionStep (.shipped interp1d dataType)) (fun t => InRange lo hi t.service)
      (.initial (.shipped broker)) inputs := by
  have hkept : (Contract.shipped lo hi).Kept (.shipped interp1d dataType) (.shipped broker) := by
    refine (unloaded_shipped broker).kept (fun d hd => by cases hd) (fun p v hp hw => hbroker p hw v hp)
      rfl rfl fun r hr => absurd hr (Nat.not_lt_zero r)
  have hstart : (Contract.shipped lo hi).Upheld (.shipped interp1d dataType) (.initial (.shipped broker)) ∧
      Supplied (Service.shipped broker) :=
    ⟨⟨hkept, fun e he => by cases he⟩, stocked_shipped broker, fun x b hb => hb⟩
  refine (Along.throughout (P := fun t : Session =>
    (Contract.shipped lo hi).Upheld (.shipped interp1d dataType) t ∧ Supplied t.service)
    (C := fun _ input => Conforms lo hi input) ?_ hstart ?_).mono ?_
  · rintro t input u ⟨hu, hs⟩ hinput hstep
    exact ⟨hu.step hbetween (hs.accepts hlo hhi hinput) hstep, hs.step hu.kept hinput hstep⟩
  · exact Atomic.along_of_forall hc
  · rintro t ⟨⟨hk, -⟩, -⟩
    refine ⟨fun v hv => (hk.written _ v hv).1 rfl, fun p hp v hv => (hk.written p v hv).2 hp, ?_⟩
    exact fun p hp v hv => hk.broker p v hv hp

theorem mapM_number (numbers : List ℚ) :
    (numbers.map Value.number).mapM Value.number? = some numbers := by
  induction numbers with
  | nil => rfl
  | cons q numbers ih =>
    rw [List.map_cons, List.mapM_cons, ih]
    rfl

theorem linearInterp1d_between : linearInterp1d.Between := by
  intro numbers duration f hf t
  simp only [linearInterp1d, mapM_number, Option.bind_some] at hf
  split at hf
  · obtain rfl := Option.some.inj hf
    exact Animation.valueAt_between _ t
  · cases hf

def shippedType (p : Path) : Option DataType :=
  if p = vehicleSpeed ∨ ofWiper p then some .float
  else if p = frontDefroster ∨ p = brakeDefect then some .boolean
  else some .string

def shippedElement (p : Path) (r : Ref) : Path × MockedDataPoint := (p, ⟨r, true, mockPyList r⟩)

def shippedDrive : List SessionInput :=
  [.connect, .feed, .feed, .feed, .feed, .feed, .feed, .feed, .start, .turn .check,
    .turn (.visit (shippedElement vehicleSpeed 0) (mockPyBehavior 0 0) 1),
    .turn (.play (shippedElement vehicleSpeed 0) (mockPyBehavior 0 0) 1),
    .turn (.receive .actuatorTarget wiperTarget (.number 45)),
    .turn (.visit (shippedElement wiperTarget 2) (mockPyBehavior 0 2) 1),
    .turn (.receive .actuatorTarget wiperActual (.number 1)),
    .turn (.visit (shippedElement wiperActual 3) (mockPyBehavior 0 4) 1),
    .turn (.play (shippedElement wiperActual 3) (mockPyBehavior 0 4) 2)]

theorem shipped_in_range_drive :
    Throughout (sessionStep (.shipped linearInterp1d shippedType)) (fun t => InRange 0 180 t.service)
        (.initial (.shipped fun _ => none)) shippedDrive ∧
      (Atomic.run (sessionStep (.shipped linearInterp1d shippedType))
        (.initial (.shipped fun _ => none)) shippedDrive).map (fun t => (t.raised,
          writtenTo vehicleSpeed t.service.log, writtenTo wiperTarget t.service.log,
          writtenTo wiperActual t.service.log)) =
        some (false, [.number 0, .number 24], [.number 0, .number 45], [.number 0, .number 9]) := by
  refine ⟨shipped_in_range linearInterp1d linearInterp1d_between shippedType 0 180 (by norm_num)
    (by norm_num) _ (fun p _ v hv => by cases hv) shippedDrive ?_, by decide +kernel⟩
  unfold shippedDrive
  simp only [List.forall_mem_cons, Conforms, true_and]
  refine ⟨fun _ _ _ => ⟨45, rfl, by norm_num, by norm_num⟩, fun _ _ hp => absurd hp (by decide), ?_⟩
  exact fun input hinput => by cases hinput

end KuksaServices.Mock
