import KuksaServices.Mock.Footprint

/-!
# Own and foreign writes

The broker notifies the service of every write to a path, also of its own
ones, and `_set_datapoint` looks for the notification of its write right
after it. Which event it removes depends on what has arrived by then. A run
in which the notification has arrived, behind all other value events of the
path, never executes a behavior for an own write and never loses a foreign
one (`own_writes_unheard`).
-/

namespace KuksaServices.Mock

open Atomic (Along)

variable {p : Path}

-- ---------------------------------------------------------------------------
-- Events and where they come from
-- ---------------------------------------------------------------------------

/-- The write that an event tells of. -/
inductive Origin where
  | own (id : Nat)
  | external (id : Nat)
  | other
  deriving DecidableEq, Repr

abbrev Entry := Event × Origin

def take (name : EventType) (path : Path) (entries : List Entry) : Option Entry × List Entry :=
  (lastMatch name path (entries.map Prod.fst)).elim (none, entries) fun e =>
    (entries.find? (·.1 == e), entries.eraseP (·.1 == e))

theorem take_events (name : EventType) (path : Path) (entries : List Entry) :
    (take name path entries).2.map Prod.fst = removeLastMatch name path (entries.map Prod.fst) := by
  unfold take removeLastMatch
  cases lastMatch name path (entries.map Prod.fst) with
  | none => rfl
  | some e => simp [List.erase_eq_eraseP', List.eraseP_map, Function.comp_def]

theorem take_result (name : EventType) (path : Path) (entries : List Entry) :
    (take name path entries).1.map Prod.fst = lastMatch name path (entries.map Prod.fst) := by
  unfold take
  cases h : lastMatch name path (entries.map Prod.fst) with
  | none => rfl
  | some e =>
    obtain ⟨x, hx, rfl⟩ := List.mem_map.mp (lastMatch_mem h)
    cases hfind : entries.find? (·.1 == x.1) with
    | none =>
      have hnone := List.find?_eq_none.mp hfind x hx
      simp at hnone
    | some y =>
      have hy := List.find?_some hfind
      simpa [hfind] using hy

theorem mem_of_mem_take (h : x ∈ (take name path entries).2) : x ∈ entries := by
  unfold take at h
  cases hl : lastMatch name path (entries.map Prod.fst) with
  | none => simpa [hl] using h
  | some e =>
    simp only [hl, Option.elim_some] at h
    exact List.mem_of_mem_eraseP h

theorem mem_eraseP_or_find {f : Entry → Bool} {entries : List Entry} (h : x ∈ entries) :
    x ∈ entries.eraseP f ∨ entries.find? f = some x := by
  induction entries with
  | nil => cases h
  | cons y entries ih =>
    by_cases hy : f y = true
    · rcases List.mem_cons.mp h with rfl | h
      · exact .inr (by simp [hy])
      · exact .inl (by simpa [hy] using h)
    · rcases List.mem_cons.mp h with rfl | h
      · exact .inl (by simp [hy])
      · simpa [hy] using (ih h).imp_left .inr

theorem mem_take_or (name : EventType) (path : Path) (h : x ∈ entries) :
    x ∈ (take name path entries).2 ∨ (take name path entries).1 = some x := by
  unfold take
  cases hl : lastMatch name path (entries.map Prod.fst) with
  | none => exact .inl h
  | some e => exact mem_eraseP_or_find h

theorem mem_of_taken (h : (take name path entries).1 = some x) :
    x ∈ entries ∧ x.1.isFor name path = true := by
  have hresult := take_result name path entries
  rw [h] at hresult
  obtain ⟨hname, hpath⟩ := lastMatch_isFor hresult.symm
  refine ⟨?_, by simp [Event.isFor, hname, hpath]⟩
  unfold take at h
  cases hl : lastMatch name path (entries.map Prod.fst) with
  | none => simp [hl] at h
  | some e =>
    simp only [hl, Option.elim_some] at h
    exact List.mem_of_find?_eq_some h

-- ---------------------------------------------------------------------------
-- Writes, notifications and checks
-- ---------------------------------------------------------------------------

/-- The service, for one path. `entries` are its pending events, `flight` the
notifications still to be delivered. `writing` is set while `_set_datapoint`
stands between its write and its scan. -/
structure Echo where
  service : Service
  entries : List Entry
  flight : List (Origin × Value)
  writing : Option (Nat × Value)
  next : Nat
  /-- The external writes of a value. -/
  externals : List Nat
  /-- For whose events a behavior was executed. -/
  executed : List Origin
  /-- Whose events `_set_datapoint` removed. -/
  removed : List Origin

def Echo.start (service : Service) : Echo where
  service := service
  entries := service.pending.map fun e => (e, .other)
  flight := []
  writing := none
  next := 0
  externals := []
  executed := []
  removed := []

inductive EchoInput where
  | setExternally (value : Value)
  /-- The write of `_set_datapoint`, and the rest of it. -/
  | write (value : Value)
  | scan
  | deliver
  /-- Any other event arrives. -/
  | receive (name : EventType) (path : Path) (value : Value)
  /-- A behavior of any datapoint has its trigger checked, and is executed if
  it is active. -/
  | check (behavior : Behavior) (caller : Path) (deltaTime : ℚ)
  deriving DecidableEq, Repr

def Echo.setExternally (p : Path) (s : Echo) (value : Value) : Echo :=
  { s with
    service := Mock.setExternally p value s.service
    flight := s.flight ++ [(.external s.next, value)]
    next := s.next + 1
    externals := if value ≠ .none then s.externals ++ [s.next] else s.externals }

def Echo.write (p : Path) (s : Echo) (value : Value) : Echo :=
  { s with
    service := writeBroker p value s.service
    flight := s.flight ++ [(.own s.next, value)]
    next := s.next + 1
    writing := some (s.next, value) }

def Echo.scan (p : Path) (s : Echo) : Echo :=
  { s with
    service := discardEvent p s.service
    entries := (take .value p s.entries).2
    writing := none
    removed := s.removed ++ ((take .value p s.entries).1.map Prod.snd).toList }

def Echo.receive (s : Echo) (name : EventType) (path : Path) (value : Value) (origin : Origin) : Echo :=
  { s with
    service := Mock.receive name path value s.service
    entries := if value ≠ .none then s.entries ++ [(⟨name, path, value⟩, origin)] else s.entries }

def Echo.check (p : Path) (s : Echo) (b : Behavior) (caller : Path) (deltaTime : ℚ) : Echo :=
  let (result, service) := checkTriggerOf b caller deltaTime s.service
  match s.service.heap.triggers b.trigger with
  | .clock _ => { s with service := service }
  | .event t =>
    let (taken, entries) := take t.eventType (t.bound caller) s.entries
    { s with
      service := service
      entries := entries
      executed := if result.isActive ∧ (t.eventType, t.bound caller) = (.value, p)
        then s.executed ++ (taken.map Prod.snd).toList else s.executed }

def echoStep (p : Path) (s : Echo) : EchoInput → Option Echo
  | .setExternally value => some (s.setExternally p value)
  | .write value => if s.writing.isSome then none else some (s.write p value)
  | .scan => if s.writing.isSome then some (s.scan p) else none
  | .deliver => match s.flight with
    | [] => none
    | (origin, value) :: flight => some ({ s with flight := flight }.receive .value p value origin)
  | .receive name path value =>
    if (name, path) = (.value, p) then none else some (s.receive name path value .other)
  | .check b caller deltaTime =>
    if s.writing.isSome then none else some (s.check p b caller deltaTime)

-- ---------------------------------------------------------------------------
-- Fair runs
-- ---------------------------------------------------------------------------

/-- No behavior was executed for an own write, and every external write was
heard, is pending or still on its way. -/
structure Fair (s : Echo) : Prop where
  pending : s.entries.map Prod.fst = s.service.pending
  executed : ∀ n, .own n ∉ s.executed
  removed : ∀ n, .external n ∉ s.removed
  kept : ∀ n ∈ s.externals, .external n ∈ s.flight.map Prod.fst ∨
    .external n ∈ s.entries.map Prod.snd ∨ .external n ∈ s.executed

/-- When `_set_datapoint` looks for an event, the one of its write has
arrived, no value event of the path stands behind it and no equal one in
front of it. A write of `None` makes no event, and none is pending then. -/
def InTime (p : Path) (s : Echo) : EchoInput → Prop
  | .scan => ∀ n value, s.writing = some (n, value) →
    (value = .none → lastMatch .value p s.service.pending = none) ∧
    (value ≠ .none → ∃ front back, s.entries = front ++ (⟨.value, p, value⟩, .own n) :: back ∧
      (∀ x ∈ front, x.1 ≠ ⟨.value, p, value⟩) ∧ ∀ x ∈ back, x.1.isFor .value p = false)
  | _ => True

structure Attuned (p : Path) (s : Echo) : Prop where
  pending : s.entries.map Prod.fst = s.service.pending
  keys : ∀ x ∈ s.entries, x.2 ≠ .other → x.1.isFor .value p = true
  single : ∀ n, (s.flight.map Prod.fst ++ s.entries.map Prod.snd).count (.own n) ≤ 1
  fresh : ∀ n, .own n ∈ s.flight.map Prod.fst ++ s.entries.map Prod.snd → n < s.next
  ownEntries : ∀ x ∈ s.entries, ∀ n, x.2 = .own n → ∃ value, s.writing = some (n, value)
  ownFlight : ∀ n value, (.own n, value) ∈ s.flight → value = .none ∨ s.writing = some (n, value)
  executed : ∀ n, .own n ∉ s.executed
  removed : ∀ n, .external n ∉ s.removed
  kept : ∀ n ∈ s.externals, (∃ value, value ≠ .none ∧ (.external n, value) ∈ s.flight) ∨
    (∃ x ∈ s.entries, x.2 = .external n) ∨ .external n ∈ s.executed

theorem attuned_start (p : Path) (service : Service) : Attuned p (.start service) where
  pending := by simp [Echo.start, Function.comp_def]
  keys := by simp [Echo.start]
  single n := by
    have hnone : .own n ∉ (Echo.start service).entries.map Prod.snd := by simp [Echo.start]
    have hzero := List.count_eq_zero.mpr hnone
    simpa [Echo.start] using hzero.trans_le (Nat.zero_le 1)
  fresh := by simp [Echo.start]
  ownEntries := by simp [Echo.start]
  ownFlight := by simp [Echo.start]
  executed := by simp [Echo.start]
  removed := by simp [Echo.start]
  kept := by simp [Echo.start]

theorem Attuned.fair (h : Attuned p s) : Fair s := by
  refine ⟨h.pending, h.executed, h.removed, fun n hn => ?_⟩
  rcases h.kept n hn with ⟨value, -, hmem⟩ | ⟨x, hx, hx'⟩ | hmem
  · exact .inl (List.mem_map.mpr ⟨_, hmem, rfl⟩)
  · exact .inr (.inl (List.mem_map.mpr ⟨x, hx, hx'⟩))
  · exact .inr (.inr hmem)

theorem Attuned.setExternally (h : Attuned p s) (value : Value) : Attuned p (s.setExternally p value) := by
  refine ⟨h.pending, h.keys, fun n => ?_, fun n hn => ?_, h.ownEntries, fun n v hn => ?_, h.executed,
    h.removed, fun n hn => ?_⟩
  · have hsingle := h.single n
    simpa [Echo.setExternally, List.count_append] using hsingle
  · refine Nat.lt_succ_of_lt (h.fresh n ?_)
    simpa [Echo.setExternally] using hn
  · refine h.ownFlight n v ?_
    simpa [Echo.setExternally] using hn
  · have hkept : n ∈ s.externals ∨ n = s.next ∧ value ≠ .none := by
      simp only [Echo.setExternally] at hn
      split at hn
      · rename_i hv
        rcases List.mem_append.mp hn with hn | hn
        · exact .inl hn
        · exact .inr ⟨List.mem_singleton.mp hn, hv⟩
      · exact .inl hn
    rcases hkept with hn | ⟨rfl, hv⟩
    · rcases h.kept n hn with ⟨v, hv, hmem⟩ | hrest
      · exact .inl ⟨v, hv, List.mem_append_left _ hmem⟩
      · exact .inr hrest
    · exact .inl ⟨value, hv, List.mem_append_right _ List.mem_cons_self⟩

theorem Attuned.write (h : Attuned p s) (hw : s.writing = none) (value : Value) :
    Attuned p (s.write p value) := by
  have hfresh : .own s.next ∉ s.flight.map Prod.fst ++ s.entries.map Prod.snd := fun hmem =>
    Nat.lt_irrefl _ (h.fresh _ hmem)
  refine ⟨h.pending, h.keys, fun n => ?_, fun n hn => ?_, fun x hx n hn => ?_, fun n v hn => ?_,
    h.executed, h.removed, fun n hn => ?_⟩
  · by_cases heq : n = s.next
    · subst heq
      have hzero := List.count_eq_zero.mpr hfresh
      simp only [List.count_append] at hzero
      simp [Echo.write, List.count_append]
      omega
    · have hsingle := h.single n
      have hne : Origin.own s.next ≠ .own n := by simpa using Ne.symm heq
      simpa [Echo.write, List.count_append, List.count_singleton, hne] using hsingle
  · simp only [Echo.write, List.map_append, List.mem_append, List.map_cons, List.map_nil,
      List.mem_singleton, Origin.own.injEq] at hn
    rcases hn with (hn | rfl) | hn
    · exact Nat.lt_succ_of_lt (h.fresh n (List.mem_append_left _ hn))
    · exact Nat.lt_succ_self _
    · exact Nat.lt_succ_of_lt (h.fresh n (List.mem_append_right _ hn))
  · obtain ⟨v, hv⟩ := h.ownEntries x hx n hn
    simp [hw] at hv
  · simp only [Echo.write, List.mem_append, List.mem_singleton, Prod.mk.injEq, Origin.own.injEq] at hn
    rcases hn with hn | ⟨rfl, rfl⟩
    · rcases h.ownFlight n v hn with hv | hv
      · exact .inl hv
      · simp [hw] at hv
    · exact .inr rfl
  · rcases h.kept n hn with ⟨v, hv, hmem⟩ | hrest
    · exact .inl ⟨v, hv, List.mem_append_left _ hmem⟩
    · exact .inr hrest

theorem discardEvent_pending (p : Path) (s : Service) :
    (discardEvent p s).pending = removeLastMatch .value p s.pending := by
  unfold discardEvent removeLastMatch
  cases lastMatch .value p s.pending with
  | none => rfl
  | some e => rfl

theorem take_none (h : lastMatch name path (entries.map Prod.fst) = none) :
    take name path entries = (none, entries) := by
  simp [take, h]

theorem take_last {front back : List Entry} (he : e.isFor name path = true)
    (hfront : ∀ x ∈ front, x.1 ≠ e) (hback : ∀ x ∈ back, x.1.isFor name path = false) :
    take name path (front ++ (e, origin) :: back) = (some (e, origin), front ++ back) := by
  have hlast : lastMatch name path ((front ++ (e, origin) :: back).map Prod.fst) = some e := by
    have hnone : (back.map Prod.fst).filter (·.isFor name path) = [] := by
      simpa [List.filter_eq_nil_iff] using fun a b hx => hback (a, b) hx
    simp [lastMatch, List.filter_append, he, hnone]
  have hfind : front.find? (fun x => x.1 == e) = none := by
    simpa using fun a b hx => hfront (a, b) hx
  unfold take
  rw [hlast]
  simp only [Option.elim_some, List.find?_append, hfind, Option.none_or]
  rw [List.eraseP_append_right]
  · simp
  · simpa using fun a b hx => hfront (a, b) hx

section
variable {entries : List Entry} (hown : ∀ x ∈ entries, ∀ n, x.2 ≠ .own n)
include hown

theorem own_not_mem (n : Nat) : .own n ∉ entries.map Prod.snd := by
  intro hn
  obtain ⟨x, hx, heq⟩ := List.mem_map.mp hn
  exact hown x hx n heq

theorem Attuned.single_of_none (h : Attuned p s) (n : Nat) :
    (s.flight.map Prod.fst ++ entries.map Prod.snd).count (.own n) ≤ 1 := by
  have hzero := List.count_eq_zero.mpr (own_not_mem hown n)
  have hsingle := h.single n
  simp only [List.count_append] at hsingle ⊢
  omega

theorem Attuned.fresh_of_none (h : Attuned p s)
    (hn : .own n ∈ s.flight.map Prod.fst ++ entries.map Prod.snd) : n < s.next := by
  rcases List.mem_append.mp hn with hn | hn
  · exact h.fresh n (List.mem_append_left _ hn)
  · exact absurd hn (own_not_mem hown n)

end

theorem Attuned.scanned (h : Attuned p s) (hown : ∀ x ∈ (take .value p s.entries).2, ∀ m, x.2 ≠ .own m)
    (hflight : ∀ m v, (.own m, v) ∈ s.flight → v = .none)
    (htaken : ∀ x, (take .value p s.entries).1 = some x → ∀ m, x.2 ≠ .external m) :
    Attuned p (s.scan p) := by
  have hsub : ∀ x ∈ (take .value p s.entries).2, x ∈ s.entries := fun x hx => mem_of_mem_take hx
  refine ⟨?_, fun x hx => h.keys x (hsub x hx), h.single_of_none hown, fun m hm => h.fresh_of_none hown hm,
    fun x hx m hm => ?_, fun m v hm => .inl (hflight m v hm), h.executed, fun m hm => ?_, fun m hm => ?_⟩
  · exact (take_events _ _ _).trans (by rw [h.pending, ← discardEvent_pending]; rfl)
  · exact absurd hm (hown x hx m)
  · rcases List.mem_append.mp hm with hm | hm
    · exact h.removed m hm
    · cases hx : (take .value p s.entries).1 with
      | none => simp [hx] at hm
      | some x =>
        simp only [hx, Option.map_some, Option.toList_some, List.mem_singleton] at hm
        exact htaken x hx m hm.symm
  · rcases h.kept m hm with hf | ⟨x, hx, heq⟩ | he
    · exact .inl hf
    · rcases mem_take_or .value p hx with hrest | htake
      · exact .inr (.inl ⟨x, hrest, heq⟩)
      · exact absurd heq (htaken x htake m)
    · exact .inr (.inr he)

theorem Attuned.scan (h : Attuned p s) (hw : s.writing = some (n, value)) (hc : InTime p s .scan) :
    Attuned p (s.scan p) := by
  obtain ⟨hempty, harrived⟩ := hc n value hw
  by_cases hv : value = .none
  · -- nothing is taken, and no own event is there
    have hnone := hempty hv
    have htake : take .value p s.entries = (none, s.entries) := take_none (h.pending ▸ hnone)
    refine h.scanned (fun x hx m hm => ?_) (fun m v hm => ?_) (by simp [htake])
    · rw [htake] at hx
      have hfor := h.keys x hx (by simp [hm])
      have hmem : x.1 ∈ s.service.pending := h.pending ▸ List.mem_map_of_mem hx
      simp [lastMatch_none hnone hmem] at hfor
    · rcases h.ownFlight m v hm with hv' | hv'
      · exact hv'
      · rw [hw] at hv'
        cases hv'
        exact hv
  · obtain ⟨front, back, hentries, hfront, hback⟩ := harrived hv
    have htake : take .value p s.entries = (some (⟨.value, p, value⟩, .own n), front ++ back) := by
      rw [hentries]
      exact take_last (by simp [Event.isFor]) hfront hback
    -- the event taken was the only trace of the write
    have hsingle := h.single n
    rw [hentries] at hsingle
    simp only [List.map_append, List.map_cons, List.count_append, List.count_cons_self] at hsingle
    have hgone : ∀ l : List Origin, l.count (.own n) = 0 → .own n ∉ l := fun l => List.count_eq_zero.mp
    have hcurrent : ∀ m v, s.writing = some (m, v) → m = n := by
      intro m v hm
      rw [hw] at hm
      cases hm
      rfl
    refine h.scanned (fun x hx m hm => ?_) (fun m v hm => ?_) (by simp [htake])
    · rw [htake] at hx
      have hmem : x ∈ s.entries := by
        rw [hentries]
        rcases List.mem_append.mp hx with hx | hx
        · exact List.mem_append_left _ hx
        · exact List.mem_append_right _ (List.mem_cons_of_mem _ hx)
      obtain ⟨v, hm'⟩ := h.ownEntries x hmem m hm
      obtain rfl := hcurrent m v hm'
      rcases List.mem_append.mp hx with hx | hx
      · exact hgone (front.map Prod.snd) (by omega) (List.mem_map.mpr ⟨x, hx, hm⟩)
      · exact hgone (back.map Prod.snd) (by omega) (List.mem_map.mpr ⟨x, hx, hm⟩)
    · rcases h.ownFlight m v hm with hv' | hv'
      · exact hv'
      · obtain rfl := hcurrent m v hv'
        refine absurd (List.mem_map.mpr ⟨_, hm, rfl⟩) (hgone (s.flight.map Prod.fst) (by omega))

theorem Attuned.dropped (h : Attuned p s) (hf : s.flight = (origin, .none) :: flight) (name : EventType)
    (path : Path) : Attuned p ({ s with flight := flight }.receive name path .none origin) := by
  obtain ⟨hpending, hkeys, hsingle, hfresh, hentries, hflight, hexecuted, hremoved, hkept⟩ := h
  rw [hf] at hsingle hfresh hflight hkept
  refine ⟨?_, ?_, fun n => ?_, fun n hn => ?_, ?_, fun n v hn => hflight n v (List.mem_cons_of_mem _ hn),
    hexecuted, hremoved, fun n hn => ?_⟩
  · simpa [Echo.receive, Mock.receive] using hpending
  · simpa [Echo.receive] using hkeys
  · have hn := hsingle n
    simp only [List.map_cons, List.cons_append, List.count_cons] at hn
    simp only [Echo.receive, ne_eq, not_true_eq_false, if_false]
    omega
  · refine hfresh n (List.mem_cons_of_mem _ ?_)
    simpa [Echo.receive] using hn
  · simpa [Echo.receive] using hentries
  · rcases hkept n hn with ⟨v, hv, hmem⟩ | hrest
    · rcases List.mem_cons.mp hmem with heq | hmem
      · cases heq
        exact absurd rfl hv
      · exact .inl ⟨v, hv, hmem⟩
    · simpa [Echo.receive] using Or.inr hrest

theorem Attuned.queued (h : Attuned p s) (hf : s.flight = (origin, value) :: flight) (hv : value ≠ .none)
    (hkey : origin ≠ .other → name = .value ∧ path = p) :
    Attuned p ({ s with flight := flight }.receive name path value origin) := by
  obtain ⟨hpending, hkeys, hsingle, hfresh, hentries, hflight, hexecuted, hremoved, hkept⟩ := h
  rw [hf] at hsingle hfresh hflight hkept
  have hreceive : (({ s with flight := flight } : Echo).receive name path value origin).entries =
      s.entries ++ [(⟨name, path, value⟩, origin)] := by
    simp [Echo.receive, hv]
  refine ⟨?_, fun x hx hne => ?_, fun n => ?_, fun n hn => ?_, fun x hx n hn => ?_,
    fun n v hn => hflight n v (List.mem_cons_of_mem _ hn), hexecuted, hremoved, fun n hn => ?_⟩
  · simp [Echo.receive, Mock.receive, hv, hpending]
  · rw [hreceive] at hx
    rcases List.mem_append.mp hx with hx | hx
    · exact hkeys x hx hne
    · rw [List.mem_singleton.mp hx] at hne ⊢
      obtain ⟨rfl, rfl⟩ := hkey hne
      simp [Event.isFor]
  · have hn := hsingle n
    rw [hreceive]
    simp only [List.map_cons, List.map_append, List.map_nil, List.cons_append, List.count_append,
      List.count_cons, List.count_nil] at hn ⊢
    simp only [Echo.receive]
    omega
  · refine hfresh n ?_
    rw [hreceive] at hn
    simp only [Echo.receive, List.map_append, List.map_cons, List.map_nil, List.mem_append,
      List.mem_singleton] at hn
    simp only [List.map_cons, List.cons_append, List.mem_cons, List.mem_append]
    rcases hn with hn | hn | hn
    · exact .inr (.inl hn)
    · exact .inr (.inr hn)
    · exact .inl hn
  · rw [hreceive] at hx
    rcases List.mem_append.mp hx with hx | hx
    · exact hentries x hx n hn
    · rw [List.mem_singleton.mp hx] at hn
      rcases hflight n value (by simp [← hn]) with hnone | hwriting
      · exact absurd hnone hv
      · exact ⟨value, hwriting⟩
  · rw [hreceive]
    rcases hkept n hn with ⟨v, hv, hmem⟩ | ⟨x, hx, heq⟩ | hmem
    · rcases List.mem_cons.mp hmem with heq | hmem
      · cases heq
        exact .inr (.inl ⟨_, List.mem_append_right _ List.mem_cons_self, rfl⟩)
      · exact .inl ⟨v, hv, hmem⟩
    · exact .inr (.inl ⟨x, List.mem_append_left _ hx, heq⟩)
    · exact .inr (.inr hmem)

theorem Attuned.arrives (h : Attuned p s) (hf : s.flight = (origin, value) :: flight)
    (hkey : origin ≠ .other → name = .value ∧ path = p) :
    Attuned p ({ s with flight := flight }.receive name path value origin) := by
  by_cases hv : value = .none
  · subst hv
    exact h.dropped hf name path
  · exact h.queued hf hv hkey

theorem Attuned.receive (h : Attuned p s) (name : EventType) (path : Path) (value : Value) :
    Attuned p (s.receive name path value .other) := by
  have hflight : Attuned p { s with flight := (.other, value) :: s.flight } := by
    refine ⟨h.pending, h.keys, ?_, ?_, h.ownEntries, ?_, h.executed, h.removed, fun n hn => ?_⟩
    · simpa using h.single
    · simpa using h.fresh
    · simpa using h.ownFlight
    · rcases h.kept n hn with ⟨v, hv, hmem⟩ | hrest
      · exact .inl ⟨v, hv, List.mem_cons_of_mem _ hmem⟩
      · exact .inr hrest
  exact hflight.arrives rfl fun hne => absurd rfl hne

/-- The events left by a check, and its result. -/
theorem checkTriggerOf_event {s : Service} (ht : s.heap.triggers b.trigger = .event trigger)
    (caller : Path) (deltaTime : ℚ) :
    (checkTriggerOf b caller deltaTime s).1 =
        .event (lastMatch trigger.eventType (trigger.bound caller) s.pending) ∧
      (checkTriggerOf b caller deltaTime s).2.pending =
        removeLastMatch trigger.eventType (trigger.bound caller) s.pending := by
  simp only [checkTriggerOf, ht, Trigger.check, EventTrigger.check]
  cases lastMatch trigger.eventType (trigger.bound caller) s.pending with
  | none => exact ⟨rfl, rfl⟩
  | some e => exact ⟨rfl, rfl⟩

theorem checkTriggerOf_clock {s : Service} (ht : s.heap.triggers b.trigger = .clock trigger)
    (caller : Path) (deltaTime : ℚ) :
    (checkTriggerOf b caller deltaTime s).2.pending = s.pending := by
  simp [checkTriggerOf, ht, Trigger.check, Service.setTrigger]

theorem Attuned.check (h : Attuned p s) (hw : s.writing = none) (b : Behavior) (caller : Path)
    (deltaTime : ℚ) : Attuned p (s.check p b caller deltaTime) := by
  have hown : ∀ x ∈ s.entries, ∀ n, x.2 ≠ .own n := by
    intro x hx n hn
    obtain ⟨v, hv⟩ := h.ownEntries x hx n hn
    simp [hw] at hv
  unfold Echo.check
  cases ht : s.service.heap.triggers b.trigger with
  | clock t =>
    refine ⟨?_, h.keys, h.single, h.fresh, h.ownEntries, h.ownFlight, h.executed, h.removed, h.kept⟩
    exact h.pending.trans (checkTriggerOf_clock ht caller deltaTime).symm
  | event t =>
    have hsub : ∀ x ∈ (take t.eventType (t.bound caller) s.entries).2, x ∈ s.entries := fun x hx =>
      mem_of_mem_take hx
    have hleft : ∀ x ∈ (take t.eventType (t.bound caller) s.entries).2, ∀ m, x.2 ≠ .own m := fun x hx =>
      hown x (hsub x hx)
    refine ⟨?_, fun x hx => h.keys x (hsub x hx), h.single_of_none hleft,
      fun m hm => h.fresh_of_none hleft hm, fun x hx => h.ownEntries x (hsub x hx), h.ownFlight,
      fun m hm => ?_, h.removed, fun m hm => ?_⟩
    · exact (take_events _ _ _).trans
        (by rw [h.pending, ← (checkTriggerOf_event ht caller deltaTime).2])
    · dsimp only at hm
      split at hm
      · rcases List.mem_append.mp hm with hm | hm
        · exact h.executed m hm
        · cases htaken : (take t.eventType (t.bound caller) s.entries).1 with
          | none => simp [htaken] at hm
          | some x =>
            simp only [htaken, Option.map_some, Option.toList_some, List.mem_singleton] at hm
            exact hown x (mem_of_taken htaken).1 m hm.symm
      · exact h.executed m hm
    · rcases h.kept m hm with hflight | ⟨x, hx, heq⟩ | hmem
      · exact .inl hflight
      · rcases mem_take_or t.eventType (t.bound caller) hx with hrest | htaken
        · exact .inr (.inl ⟨x, hrest, heq⟩)
        · -- an external event is taken by a trigger for values of the path only
          have hfor := h.keys x hx (by simp [heq])
          have hfor' := (mem_of_taken htaken).2
          simp only [Event.isFor, Bool.and_eq_true, beq_iff_eq] at hfor hfor'
          have hkey : (t.eventType, t.bound caller) = (.value, p) := by
            rw [← hfor'.1, ← hfor'.2, hfor.1, hfor.2]
          have hresult := (checkTriggerOf_event ht caller deltaTime).1
          rw [← h.pending, ← take_result, htaken] at hresult
          refine .inr (.inr ?_)
          simp [hkey, hresult, TriggerResult.isActive, htaken, heq]
      · refine .inr (.inr ?_)
        dsimp only
        split
        · exact List.mem_append_left _ hmem
        · exact hmem

theorem Attuned.step (h : Attuned p s) (hc : InTime p s input) (hs : echoStep p s input = some t) :
    Attuned p t := by
  cases input with
  | setExternally value =>
    cases hs
    exact h.setExternally value
  | write value =>
    simp only [echoStep] at hs
    split at hs
    · cases hs
    · rename_i hw
      cases hs
      exact h.write (by simpa using hw) value
  | scan =>
    simp only [echoStep] at hs
    split at hs
    · rename_i hw
      cases hs
      obtain ⟨⟨n, value⟩, hw⟩ := Option.isSome_iff_exists.mp hw
      exact h.scan hw hc
    · cases hs
  | deliver =>
    cases hf : s.flight with
    | nil => simp [echoStep, hf] at hs
    | cons note flight =>
      simp only [echoStep, hf, Option.some.injEq] at hs
      subst hs
      exact h.arrives hf fun _ => ⟨rfl, rfl⟩
  | receive name path value =>
    simp only [echoStep] at hs
    split at hs
    · cases hs
    · cases hs
      exact h.receive name path value
  | check b caller deltaTime =>
    simp only [echoStep] at hs
    split at hs
    · cases hs
    · rename_i hw
      cases hs
      exact h.check (by simpa using hw) b caller deltaTime

/-- In every run, from every state of the service, whose own writes all find
their notification in time: no behavior is executed for an own write, and no
external write is lost. -/
theorem own_writes_unheard (p : Path) (service : Service) (inputs : List EchoInput)
    (hc : Along (echoStep p) (InTime p) (.start service) inputs) :
    Atomic.Throughout (echoStep p) Fair (.start service) inputs := by
  have hattuned : Atomic.Throughout (echoStep p) (Attuned p) (.start service) inputs :=
    hc.throughout (fun s input t h hc hs => h.step hc hs) (attuned_start p service)
  exact hattuned.mono fun s h => h.fair

-- ---------------------------------------------------------------------------
-- A late notification
-- ---------------------------------------------------------------------------

def Service.benchEcho : Service where
  heap := ⟨fun _ => .event ⟨.value, some "Lamp"⟩, fun _ => .set ⟨.number 1, false⟩⟩
  datapoints _ := ⟨"Lamp", some .uint8, .number 0, true⟩
  fresh := 1
  registry := ⟨[⟨"Lamp", .number 0, 0⟩], fun _ => [⟨0, 0, 0⟩], []⟩
  mocked := [("Lamp", ⟨0, true, [⟨0, 0, 0⟩]⟩)]
  pending := []
  registered := true
  loads := 1
  subscriptions := [["Lamp"]]
  broker _ := none
  log := []

def benchHeard : List EchoInput :=
  [.write (.number 5), .deliver, .scan, .setExternally (.number 3), .deliver, .check ⟨0, 0, 0⟩ "Lamp" 1]

theorem own_writes_unheard_bench :
    Atomic.Throughout (echoStep "Lamp") Fair (.start .benchEcho) benchHeard ∧
      (Atomic.run (echoStep "Lamp") (.start .benchEcho) benchHeard).map (·.executed) =
        some [.external 1] := by
  refine ⟨own_writes_unheard "Lamp" .benchEcho benchHeard ?_, by decide⟩
  refine ⟨trivial, trivial, ?_, trivial, trivial, trivial, trivial⟩
  rintro n value hw
  cases hw
  refine ⟨fun hv => ?_, fun _ => ⟨[], [], by decide, by decide, by decide⟩⟩
  cases hv

/-- The scan is over before the notification comes. -/
def benchLate : List EchoInput :=
  [.write (.number 5), .scan, .deliver, .check ⟨0, 0, 0⟩ "Lamp" 1]

def benchForeign : List EchoInput :=
  [.setExternally (.number 3), .deliver, .write (.number 5), .scan]

/-- The behavior is executed for the own write, and the foreign value is
removed. -/
theorem own_write_heard_foreign_lost :
    (∃ s, Atomic.run (echoStep "Lamp") (.start .benchEcho) benchLate = some s ∧
      s.executed = [.own 0] ∧ ¬ Fair s) ∧
    ∃ s, Atomic.run (echoStep "Lamp") (.start .benchEcho) benchForeign = some s ∧
      s.removed = [.external 0] ∧ s.service.pending = [] ∧ ¬ Fair s := by
  refine ⟨⟨_, rfl, by decide, fun h => ?_⟩, ⟨_, rfl, by decide, by decide, fun h => ?_⟩⟩
  · exact h.executed 0 (by decide)
  · exact h.removed 0 (by decide)

end KuksaServices.Mock
