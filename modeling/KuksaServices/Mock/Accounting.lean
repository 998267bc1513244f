import KuksaServices.Atomic.Log
import KuksaServices.Mock.Footprint
import KuksaServices.Mock.Rounds

/-!
# Where the events go

The main loop takes its rounds action by action, and between any two actions
the handlers may append events. Every event that was appended is pending, was
consumed by a trigger or was discarded by `_set_datapoint`, and within a round
the log pairs the events consumed with the behaviors executed for them
(`events_accounted`).
-/

namespace KuksaServices.Mock

open Atomic

-- ---------------------------------------------------------------------------
-- The main loop among the handlers
-- ---------------------------------------------------------------------------

/-- `rest` is what the main loop is still to do of its round, and `begun` the
length of the log where it began. -/
structure Working where
  service : Service
  rest : Prog Site Service (Option Unit)
  begun : Nat
  appended : List Event

inductive WorkInput where
  /-- `BehaviorExecutor.execute` is called. -/
  | round (deltaTime : ℚ)
  /-- The animators are ticked. -/
  | animate (deltaTime : ℚ)
  | act
  | append (event : Event)

def Working.begin (w : Working) (program : Py Unit) : Option Working :=
  match w.rest with
  | .ret (some ()) => some { w with rest := program, begun := w.service.log.length }
  -- after an exception, or during a round
  | _ => none

def workStep (script : Script) (w : Working) : WorkInput → Option Working
  | .round deltaTime => w.begin (execute script deltaTime)
  | .animate deltaTime => w.begin (animate script deltaTime)
  | .act => match w.rest with
    | .ret _ => none
    | .act _ upd next => some { w with service := upd w.service, rest := next w.service }
  | .append e => some { w with
      service := { w.service with pending := w.service.pending ++ [e] }
      appended := w.appended ++ [e] }

def Working.start (s : Service) : Working where
  service := { s with log := [] }
  rest := .ret (some ())
  begun := 0
  appended := s.pending

def Working.roundLog (w : Working) : List Deed := w.service.log.drop w.begun

def Working.underWay (w : Working) : Bool := w.rest.site?.isSome

-- ---------------------------------------------------------------------------
-- The books
-- ---------------------------------------------------------------------------

def Deed.consumed? : Deed → Option Event
  | .consumed e => some e
  | _ => none

def Deed.discarded? : Deed → Option Event
  | .discarded e => some e
  | _ => none

def consumedOf (log : List Deed) : List Event := log.filterMap Deed.consumed?

def discardedOf (log : List Deed) : List Event := log.filterMap Deed.discarded?

theorem consumedOf_snoc (log : List Deed) (d : Deed) :
    consumedOf (log ++ [d]) = consumedOf log ++ d.consumed?.toList := by
  cases h : d.consumed? <;> simp [consumedOf, h]

theorem discardedOf_snoc (log : List Deed) (d : Deed) :
    discardedOf (log ++ [d]) = discardedOf log ++ d.discarded?.toList := by
  cases h : d.discarded? <;> simp [discardedOf, h]

def Trigger.TakesEvent (e : Event) (t : Trigger) : Prop := t = .event ⟨e.name, some e.path⟩

/-- As multisets, the events appended are those pending, consumed and
discarded. In the round, a consumed event is of the type and path of the
trigger whose behavior is executed next, an event-triggered behavior is
executed for the event just consumed, no datapoint has two executions, and an
event is discarded only by the `_set_datapoint` that has just written its path. -/
structure Accounted (w : Working) : Prop where
  balance : w.appended.Perm
    (w.service.pending ++ consumedOf w.service.log ++ discardedOf w.service.log)
  consumed : ∀ before e after, w.roundLog = before ++ .consumed e :: after →
    (after = [] ∧ w.underWay) ∨ ∃ path b rest, after = .executed path b :: rest ∧
      (w.service.heap.triggers b.trigger).TakesEvent e
  executed : ∀ before path b after t, w.roundLog = before ++ .executed path b :: after →
    w.service.heap.triggers b.trigger = .event t →
      ∃ e, before.getLast? = some (.consumed e) ∧ (w.service.heap.triggers b.trigger).TakesEvent e
  once : ((executedOf w.roundLog).map Prod.fst).Nodup
  discarded : ∀ before e after, w.roundLog = before ++ .discarded e :: after →
    e.name = .value ∧ ∃ value, before.getLast? = some (.wrote e.path value)

-- ---------------------------------------------------------------------------
-- The order of the log
-- ---------------------------------------------------------------------------

/-- What may stand right after `before`: a consumed event is followed by the
execution for it and by nothing else. -/
def Follows (triggers : Ref → Trigger) (before : Option Deed) : Deed → Prop
  | .executed _ b => match triggers b.trigger with
    | .event t => ∃ e, before = some (.consumed e) ∧ t = ⟨e.name, some e.path⟩
    | .clock _ => ∀ e, before ≠ some (.consumed e)
  | .discarded e => e.name = .value ∧ ∃ value, before = some (.wrote e.path value)
  | _ => ∀ e, before ≠ some (.consumed e)

theorem Follows.executes (h : Follows triggers (some (.consumed e)) d) :
    ∃ path b, d = .executed path b ∧ (triggers b.trigger).TakesEvent e := by
  cases d with
  | executed path b =>
    refine ⟨path, b, rfl, ?_⟩
    simp only [Follows] at h
    cases ht : triggers b.trigger with
    | clock t => simp [ht] at h
    | event t =>
      simp only [ht, Option.some.injEq, Deed.consumed.injEq] at h
      obtain ⟨e', rfl, rfl⟩ := h
      rfl
  | consumed e' => exact absurd rfl (h e)
  | assigned path listened value => exact absurd rfl (h e)
  | wrote path value => exact absurd rfl (h e)
  | discarded e' => simp [Follows] at h

structure Books (n : Nat) (triggers : Ref → Trigger) (log : List Deed) : Prop where
  begun : n ≤ log.length
  linked : Linked (Follows triggers) (log.drop n)
  once : ((executedOf (log.drop n)).map Prod.fst).Nodup

/-- No consumed event waits for its execution, and none of the `coming` paths
has had one. -/
structure Settled (n : Nat) (coming : List Path) (s : Service) : Prop where
  books : Books n s.heap.triggers s.log
  paid : ∀ e, (s.log.drop n).getLast? ≠ some (.consumed e)
  idle : ∀ path ∈ coming, path ∉ (executedOf (s.log.drop n)).map Prod.fst

def held (s : Service) : List Event := s.pending ++ consumedOf s.log ++ discardedOf s.log

structure Enters (n : Nat) (s t : Service) : Prop where
  books : Books n t.heap.triggers t.log
  held : (held t).Perm (held s)
  mocked : t.mocked = s.mocked

def bookkeeping (n : Nat) : Discipline Site Service where
  site _ := True
  rely s t := ∃ events, t = { s with pending := s.pending ++ events }
  rely_refl s := ⟨[], by simp⟩
  rely_trans := by
    rintro a b c ⟨events, rfl⟩ ⟨events', rfl⟩
    exact ⟨events ++ events', by simp⟩
  may _ := Enters n
  on _ _ := True

section
variable {n : Nat} {triggers triggers' : Ref → Trigger} {log : List Deed} {coming : List Path}
  {s t : Service}

theorem Books.start (triggers : Ref → Trigger) (log : List Deed) : Books log.length triggers log where
  begun := Nat.le_refl _
  linked := by
    rw [List.drop_length]
    exact .nil
  once := by simp [executedOf]

theorem Follows.evolves (hev : ∀ r, ∃ path, (triggers r).Evolves path (triggers' r))
    (h : Follows triggers before d) : Follows triggers' before d := by
  cases d with
  | executed path b =>
    obtain ⟨path, hev⟩ := hev b.trigger
    simp only [Follows] at h ⊢
    cases ht : triggers b.trigger with
    | clock t =>
      cases ht' : triggers' b.trigger with
      | clock t' => simpa [ht] using h
      | event t' =>
        rw [ht, ht'] at hev
        exact hev.elim
    | event t =>
      cases ht' : triggers' b.trigger with
      | clock t' =>
        rw [ht, ht'] at hev
        exact hev.elim
      | event t' =>
        rw [ht, ht'] at hev
        simp only [ht] at h
        obtain ⟨e, hbefore, rfl⟩ := h
        rcases hev with rfl | rfl
        · exact ⟨e, hbefore, rfl⟩
        · exact ⟨e, hbefore, rfl⟩
  | consumed e => exact h
  | assigned path listened value => exact h
  | wrote path value => exact h
  | discarded e => exact h

theorem Books.evolves (h : Books n triggers log)
    (hev : ∀ r, ∃ path, (triggers r).Evolves path (triggers' r)) : Books n triggers' log :=
  ⟨h.begun, h.linked.mono fun _ _ => Follows.evolves hev, h.once⟩

theorem Books.drop_record (h : Books n triggers log) (d : Deed) :
    (log ++ [d]).drop n = log.drop n ++ [d] :=
  List.drop_append_of_le_length h.begun

theorem Books.record (h : Books n triggers log) (hd : Follows triggers (log.drop n).getLast? d)
    (ho : ∀ x ∈ d.executed?, x.1 ∉ (executedOf (log.drop n)).map Prod.fst) :
    Books n triggers (log ++ [d]) where
  begun := by
    have hle := h.begun
    simp only [List.length_append]
    omega
  linked := by
    rw [h.drop_record]
    exact h.linked.snoc hd
  once := by
    rw [h.drop_record]
    cases hx : d.executed? with
    | none => simpa [executedOf, hx] using h.once
    | some x =>
      have hnot := ho x hx
      have honce := h.once
      simp only [executedOf, List.filterMap_append, List.map_append] at honce hnot ⊢
      simp only [List.filterMap_cons, hx, List.filterMap_nil, List.map_cons, List.map_nil]
      refine List.nodup_append.mpr ⟨honce, by simp, ?_⟩
      rintro a ha b hb rfl
      obtain rfl := List.mem_singleton.mp hb
      exact hnot ha

-- ---------------------------------------------------------------------------
-- Single actions
-- ---------------------------------------------------------------------------

structure Unbooked (s t : Service) : Prop where
  triggers : t.heap.triggers = s.heap.triggers
  log : t.log = s.log
  pending : t.pending = s.pending
  mocked : t.mocked = s.mocked

theorem Settled.unbooked (h : Settled n coming s) (hu : Unbooked s t) :
    Enters n s t ∧ Settled n coming t := by
  have hbooks : Books n t.heap.triggers t.log := by
    rw [hu.triggers, hu.log]
    exact h.books
  refine ⟨⟨hbooks, ?_, hu.mocked⟩, hbooks, ?_, ?_⟩
  · simp [held, hu.log, hu.pending]
  · rw [hu.log]
    exact h.paid
  · rw [hu.log]
    exact h.idle

theorem Settled.weaken (h : Settled n coming s) (hsub : ∀ path ∈ coming', path ∈ coming) :
    Settled n coming' s :=
  ⟨h.books, h.paid, fun path hpath => h.idle path (hsub path hpath)⟩

theorem Settled.record (h : Settled n coming s) (ht : t.heap.triggers = s.heap.triggers)
    (hlog : t.log = s.log ++ [d]) (hmocked : t.mocked = s.mocked)
    (hd : Follows s.heap.triggers (s.log.drop n).getLast? d)
    (hd' : ∀ e, d ≠ .consumed e) (hx : d.executed? = none)
    (hheld : (held t).Perm (held s)) : Enters n s t ∧ Settled n coming t := by
  have hbooks : Books n t.heap.triggers t.log := by
    rw [ht, hlog]
    exact h.books.record hd (by simp [hx])
  refine ⟨⟨hbooks, hheld, hmocked⟩, hbooks, ?_, ?_⟩
  · rw [hlog, h.books.drop_record]
    simpa using fun e he => hd' e he
  · rw [hlog, h.books.drop_record]
    simpa [executedOf, hx] using h.idle

theorem perm_erase_snoc {l : List Event} (taken : List Event) (h : e ∈ l) :
    (l.erase e ++ (taken ++ [e])).Perm (l ++ taken) := by
  refine (List.perm_append_comm.append_left _).trans ?_
  exact List.perm_middle.trans ((List.perm_cons_erase h).symm.append_right taken)

theorem Settled.wrote (h : Settled n coming s) (path : Path) (value : Value) :
    Enters n s (writeBroker path value s) ∧ Settled n coming (writeBroker path value s) ∧
      ((writeBroker path value s).log.drop n).getLast? = some (.wrote path value) := by
  have hrec := h.record (t := writeBroker path value s) (d := .wrote path value) rfl rfl rfl h.paid
    nofun rfl (by simp [writeBroker, Service.record, held, consumedOf_snoc, discardedOf_snoc,
      Deed.consumed?, Deed.discarded?])
  refine ⟨hrec.1, hrec.2, ?_⟩
  simp only [writeBroker, Service.record]
  rw [h.books.drop_record]
  simp

theorem Settled.discards (h : Settled n coming s)
    (hw : (s.log.drop n).getLast? = some (.wrote path value)) :
    Enters n s (discardEvent path s) ∧ Settled n coming (discardEvent path s) := by
  unfold discardEvent
  cases hl : lastMatch .value path s.pending with
  | none => exact h.unbooked ⟨rfl, rfl, rfl, rfl⟩
  | some e =>
    obtain ⟨hname, rfl⟩ := lastMatch_isFor hl
    refine h.record (d := .discarded e) rfl rfl rfl ⟨hname, value, hw⟩ nofun rfl ?_
    simp only [Option.elim_some, Service.record, held, consumedOf_snoc, discardedOf_snoc,
      removeLastMatch, hl]
    simpa [Deed.consumed?, Deed.discarded?] using
      perm_erase_snoc (consumedOf s.log ++ discardedOf s.log) (lastMatch_mem hl)

theorem unbooked_assign (r : Ref) (value : Value) (s : Service) :
    Unbooked (s.record (.assigned (s.datapoints r).path (s.datapoints r).hasListener value))
      (assignValue r value s).2 := by
  unfold assignValue
  dsimp only
  split <;> exact ⟨rfl, rfl, rfl, rfl⟩

theorem Settled.assigned (h : Settled n coming s) (r : Ref) (value : Value) :
    Enters n s (assignValue r value s).2 ∧ Settled n coming (assignValue r value s).2 := by
  have hu := unbooked_assign r value s
  refine h.record hu.triggers hu.log hu.mocked h.paid nofun rfl ?_
  simp [held, hu.log, hu.pending, Service.record, consumedOf_snoc, discardedOf_snoc, Deed.consumed?,
    Deed.discarded?]

def Checked (n : Nat) (coming : List Path) (b : Behavior) (result : TriggerResult) (s : Service) :
    Prop :=
  match result with
  | .event (some e) => Books n s.heap.triggers s.log ∧
    (s.log.drop n).getLast? = some (.consumed e) ∧ (s.heap.triggers b.trigger).TakesEvent e ∧
    ∀ path ∈ coming, path ∉ (executedOf (s.log.drop n)).map Prod.fst
  | .event none => Settled n coming s
  | .clock _ => Settled n coming s ∧ ∃ t, s.heap.triggers b.trigger = .clock t

theorem evolves_setTrigger (s : Service) (r : Ref) (path : Path) (deltaTime : ℚ) (r' : Ref) :
    ∃ caller, (s.heap.triggers r').Evolves caller ((s.setTrigger r
      ((s.heap.triggers r).check path deltaTime s.pending).2.1).heap.triggers r') := by
  refine ⟨path, ?_⟩
  by_cases hr : r' = r
  · subst hr
    simpa [Service.setTrigger] using check_evolves path deltaTime s.pending _
  · simpa [Service.setTrigger, hr] using Trigger.Evolves.refl path (s.heap.triggers r')

theorem Settled.check (h : Settled n coming s) (b : Behavior) (path : Path) (deltaTime : ℚ) :
    Enters n s (checkTriggerOf b path deltaTime s).2 ∧
      Checked n coming b (checkTriggerOf b path deltaTime s).1
        (checkTriggerOf b path deltaTime s).2 := by
  have hbooks := h.books.evolves (evolves_setTrigger s b.trigger path deltaTime)
  cases ht : s.heap.triggers b.trigger with
  | clock c =>
    rw [ht] at hbooks
    simp only [checkTriggerOf, ht, Trigger.check]
    refine ⟨⟨hbooks, .refl _, rfl⟩, ⟨hbooks, h.paid, h.idle⟩, (c.check deltaTime).2, ?_⟩
    exact Function.update_self ..
  | event trigger =>
    rw [ht] at hbooks
    simp only [checkTriggerOf, ht, Trigger.check, EventTrigger.check]
    cases hl : lastMatch trigger.eventType (trigger.bound path) s.pending with
    | none =>
      have hpending : removeLastMatch trigger.eventType (trigger.bound path) s.pending = s.pending := by
        simp [removeLastMatch, hl]
      rw [hpending]
      exact ⟨⟨hbooks, .refl _, rfl⟩, ⟨hbooks, h.paid, h.idle⟩⟩
    | some e =>
      obtain ⟨hname, hpath⟩ := lastMatch_isFor hl
      have hnext := hbooks.record (d := .consumed e) h.paid (by simp [Deed.executed?])
      refine ⟨⟨hnext, ?_, rfl⟩, hnext, ?_, ?_, ?_⟩
      · simp only [Service.record, Service.setTrigger, held, consumedOf_snoc, discardedOf_snoc,
          removeLastMatch, hl, Option.elim_some]
        simpa [Deed.consumed?, Deed.discarded?] using
          (perm_erase_snoc (consumedOf s.log) (lastMatch_mem hl)).append_right (discardedOf s.log)
      · simp only [Service.record, Service.setTrigger]
        rw [h.books.drop_record]
        simp
      · simp [Trigger.TakesEvent, Service.record, Service.setTrigger, hname, hpath]
      · simp only [Service.record, Service.setTrigger]
        rw [h.books.drop_record]
        simpa [executedOf, Deed.executed?] using h.idle

theorem Checked.ready (h : Checked n coming b result s) (ha : result.isActive = true)
    (path : Path) : Books n s.heap.triggers s.log ∧
      (∀ p ∈ coming, p ∉ (executedOf (s.log.drop n)).map Prod.fst) ∧
      Follows s.heap.triggers (s.log.drop n).getLast? (.executed path b) := by
  match result, h, ha with
  | .event (some e), ⟨hbooks, hlast, htakes, hidle⟩, _ =>
    refine ⟨hbooks, hidle, ?_⟩
    simp only [Follows, show s.heap.triggers b.trigger = _ from htakes]
    exact ⟨e, hlast, rfl⟩
  | .clock active, ⟨hsettled, t, ht⟩, _ =>
    refine ⟨hsettled.books, hsettled.idle, ?_⟩
    simp only [Follows, ht]
    exact hsettled.paid

theorem Checked.execute (h : Checked n (path :: coming) b result s) (ha : result.isActive = true)
    (hpath : path ∉ coming) :
    Enters n s (s.record (.executed path b)) ∧ Settled n coming (s.record (.executed path b)) := by
  obtain ⟨hbooks, hidle, hfollows⟩ := h.ready ha path
  have hnext := hbooks.record hfollows (by
    rintro x hx
    obtain rfl := Option.some.inj hx
    exact hidle path List.mem_cons_self)
  refine ⟨⟨hnext, ?_, rfl⟩, hnext, ?_, ?_⟩
  · simp [Service.record, held, consumedOf_snoc, discardedOf_snoc, Deed.consumed?, Deed.discarded?]
  · simp only [Service.record]
    rw [hbooks.drop_record]
    simp
  · simp only [Service.record]
    rw [hbooks.drop_record]
    intro p hp
    have hp' := hidle p (List.mem_cons_of_mem _ hp)
    simp only [executedOf, List.filterMap_append, List.map_append, List.mem_append, not_or] at hp' ⊢
    refine ⟨hp', ?_⟩
    rintro hmem
    obtain rfl : p = path := by simpa [Deed.executed?] using hmem
    exact hpath hp

-- ---------------------------------------------------------------------------
-- The programs
-- ---------------------------------------------------------------------------

theorem stable_settled : Prog.Stable (bookkeeping n) (Settled n coming) := by
  rintro s t h ⟨events, rfl⟩
  exact ⟨h.books, h.paid, h.idle⟩

theorem stable_wrote : Prog.Stable (bookkeeping n) fun s => Settled n coming s ∧
    (s.log.drop n).getLast? = some (.wrote path value) := by
  rintro s t ⟨h, hlast⟩ ⟨events, rfl⟩
  exact ⟨⟨h.books, h.paid, h.idle⟩, hlast⟩

theorem stable_checked : Prog.Stable (bookkeeping n) (Checked n coming b result) := by
  rintro s t h ⟨events, rfl⟩
  match result with
  | .event (some e) => exact h
  | .event none => exact ⟨h.books, h.paid, h.idle⟩
  | .clock active => exact ⟨⟨h.1.books, h.1.paid, h.1.idle⟩, h.2⟩

def Keeps (n : Nat) (coming : List Path) (p : Py α) : Prop :=
  Raise.Spec (bookkeeping n) (Settled n coming) p (fun _ => Settled n coming) (Settled n [])

theorem Keeps.pure (a : α) : Keeps n coming (pure a : Py α) :=
  Raise.Spec.pure (B := fun _ => Settled n coming) stable_settled

theorem Keeps.raise : Keeps n coming (Raise.raise : Py α) :=
  (Raise.Spec.raise stable_settled).pre fun _ h => h.weaken nofun

theorem Keeps.bind {p : Py α} {f : α → Py β} (hp : Keeps n coming p)
    (hf : ∀ a, Keeps n coming (f a)) : Keeps n coming (p >>= f) :=
  Raise.Spec.bind stable_settled hp hf

theorem Keeps.unbooked {f : Service → Option α × Service} (h : ∀ s, Unbooked s (f s).2) :
    Keeps n coming (Raise.attempt l f) := by
  refine Raise.Spec.attempt trivial stable_settled (fun _ => stable_settled) stable_settled ?_
  intro s hs _
  obtain ⟨henters, hsettled⟩ := hs.unbooked (h s)
  refine ⟨henters, ?_⟩
  cases (f s).1 with
  | none => exact hsettled.weaken nofun
  | some a => exact hsettled

theorem Keeps.peek (l : Site) (f : Service → α) : Keeps n coming (Raise.peek l f) :=
  Keeps.unbooked fun _ => ⟨rfl, rfl, rfl, rfl⟩

theorem Keeps.forEach {f : α → Py Unit} {xs : List α} (h : ∀ x, Keeps n coming (f x)) :
    Keeps n coming (Raise.forEach xs f) :=
  Raise.Spec.forEach (J := fun _ => Settled n coming) (fun _ => stable_settled) stable_settled
    (fun x _ => h x) xs

theorem keeps_setDatapoint (path : Path) (value : Value) : Keeps n coming (setDatapoint path value) := by
  -- between the two actions the write is the last deed
  refine Raise.Spec.bind stable_settled (B := fun _ s => Settled n coming s ∧
    (s.log.drop n).getLast? = some (.wrote path value)) ?_ fun _ => ?_
  · refine Raise.Spec.atomic trivial stable_settled (fun _ => stable_wrote) stable_settled ?_
    intro s hs _
    exact hs.wrote path value
  · refine Raise.Spec.atomic trivial stable_wrote (fun _ => stable_settled) stable_settled ?_
    rintro s ⟨hs, hlast⟩ _
    exact hs.discards hlast

theorem keeps_setValue (r : Ref) (value : Value) : Keeps n coming (setValue r value) := by
  refine Keeps.bind ?_ fun heard => ?_
  · refine Raise.Spec.atomic trivial stable_settled (fun _ => stable_settled) stable_settled ?_
    intro s hs _
    exact hs.assigned r value
  · cases heard with
    | false => exact .pure ()
    | true => exact .bind (.peek _ _) fun d => keeps_setDatapoint d.path d.value

theorem keeps_resolveValue (trigger : TriggerResult) (path : Path) (value : Value) :
    Keeps n coming (resolveValue trigger path value) := by
  refine Keeps.unbooked fun s => ?_
  split
  · split
    · split
      · exact ⟨rfl, rfl, rfl, rfl⟩
      · split
        · split <;> exact ⟨rfl, rfl, rfl, rfl⟩
        · exact ⟨rfl, rfl, rfl, rfl⟩
    · exact ⟨rfl, rfl, rfl, rfl⟩
  · exact ⟨rfl, rfl, rfl, rfl⟩

theorem keeps_resolveValues (trigger : TriggerResult) (path : Path) (values : List Value) :
    Keeps n coming (resolveValues trigger path values) := by
  induction values with
  | nil => exact .pure []
  | cons value values ih =>
    refine .bind (keeps_resolveValue trigger path value) fun value => ?_
    exact .bind ih fun values => .pure (value :: values)

theorem keeps_set (a : SetAction) (trigger : TriggerResult) (r : Ref) (path : Path) :
    Keeps n coming (a.execute trigger r path) := by
  refine .bind ?_ fun value => ?_
  · split
    · exact keeps_resolveValue trigger path a.value
    · exact .pure a.value
  · split
    · exact keeps_setValue r value
    · exact .pure ()

end

section
variable {n : Nat} {coming : List Path} (script : Script)

theorem keeps_animation (a : AnimationAction) (action : Ref) (trigger : TriggerResult) (r : Ref)
    (path : Path) : Keeps n coming (a.execute script action trigger r path) := by
  refine .bind (.peek _ _) fun discrete => ?_
  split
  · exact .pure ()
  · refine .bind ?_ fun values => ?_
    · split
      · exact keeps_resolveValues trigger path a.values
      · exact .pure a.values
    · refine Keeps.unbooked fun s => ?_
      split <;> exact ⟨rfl, rfl, rfl, rfl⟩

theorem keeps_executeAction (b : Behavior) (trigger : TriggerResult) (r : Ref) (path : Path) :
    Keeps n coming (executeAction script b trigger r path) := by
  refine .bind (.peek _ _) fun action => ?_
  cases action with
  | set a => exact keeps_set a trigger r path
  | animation a => exact keeps_animation script a b.action trigger r path

theorem keeps_animateBehavior (deltaTime : ℚ) (b : Behavior) :
    Keeps n coming (animateBehavior script deltaTime b) := by
  refine .bind (.peek _ _) fun action => ?_
  cases action with
  | set a => exact .pure ()
  | animation a =>
    cases ha : a.animator with
    | none =>
      simp only [ha]
      exact .raise
    | some animator =>
      simp only [ha]
      split
      · exact .pure ()
      · refine .bind (Keeps.unbooked fun s => ⟨rfl, rfl, rfl, rfl⟩) fun _ => ?_
        exact keeps_setValue _ _

theorem keeps_animate (deltaTime : ℚ) : Keeps n coming (animate script deltaTime) := by
  refine .bind (.peek _ _) fun mocked => .forEach fun element => .forEach fun b => ?_
  exact keeps_animateBehavior script deltaTime b

theorem spec_visit (hpath : path ∉ coming) (r : Ref) (deltaTime : ℚ) (b : Behavior) :
    Raise.Spec (bookkeeping n) (Settled n (path :: coming)) (visitBehavior script path r deltaTime b)
      (fun stop => if stop then Settled n coming else Settled n (path :: coming)) (Settled n []) := by
  have hstay : Raise.Spec (bookkeeping n) (Settled n (path :: coming)) (pure false : Py Bool)
      (fun stop => if stop then Settled n coming else Settled n (path :: coming)) (Settled n []) :=
    fun s h t hr => stable_settled s t h hr
  refine Raise.Spec.bind stable_settled (Keeps.unbooked fun s => ⟨rfl, rfl, rfl, rfl⟩)
    fun fulfilled => ?_
  cases fulfilled with
  | false => exact hstay
  | true =>
    refine Raise.Spec.bind stable_settled (B := Checked n (path :: coming) b) ?_ fun result => ?_
    · refine Raise.Spec.atomic trivial stable_settled (fun _ => stable_checked) stable_settled ?_
      intro s hs _
      exact hs.check b path deltaTime
    · cases hactive : result.isActive with
      | false =>
        refine hstay.pre fun s hs => ?_
        match result, hs, hactive with
        | .event none, hs, _ => exact hs
        | .clock false, hs, _ => exact hs.1
      | true =>
        refine Raise.Spec.bind stable_settled (B := fun _ => Settled n coming) ?_ fun _ => ?_
        · refine Raise.Spec.bind stable_settled (B := fun _ => Settled n coming) ?_ fun _ => ?_
          · refine Raise.Spec.atomic trivial stable_checked (fun _ => stable_settled) stable_settled ?_
            intro s hs _
            exact hs.execute hactive hpath
          · exact keeps_executeAction script b result r path
        · exact fun s h t hr => stable_settled s t h hr

theorem spec_executeElement (hpath : element.1 ∉ coming) (deltaTime : ℚ) :
    Raise.Spec (bookkeeping n) (Settled n (element.1 :: coming))
      (executeElement script deltaTime element) (fun _ => Settled n coming) (Settled n []) :=
  Raise.Spec.forUntil stable_settled stable_settled
    (fun _ h => h.weaken fun _ => List.mem_cons_of_mem _)
    (spec_visit script hpath element.2.datapoint deltaTime) element.2.behaviors

theorem spec_execute (deltaTime : ℚ) :
    Raise.Spec (bookkeeping n) (fun s => s.log.length = n ∧ (s.mocked.map Prod.fst).Nodup)
      (execute script deltaTime) (fun _ => Settled n []) (Settled n []) := by
  -- the elements still to come have had no execution
  let J (elements : List (Path × MockedDataPoint)) (s : Service) : Prop :=
    (elements.map Prod.fst).Nodup ∧ Settled n (elements.map Prod.fst) s
  have hJ : ∀ elements, Prog.Stable (bookkeeping n) (J elements) :=
    fun _ s t h hr => ⟨h.1, stable_settled s t h.2 hr⟩
  refine Raise.Spec.bind stable_settled (B := J) ?_ fun mocked => ?_
  · refine Raise.Spec.atomic trivial ?_ hJ stable_settled ?_
    · rintro s t h ⟨events, rfl⟩
      exact h
    · rintro s ⟨rfl, hkeys⟩ _
      have hbooks := Books.start s.heap.triggers s.log
      exact ⟨⟨hbooks, .refl _, rfl⟩, hkeys, hbooks, by simp, by simp [executedOf]⟩
  · have hloop := Raise.Spec.forEach (f := executeElement script deltaTime) hJ
      (R := Settled n []) stable_settled ?_ mocked
    · exact fun s hs => (hloop s hs).mono fun result t h => by
        cases result with
        | none => exact h
        | some _ => exact h.2
    · rintro element elements s ⟨hkeys, hs⟩
      obtain ⟨hpath, hkeys⟩ := List.nodup_cons.mp hkeys
      refine (spec_executeElement script hpath deltaTime s hs).mono fun result t h => ?_
      cases result with
      | none => exact h
      | some _ => exact ⟨hkeys, h⟩

end

-- ---------------------------------------------------------------------------
-- Every run
-- ---------------------------------------------------------------------------

structure Kept (w : Working) : Prop where
  balance : w.appended.Perm (held w.service)
  keys : (w.service.mocked.map Prod.fst).Nodup
  books : Books w.begun w.service.heap.triggers w.service.log
  rest : w.rest.Holds (bookkeeping w.begun) (fun _ => Settled w.begun []) w.service

variable {script : Script} {w v : Working}

theorem Kept.begin (h : Kept w) (hb : w.begin program = some v)
    (hp : Raise.Spec (bookkeeping w.service.log.length)
      (fun s => s.log.length = w.service.log.length ∧ (s.mocked.map Prod.fst).Nodup) program
      (fun _ => Settled w.service.log.length []) (Settled w.service.log.length [])) : Kept v := by
  unfold Working.begin at hb
  split at hb
  · obtain rfl := Option.some.inj hb
    refine ⟨h.balance, h.keys, .start _ _, (hp w.service ⟨rfl, h.keys⟩).mono ?_⟩
    rintro (_ | _) s hs
    · exact hs
    · exact hs
  · cases hb

theorem Kept.step (input : WorkInput) (h : Kept w) (hs : workStep script w input = some v) : Kept v := by
  cases input with
  | round deltaTime => exact h.begin hs (spec_execute script deltaTime)
  | animate deltaTime =>
    refine h.begin hs ((keeps_animate script deltaTime).pre ?_)
    rintro s ⟨hlog, -⟩
    rw [← hlog]
    exact ⟨.start _ _, by simp, nofun⟩
  | act =>
    simp only [workStep] at hs
    split at hs
    · cases hs
    · rename_i l upd next hrest
      obtain rfl := Option.some.inj hs
      have hholds := h.rest
      rw [hrest] at hholds
      obtain ⟨henters, hnext⟩ := hholds.2 w.service (Discipline.rely_refl _ _) trivial
      refine ⟨h.balance.trans henters.held.symm, ?_, henters.books, hnext⟩
      rw [henters.mocked]
      exact h.keys
  | append e =>
    obtain rfl := Option.some.inj hs
    refine ⟨?_, h.keys, h.books, h.rest.stable ⟨[e], rfl⟩⟩
    refine (h.balance.append_right [e]).trans ?_
    simp only [held, List.append_assoc]
    refine List.Perm.append_left _ ?_
    rw [← List.append_assoc]
    exact List.perm_append_comm

theorem Kept.underWay (h : Kept w) (hlog : w.roundLog = before ++ [.consumed e]) : w.underWay := by
  cases hrest : w.rest with
  | act l upd next => simp [Working.underWay, hrest, Prog.site?]
  | ret result =>
    have hholds := h.rest
    rw [hrest] at hholds
    have hsettled : Settled w.begun [] w.service := hholds w.service (Discipline.rely_refl _ _)
    refine absurd ?_ (hsettled.paid e)
    rw [show w.service.log.drop w.begun = _ from hlog]
    simp

theorem Kept.accounted (h : Kept w) : Accounted w where
  balance := h.balance
  consumed := by
    intro before e after hlog
    cases after with
    | nil => exact .inl ⟨rfl, h.underWay hlog⟩
    | cons d after =>
      have hnext : Follows w.service.heap.triggers (some (.consumed e)) d := by
        have hlinked := h.books.linked
        rw [show w.service.log.drop w.begun = _ from hlog] at hlinked
        exact hlinked.next
      obtain ⟨path, b, rfl, htakes⟩ := hnext.executes
      exact .inr ⟨path, b, after, rfl, htakes⟩
  executed := by
    intro before path b after t hlog ht
    have hfollows := h.books.linked before _ after hlog
    simp only [Follows, ht] at hfollows
    obtain ⟨e, hlast, rfl⟩ := hfollows
    exact ⟨e, hlast, ht⟩
  once := h.books.once
  discarded := by
    intro before e after hlog
    exact h.books.linked before _ after hlog

/-- Over rounds and ticks taken action by action, with events appended
between any two actions. -/
theorem events_accounted (script : Script) (s : Service) (hkeys : (s.mocked.map Prod.fst).Nodup)
    (inputs : List WorkInput) : Throughout (workStep script) Accounted (Working.start s) inputs := by
  have hstart : Kept (Working.start s) := by
    have hbooks := Books.start s.heap.triggers []
    refine ⟨by simp [Working.start, held, consumedOf, discardedOf], hkeys, hbooks, ?_⟩
    rintro t ⟨events, rfl⟩
    exact ⟨hbooks, by simp [Working.start], nofun⟩
  exact (throughout_of_keeps (fun _ i _ => Kept.step i) hstart).mono fun _ => Kept.accounted

/-- A request is consumed, and of two equal notices of the value that it sets
one is discarded; the last one comes in between the write and the scan. -/
def benchRound : List WorkInput :=
  [.append ⟨.actuatorTarget, "Lamp", .number 5⟩, .append ⟨.value, "Lamp", .number 5⟩, .round 1] ++
    List.replicate 9 .act ++ [.append ⟨.value, "Lamp", .number 5⟩, .act]

theorem events_accounted_bench :
    ((setExternally "Gate" (.number 1) .bench).mocked.map Prod.fst).Nodup ∧
      Throughout (workStep .bench) Accounted (.start (setExternally "Gate" (.number 1) .bench)) benchRound ∧
      (run (workStep .bench) (.start (setExternally "Gate" (.number 1) .bench)) benchRound).map
          (fun w => (w.service.pending, consumedOf w.roundLog, discardedOf w.roundLog)) =
        some ([⟨.value, "Lamp", .number 5⟩], [⟨.actuatorTarget, "Lamp", .number 5⟩],
          [⟨.value, "Lamp", .number 5⟩]) :=
  ⟨by decide, events_accounted _ _ (by decide) _, by decide⟩

end KuksaServices.Mock
