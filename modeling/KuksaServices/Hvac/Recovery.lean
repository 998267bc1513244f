import KuksaServices.Hvac.Updates

/-!
# Registering again

A registration that fails in the callback is tried again by `_run`, as long as
`_connected` is set. The flag is cleared by every update error that is not
fatal, and then nothing registers the datapoints before the next change of
the connectivity (`registers_again_iff`).
-/

namespace KuksaServices.Hvac

open Atomic Prog

-- ---------------------------------------------------------------------------
-- Beside the handlers
-- ---------------------------------------------------------------------------

structure Beside (s t : HvacService) : Prop extends Undisturbed s t where
  flag : t.registered = s.registered
  shutdown : t.shutdown = s.shutdown

theorem Beside.refl (s : HvacService) : Beside s s := ⟨.refl s, rfl, rfl⟩

theorem Beside.trans (h : Beside a b) (h' : Beside b c) : Beside a c :=
  ⟨h.toUndisturbed.trans h'.toUndisturbed, h'.flag.trans h.flag, h'.shutdown.trans h.shutdown⟩

def besideHandlers : Discipline Site HvacService where
  site _ := True
  rely := Beside
  rely_refl := .refl
  rely_trans := .trans
  may _ _ _ := True
  on _ _ := True

theorem setDatapoint_beside (name : String) (value : DatapointValue) (outcome : UpdateOutcome) :
    (setDatapoint name value outcome).Does Beside := by
  refine .bind (.atomic .refl) fun id => ?_
  cases id with
  | none => exact .pure false
  | some stored =>
    refine .bind (.atomic fun _ => ⟨⟨rfl, rfl, rfl, fun h => h⟩, rfl, rfl⟩) fun _ => ?_
    cases outcome with
    | ok => exact .pure true
    | rpcError code =>
      exact .bind (.atomic fun _ => ⟨⟨rfl, rfl, rfl, fun h => h⟩, rfl, rfl⟩) fun _ => .pure false

theorem setDatapoint_void_beside (name : String) (value : DatapointValue) (outcome : UpdateOutcome) :
    (void (setDatapoint name value outcome)).Does Beside :=
  .bind (setDatapoint_beside name value outcome) fun _ => .pure ()

def HvacService.Recovered (s : HvacService) : Prop := s.registered = true ∧ s.CurrentIds

theorem Beside.recovered (h : Beside s t) (hs : s.Recovered) : t.Recovered :=
  ⟨h.flag.trans hs.1, h.toUndisturbed.currentIds hs.2⟩

-- ---------------------------------------------------------------------------
-- A registration that succeeds
-- ---------------------------------------------------------------------------

def lookRegistered (outcomes : RegisterOutcomes) : Py Unit := do
  let registered ← .peek .registeredTest (·.registered)
  if !registered then tryRegister outcomes else pure ()

def lookConnected (outcomes : RegisterOutcomes) : Py Unit := do
  let connected ← .peek .connectedTest (·.connected)
  if !connected then pure () else lookRegistered outcomes

def HvacService.Down (s : HvacService) : Prop := s.registered = false

theorem registering_beside (ac temp done : Bool) (call : Nat) :
    Stable besideHandlers (Registering ac temp done call) :=
  fun s t hs hr => registering_stable _ _ _ _ s t hs hr.toUndisturbed

theorem down_beside : Stable besideHandlers HvacService.Down := fun _ _ hs hr => hr.flag.trans hs

theorem registering_counts {f : HvacService → α × HvacService}
    (h : ∀ s, Registering ac temp done call s → Registering ac' temp' done' call (f s).2) :
    CountsFrom besideHandlers HvacService.Down 1 (Registering ac temp done call) (Prog.atomic l f)
      fun _ => Registering ac' temp' done' call :=
  .atomic (registering_beside _ _ _ _) (fun _ => registering_beside _ _ _ _) (fun _ hs => hs.registered) h

theorem register_counts {datapoint : RegistrationMetadata} (answer : Int)
    (h : ∀ s, Registering ac temp false call s →
      Registering ac' temp' false call (s.storeId datapoint.name ⟨answer, call⟩)) :
    CountsFrom besideHandlers HvacService.Down 2 (Registering ac temp false call)
      (register rpc store datapoint call (.id answer))
      fun ok s => ok = true ∧ Registering ac' temp' false call s := by
  refine .bind (n := 1) (m := 1) (registering_counts fun _ h => h) fun _ => ?_
  refine .bind (n := 1) (m := 0) (registering_counts h) fun _ => ?_
  exact fun s hs => ⟨rfl, fun t hr => ⟨rfl, registering_beside _ _ _ _ s t hs hr⟩⟩

theorem Registering.storeAc (h : Registering false false false call s) (answer : Int) :
    Registering true false false call (s.storeId isAirConditioningActive.name ⟨answer, call⟩) where
  registered := h.registered
  ac _ := by simp [HvacService.storeId]
  temp htemp := absurd htemp Bool.false_ne_true
  done hdone := absurd hdone Bool.false_ne_true

theorem Registering.storeTemp (h : Registering true false false call s) (answer : Int) :
    Registering true true false call (s.storeId desiredAmbientAirTemperature.name ⟨answer, call⟩) where
  registered := h.registered
  ac _ := by
    have hne : isAirConditioningActive.name ≠ desiredAmbientAirTemperature.name := by decide
    rw [HvacService.storeId, AList.lookup_insert_ne hne]
    exact h.ac rfl
  temp _ := by simp [HvacService.storeId]
  done hdone := absurd hdone Bool.false_ne_true

theorem registerDatapoints_counts (ac temp : Int) :
    CountsFrom besideHandlers HvacService.Down 6 HvacService.Down (registerDatapoints ⟨.id ac, .id temp⟩)
      fun ok s => ok = true ∧ ∃ call, Registering true true true call s := by
  have hbegin : CountsFrom besideHandlers HvacService.Down 1 HvacService.Down
      (Prog.atomic (.beginCall : Site) fun s : HvacService =>
        (s.notes.calls, { s with notes := { s.notes with calls := s.notes.calls + 1 } }))
      (Registering false false false) := by
    refine .atomic down_beside (fun _ => registering_beside _ _ _ _) (fun _ hs => hs) fun s hs => ?_
    exact ⟨hs, fun h => absurd h Bool.false_ne_true, fun h => absurd h Bool.false_ne_true,
      fun h => absurd h Bool.false_ne_true⟩
  refine .bind (n := 1) (m := 5) hbegin fun call => ?_
  refine .bind (n := 2) (m := 3) (register_counts ac fun s hs => hs.storeAc ac) fun ok => ?_
  rintro s ⟨rfl, hs⟩
  refine CountsFrom.bind (n := 2) (m := 1) (register_counts temp fun s hs => hs.storeTemp temp) (fun ok => ?_) s hs
  rintro s ⟨rfl, hs⟩
  refine CountsFrom.bind (n := 1) (m := 0) (B := fun _ => Registering true true true call)
    (registering_counts fun s hs => ?_) (fun _ => ?_) s hs
  · exact ⟨hs.registered, hs.ac, hs.temp, fun _ => by simp⟩
  · exact fun s hs => ⟨rfl, fun t hr => ⟨rfl, call, registering_beside _ _ _ _ s t hs hr⟩⟩

theorem lookRegistered_counts (ac temp : Int) :
    CountsFrom besideHandlers HvacService.Down 8 HvacService.Down (lookRegistered ⟨.id ac, .id temp⟩)
      fun _ => HvacService.Recovered := by
  have hlook : CountsFrom besideHandlers HvacService.Down 1 HvacService.Down
      (Prog.peek (.registeredTest : Site) fun s : HvacService => s.registered)
      fun registered s => registered = false ∧ s.Down :=
    .atomic down_beside (fun _ _ _ h hr => ⟨h.1, down_beside _ _ h.2 hr⟩) (fun _ hs => hs) fun _ hs => ⟨hs, hs⟩
  refine .bind (n := 1) (m := 7) hlook fun registered => ?_
  rintro s ⟨rfl, hs⟩
  refine CountsFrom.bind (n := 6) (m := 1) (registerDatapoints_counts ac temp) (fun ok => ?_) s hs
  rintro s ⟨rfl, call, hs⟩
  refine CountsFrom.atomic (P := Registering true true true call) (registering_beside _ _ _ _)
    (fun _ _ _ h hr => Beside.recovered hr h) (fun _ h => h.registered) (fun s h => ?_) s hs
  exact ⟨rfl, call, h.ac rfl, h.temp rfl, h.done rfl⟩

-- ---------------------------------------------------------------------------
-- The other threads
-- ---------------------------------------------------------------------------

variable {p p' : Pool Thread Site HvacService} {m : Move Thread Task}

theorem taskCode_handler {s : HvacService} (h : taskCode task (.handler n) s = some c) : c.Does Beside := by
  obtain rfl := taskCode_some (s := s) h
  cases task with
  | notify c outcomes => cases h
  | iterate outcomes => cases h
  | setTemperature temperature outcome => exact setDatapoint_void_beside _ _ _
  | setAcStatus status outcome => exact setDatapoint_void_beside _ _ _

def Staffed (p : Pool Thread Site HvacService) : Prop := ∀ n, (p.thread (.handler n)).Does Beside

theorem Staffed.step (h : Staffed p) (hs : hvacSections.step p m = some p') : Staffed p' := by
  intro n
  cases m with
  | start t task =>
    obtain ⟨c, -, hc, rfl⟩ := hvacSections.toRules.step_start hs
    by_cases ht : Thread.handler n = t
    · subst ht
      simp only [Function.update_self]
      exact taskCode_handler (s := p.shared) hc
    · simpa only [Function.update_of_ne ht] using h n
  | step t =>
    obtain ⟨l, upd, next, hact, -, rfl⟩ := hvacSections.toRules.step_act hs
    by_cases ht : Thread.handler n = t
    · subst ht
      have hown := h n
      rw [hact] at hown
      simp only [Function.update_self]
      exact (hown p.shared).2
    · simpa only [Function.update_of_ne ht] using h n

theorem code_runs (task : Task) : Within (fun _ => True) (fun s => s.shutdown = false) task.code := by
  have haside : ∀ s t, Aside s t → s.shutdown = false → t.shutdown = false :=
    fun _ _ h hs => h.shutdown.trans hs
  have hbeside : ∀ s t, Beside s t → s.shutdown = false → t.shutdown = false :=
    fun _ _ h hs => h.shutdown.trans hs
  cases task with
  | notify c outcomes => exact (notify_aside c outcomes).within haside
  | iterate outcomes => exact (runIteration_aside outcomes).within haside
  | setTemperature temperature outcome => exact (setDatapoint_void_beside _ _ _).within hbeside
  | setAcStatus status outcome => exact (setDatapoint_void_beside _ _ _).within hbeside

structure Calm (p : Pool Thread Site HvacService) : Prop where
  channel : p.thread .channel = .ret ()
  staffed : Staffed p

def RegisterOutcomes.succeed (outcomes : RegisterOutcomes) : Bool :=
  match outcomes.ac, outcomes.temp with
  | .id _, .id _ => true
  | _, _ => false

/-- There is no further callback, and the broker answers to registrations. -/
def Works : Move Thread Task → Bool
  | .start _ (.notify ..) => false
  | .start _ (.iterate outcomes) => outcomes.succeed
  | .start _ (.setTemperature ..) | .start _ (.setAcStatus ..) | .step _ => true

theorem succeed_ids {outcomes : RegisterOutcomes} (h : outcomes.succeed = true) :
    ∃ ac temp, outcomes = ⟨.id ac, .id temp⟩ := by
  obtain ⟨ac, temp⟩ := outcomes
  unfold RegisterOutcomes.succeed at h
  split at h
  · rename_i ac temp hac htemp
    exact ⟨ac, temp, congrArg₂ _ hac htemp⟩
  · cases h

theorem works_connector {s : HvacService} (hm : Works (.start .connector task) = true)
    (hc : taskCode task .connector s = some c) : ∃ ac temp, c = runIteration ⟨.id ac, .id temp⟩ := by
  cases task with
  | notify c outcomes => cases hm
  | iterate outcomes =>
    obtain ⟨ac, temp, rfl⟩ := succeed_ids hm
    exact ⟨ac, temp, (Option.some.inj hc).symm⟩
  | setTemperature temperature outcome => cases hc
  | setAcStatus status outcome => cases hc

theorem Calm.step (h : Calm p) (hm : Works m = true) (hs : hvacSections.step p m = some p') : Calm p' := by
  refine ⟨?_, h.staffed.step hs⟩
  cases m with
  | start t task =>
    obtain ⟨c, -, hc, rfl⟩ := hvacSections.toRules.step_start hs
    by_cases ht : Thread.channel = t
    · subst ht
      cases task with
      | notify c outcomes => cases hm
      | iterate outcomes => cases hc
      | setTemperature temperature outcome => cases hc
      | setAcStatus status outcome => cases hc
    · simpa only [Function.update_of_ne ht] using h.channel
  | step t =>
    obtain ⟨l, upd, next, hact, -, rfl⟩ := hvacSections.toRules.step_act hs
    by_cases ht : Thread.channel = t
    · subst ht
      rw [h.channel] at hact
      cases hact
    · simpa only [Function.update_of_ne ht] using h.channel

theorem Calm.others (h : Calm p) (hm : m.thread ≠ .connector) (hs : hvacSections.step p m = some p') :
    Beside p.shared p'.shared := by
  cases m with
  | start t task =>
    obtain ⟨c, -, -, rfl⟩ := hvacSections.toRules.step_start hs
    exact .refl _
  | step t =>
    obtain ⟨l, upd, next, hact, -, rfl⟩ := hvacSections.toRules.step_act hs
    cases t with
    | channel =>
      rw [h.channel] at hact
      cases hact
    | connector => exact absurd rfl hm
    | handler n =>
      have hown := h.staffed n
      rw [hact] at hown
      exact (hown p.shared).1

-- ---------------------------------------------------------------------------
-- The loop
-- ---------------------------------------------------------------------------

/-- So many moves before the loop has looked at the connection. -/
inductive Nears : Nat → Py Unit → Prop
  | idle : Nears 3 (.ret ())
  | starts (ac temp : Int) : Nears 2 (runIteration ⟨.id ac, .id temp⟩)
  | looks (ac temp : Int) : Nears 1 (lookConnected ⟨.id ac, .id temp⟩)

structure Nearing (n : Nat) (p : Pool Thread Site HvacService) : Prop where
  down : p.shared.Down
  runs : p.shared.shutdown = false
  nears : Nears n (p.thread .connector)

def Counting : Nat → Pool Thread Site HvacService → Prop
  | 0, p => p.Keeping HvacService.Recovered
  | n + 1, p => (p.thread .connector).Counts besideHandlers HvacService.Down
    (fun _ => HvacService.Recovered) (n + 1) p.shared

theorem Counting.down (h : Counting (n + 1) p) : p.shared.Down := by
  simp only [Counting] at h
  cases hthread : p.thread .connector with
  | ret a =>
    rw [hthread] at h
    exact absurd h.1 (Nat.succ_ne_zero n)
  | act l upd next =>
    rw [hthread] at h
    obtain ⟨k, -, h⟩ := h
    exact (h p.shared (.refl _)).1

theorem Calm.keeping (h : Calm p) (hcounts : (p.thread .connector).Counts besideHandlers HvacService.Down
    (fun _ => HvacService.Recovered) 0 p.shared) : p.Keeping HvacService.Recovered := by
  cases hthread : p.thread .connector with
  | act l upd next =>
    rw [hthread] at hcounts
    obtain ⟨k, hk, -⟩ := hcounts
    exact absurd hk (Nat.succ_ne_zero k).symm
  | ret a =>
    rw [hthread] at hcounts
    have hrecovered := hcounts.2 p.shared (.refl _)
    refine ⟨hrecovered, fun t => ?_⟩
    cases t with
    | channel =>
      rw [h.channel]
      exact fun _ hr => hr hrecovered
    | connector =>
      rw [hthread]
      exact fun _ hr => hr hrecovered
    | handler n => exact (h.staffed n).within (fun _ _ hb hs => hb.recovered hs) _ hrecovered

def Finds (p : Pool Thread Site HvacService) (m : Move Thread Task) : Prop :=
  m = .step .connector ∧ (p.thread .connector).site? = some .connectedTest ∧ p.shared.connected = true

instance : Decidable (Finds p m) := inferInstanceAs (Decidable (_ ∧ _ ∧ _))

theorem Nears.ret (h : Nears n (.ret ())) : n = 3 := by
  generalize hprog : (Prog.ret () : Py Unit) = prog at h
  cases h with
  | idle => rfl
  | starts ac temp => cases congrArg Prog.site? hprog
  | looks ac temp => cases congrArg Prog.site? hprog

theorem Nearing.starts (h : Nearing n p) (hm : Works (.start .connector task) = true)
    (hs : hvacSections.step p (.start .connector task) = some p') : n = 3 ∧ Nearing 2 p' := by
  obtain ⟨c, hret, hc, rfl⟩ := hvacSections.toRules.step_start hs
  obtain ⟨ac, temp, rfl⟩ := works_connector (s := p.shared) hm hc
  have hnears := h.nears
  rw [hret] at hnears
  refine ⟨hnears.ret, h.down, h.runs, ?_⟩
  simp only [Function.update_self]
  exact .starts ac temp

theorem Nearing.steps (h : Nearing n p) (hs : hvacSections.step p (.step .connector) = some p') :
    if Finds p (.step .connector) then n = 1 ∧ Counting 8 p'
    else ∃ k, Nearing k p' ∧ (p.shared.connected = true → k < n) := by
  obtain ⟨hdown, hruns, hnears⟩ := h
  generalize hprog : p.thread .connector = prog at hnears
  cases hnears with
  | idle =>
    obtain ⟨l, upd, next, hact, -⟩ := hvacSections.toRules.step_act hs
    rw [hprog] at hact
    cases hact
  | starts ac temp =>
    obtain ⟨hshared, hthread⟩ := hvacSections.toRules.step_peek hprog hs
    rw [hruns] at hthread
    have hnot : ¬Finds p (.step .connector) := by
      rintro ⟨-, hsite, -⟩
      rw [hprog] at hsite
      cases hsite
    rw [if_neg hnot]
    refine ⟨1, ⟨hshared ▸ hdown, hshared ▸ hruns, ?_⟩, fun _ => Nat.one_lt_two⟩
    rw [hthread]
    exact .looks ac temp
  | looks ac temp =>
    obtain ⟨hshared, hthread⟩ := hvacSections.toRules.step_peek hprog hs
    cases hconnected : p.shared.connected with
    | true =>
      rw [hconnected] at hthread
      have hfinds : Finds p (.step .connector) := ⟨rfl, by rw [hprog]; rfl, hconnected⟩
      rw [if_pos hfinds]
      refine ⟨rfl, ?_⟩
      change (p'.thread .connector).Counts _ _ _ 8 p'.shared
      rw [hthread, hshared]
      exact lookRegistered_counts ac temp p.shared hdown
    | false =>
      rw [hconnected] at hthread
      have hnot : ¬Finds p (.step .connector) := fun h => absurd (hconnected ▸ h.2.2) Bool.false_ne_true
      rw [if_neg hnot]
      refine ⟨3, ⟨hshared ▸ hdown, hshared ▸ hruns, ?_⟩, fun h => absurd h Bool.false_ne_true⟩
      rw [hthread]
      exact .idle

theorem Counting.steps (hcalm : Calm p') (h : Counting (n + 1) p)
    (hs : hvacSections.step p (.step .connector) = some p') : Counting n p' := by
  obtain ⟨l, upd, next, hact, -, rfl⟩ := hvacSections.toRules.step_act hs
  simp only [Counting] at h
  rw [hact] at h
  obtain ⟨k, hk, hcounts⟩ := h
  obtain rfl := Nat.succ.inj hk
  have hnext := (hcounts p.shared (.refl _)).2
  rw [← Function.update_self Thread.connector (next p.shared) p.thread] at hnext
  cases n with
  | zero => exact hcalm.keeping hnext
  | succ n => exact hnext

/-- A later iteration finds the flag set. -/
theorem runIteration_recovered (outcomes : RegisterOutcomes) :
    Within (fun _ => True) HvacService.Recovered (runIteration outcomes) := by
  have hpeek : ∀ (l : Site) (f : HvacService → Bool),
      Within (fun _ => True) HvacService.Recovered (Prog.peek l f) :=
    fun l f => .atomic trivial fun _ hs => hs
  refine .bind (hpeek _ _) fun shutdown => ?_
  cases shutdown with
  | true => exact .pure ()
  | false =>
    refine .bind (hpeek _ _) fun connected => ?_
    cases connected with
    | false => exact .pure ()
    | true =>
      have hlook : Triple (.within (fun _ => True) HvacService.Recovered) HvacService.Recovered
          (Prog.peek (.registeredTest : Site) fun s => s.registered)
          fun registered s => registered = true ∧ s.Recovered :=
        .atomic trivial (fun _ _ h hr => hr h) (fun _ _ _ h hr => ⟨h.1, hr h.2⟩)
          fun s hs _ => ⟨fun h => h, hs.1, hs⟩
      refine hlook.bind fun registered => ?_
      rintro s ⟨rfl, hs⟩
      exact Within.pure () s hs

theorem keeping_step (h : p.Keeping HvacService.Recovered) (hm : Works m = true)
    (hs : hvacSections.step p m = some p') : p'.Keeping HvacService.Recovered := by
  refine h.step (fun t task c hmt hc => ?_) hs
  subst hmt
  obtain rfl := taskCode_some (s := p.shared) hc
  have hbeside : ∀ s t, Beside s t → s.Recovered → t.Recovered := fun _ _ hb hs => hb.recovered hs
  cases task with
  | notify c outcomes => cases hm
  | iterate outcomes => exact runIteration_recovered outcomes
  | setTemperature temperature outcome => exact (setDatapoint_void_beside _ _ _).within hbeside
  | setAcStatus status outcome => exact (setDatapoint_void_beside _ _ _).within hbeside

theorem Nearing.move (hcalm : Calm p) (h : Nearing n p) (hm : Works m = true)
    (hs : hvacSections.step p m = some p') :
    if Finds p m then m.thread = .connector ∧ n = 1 ∧ Counting 8 p'
    else ∃ k, Nearing k p' ∧
      (p.shared.connected = true → if m.thread = .connector then k < n else k = n) := by
  by_cases hown : m.thread = .connector
  · cases m with
    | start t task =>
      obtain rfl : t = .connector := hown
      obtain ⟨rfl, hstarted⟩ := h.starts hm hs
      have hnot : ¬Finds p (.start .connector task) := by
        rintro ⟨hmove, -⟩
        cases hmove
      rw [if_neg hnot]
      exact ⟨2, hstarted, fun _ => by simp [Move.thread]⟩
    | step t =>
      obtain rfl : t = .connector := hown
      simpa only [Move.thread, if_true, true_and] using h.steps hs
  · have hbeside := hcalm.others hown hs
    have hthread := hvacSections.toRules.step_thread hown hs
    have hnot : ¬Finds p m := by
      rintro ⟨rfl, -⟩
      exact hown rfl
    rw [if_neg hnot]
    refine ⟨n, ⟨hbeside.flag.trans h.down, hbeside.shutdown.trans h.runs, hthread.symm ▸ h.nears⟩, fun _ => ?_⟩
    rw [if_neg hown]

theorem Counting.move (hcalm : Calm p) (h : Counting n p) (hm : Works m = true)
    (hs : hvacSections.step p m = some p') :
    Counting (if m.thread = .connector then n - 1 else n) p' := by
  cases n with
  | zero =>
    rw [Nat.zero_sub, ite_self]
    exact keeping_step h hm hs
  | succ n =>
    by_cases hown : m.thread = .connector
    · rw [if_pos hown, Nat.add_sub_cancel]
      cases m with
      | start t task =>
        obtain rfl : t = .connector := hown
        obtain ⟨c, hret, -⟩ := hvacSections.toRules.step_start hs
        simp only [Counting] at h
        rw [hret] at h
        exact absurd h.1 (Nat.succ_ne_zero n)
      | step t =>
        obtain rfl : t = .connector := hown
        exact h.steps (hcalm.step hm hs) hs
    · rw [if_neg hown]
      have hthread := hvacSections.toRules.step_thread hown hs
      simp only [Counting] at h ⊢
      rw [hthread]
      exact h.stable (hcalm.others hown hs)

-- ---------------------------------------------------------------------------
-- Runs
-- ---------------------------------------------------------------------------

def ofLoop (moves : List (Move Thread Task)) : Nat := moves.countP (·.thread = .connector)

/-- The loop finds the connection once, at least eight of its moves before the
end. -/
def Looked (p : Pool Thread Site HvacService) : List (Move Thread Task) → Prop
  | [] => False
  | m :: moves => (Finds p m ∧ 8 ≤ ofLoop moves) ∨ ∃ q, hvacSections.step p m = some q ∧ Looked q moves

theorem Looked.long {moves : List (Move Thread Task)} (h : Looked p moves) : 8 ≤ ofLoop moves := by
  induction moves generalizing p with
  | nil => cases h
  | cons m moves ih =>
    have hle : ofLoop moves ≤ ofLoop (m :: moves) := by
      unfold ofLoop
      rw [List.countP_cons]
      exact Nat.le_add_right _ _
    rcases h with ⟨-, hlong⟩ | ⟨q, -, h⟩
    · exact Nat.le_trans hlong hle
    · exact Nat.le_trans (ih h) hle

variable {moves : List (Move Thread Task)}

theorem Counting.run (hcalm : Calm p) (h : Counting n p) (hworks : ∀ m ∈ moves, Works m = true)
    (hrun : run hvacSections.step p moves = some p') : Counting (n - ofLoop moves) p' := by
  induction moves generalizing p n with
  | nil =>
    obtain rfl := Option.some.inj hrun
    exact h
  | cons m moves ih =>
    obtain ⟨q, hs, hrest⟩ := Option.bind_eq_some_iff.mp hrun
    have hm := hworks m List.mem_cons_self
    have hrest := ih (hcalm.step hm hs) (h.move hcalm hm hs)
      (fun m' hm' => hworks m' (List.mem_cons_of_mem _ hm')) hrest
    convert hrest using 1
    simp only [ofLoop, List.countP_cons, decide_eq_true_eq]
    split <;> omega

theorem ofLoop_own (hown : m.thread = .connector) : ofLoop (m :: moves) = ofLoop moves + 1 := by
  simp [ofLoop, hown]

theorem ofLoop_other (hother : m.thread ≠ .connector) : ofLoop (m :: moves) = ofLoop moves := by
  simp [ofLoop, hother]

/-- The registration is done by the end exactly if the loop has looked in
time. -/
theorem Nearing.run (hcalm : Calm p) (h : Nearing n p) (hworks : ∀ m ∈ moves, Works m = true)
    (hrun : run hvacSections.step p moves = some p') :
    (Looked p moves ∧ p'.shared.Recovered) ∨ (¬Looked p moves ∧ p'.shared.Down) := by
  induction moves generalizing p n with
  | nil =>
    obtain rfl := Option.some.inj hrun
    exact .inr ⟨fun h => h, h.down⟩
  | cons m moves ih =>
    obtain ⟨q, hs, hrest⟩ := Option.bind_eq_some_iff.mp hrun
    have hm := hworks m List.mem_cons_self
    have hworks := fun m' hm' => hworks m' (List.mem_cons_of_mem _ hm')
    have hmove := h.move hcalm hm hs
    by_cases hfinds : Finds p m
    · rw [if_pos hfinds] at hmove
      obtain ⟨-, -, hcounting⟩ := hmove
      have hend := hcounting.run (hcalm.step hm hs) hworks hrest
      by_cases hlong : 8 ≤ ofLoop moves
      · rw [Nat.sub_eq_zero_of_le hlong] at hend
        exact .inl ⟨.inl ⟨hfinds, hlong⟩, hend.1⟩
      · obtain ⟨k, hk⟩ : ∃ k, 8 - ofLoop moves = k + 1 := ⟨7 - ofLoop moves, by omega⟩
        rw [hk] at hend
        refine .inr ⟨?_, hend.down⟩
        rintro (⟨-, h⟩ | ⟨q', -, h⟩)
        · exact hlong h
        · exact hlong h.long
    · rw [if_neg hfinds] at hmove
      obtain ⟨k, hnearing, -⟩ := hmove
      rcases ih (hcalm.step hm hs) hnearing hworks hrest with ⟨hlooked, hend⟩ | ⟨hnot, hend⟩
      · exact .inl ⟨.inr ⟨q, hs, hlooked⟩, hend⟩
      · refine .inr ⟨?_, hend⟩
        rintro (⟨h, -⟩ | ⟨q', hs', h⟩)
        · exact hfinds h
        · obtain rfl := Option.some.inj (hs.symm.trans hs')
          exact hnot h

theorem Nearing.looked (hcalm : Calm p) (h : Nearing n p) (hworks : ∀ m ∈ moves, Works m = true)
    (hflag : Throughout hvacSections.step (fun q => q.shared.connected = true) p moves)
    (hrun : Atomic.run hvacSections.step p moves = some p') (hlong : n + 8 ≤ ofLoop moves) :
    Looked p moves := by
  induction moves generalizing p n with
  | nil => exact absurd hlong (by simp [ofLoop])
  | cons m moves ih =>
    obtain ⟨q, hs, hrest⟩ := Option.bind_eq_some_iff.mp hrun
    have hm := hworks m List.mem_cons_self
    have hworks := fun m' hm' => hworks m' (List.mem_cons_of_mem _ hm')
    obtain ⟨hconnected, hflag⟩ := hflag
    simp only [hs] at hflag
    have hmove := h.move hcalm hm hs
    by_cases hfinds : Finds p m
    · rw [if_pos hfinds] at hmove
      obtain ⟨hown, rfl, -⟩ := hmove
      rw [ofLoop_own hown] at hlong
      exact .inl ⟨hfinds, by omega⟩
    · rw [if_neg hfinds] at hmove
      obtain ⟨k, hnearing, hk⟩ := hmove
      have hk := hk hconnected
      refine .inr ⟨q, hs, ih (hcalm.step hm hs) hnearing hworks hflag hrest ?_⟩
      by_cases hown : m.thread = .connector
      · rw [if_pos hown] at hk
        rw [ofLoop_own hown] at hlong
        omega
      · rw [if_neg hown] at hk
        rw [ofLoop_other hown] at hlong
        omega

theorem not_looked (hflag : Throughout hvacSections.step (fun q => q.shared.connected = false) p moves) :
    ¬Looked p moves := by
  induction moves generalizing p with
  | nil => exact fun h => h
  | cons m moves ih =>
    obtain ⟨hconnected, hflag⟩ := hflag
    rintro (⟨⟨-, -, hfound⟩, -⟩ | ⟨q, hs, h⟩)
    · rw [hconnected] at hfound
      cases hfound
    · simp only [hs] at hflag
      exact ih hflag h

theorem reached_calm {before : List (Move Thread Task)}
    (hbefore : run hvacSections.step (.idle .initial) before = some p)
    (hcallback : (p.thread .channel).site? = none) : Calm p ∧ p.shared.shutdown = false := by
  have hstaffed : Throughout hvacSections.step Staffed (.idle .initial) before :=
    throughout_of_keeps (fun _ _ _ h hs => h.step hs) fun _ => trivial
  have hcode : ∀ t task s c, .start t task ∈ before → hvacSections.code task t s = some c →
      Within (fun _ => True) (fun s => s.shutdown = false) c := by
    intro t task s c _ hc
    obtain rfl := taskCode_some (s := s) hc
    exact code_runs task
  have hruns := Pool.keeping_run hcode (Pool.keeping_idle (T := Thread) (L := Site) (s := HvacService.initial) rfl)
  exact ⟨⟨eq_ret hcallback, hstaffed.last hbefore⟩, (hruns.last hbefore).1⟩

/-- After a registration has failed or got lost, with no callback under way
and `_run` between two iterations: whatever the handlers do, the datapoints
are registered again, with current ids, exactly if the loop finds
`_connected` set in time. So while no update error changes the flag, they are
exactly if it is set. -/
theorem registers_again_iff {before : List (Move Thread Task)}
    (hbefore : run hvacSections.step (.idle .initial) before = some p)
    (hcallback : (p.thread .channel).site? = none) (hloop : (p.thread .connector).site? = none)
    (hlost : p.shared.registered = false) (hworks : ∀ m ∈ moves, Works m = true)
    (hrun : run hvacSections.step p moves = some p') :
    (p'.shared.registered = true ↔ Looked p moves) ∧ (p'.shared.registered = true → p'.shared.CurrentIds) ∧
      (Throughout hvacSections.step (fun q => q.shared.connected = p.shared.connected) p moves →
        11 ≤ ofLoop moves → (p'.shared.registered = true ↔ p.shared.connected = true)) := by
  obtain ⟨hcalm, hruns⟩ := reached_calm hbefore hcallback
  have hnearing : Nearing 3 p := ⟨hlost, hruns, eq_ret hloop ▸ .idle⟩
  have hend := hnearing.run hcalm hworks hrun
  have hiff : p'.shared.registered = true ↔ Looked p moves := by
    rcases hend with ⟨hlooked, hrecovered⟩ | ⟨hnot, hdown⟩
    · exact ⟨fun _ => hlooked, fun _ => hrecovered.1⟩
    · exact ⟨fun h => absurd (hdown.symm.trans h) Bool.false_ne_true, fun h => absurd h hnot⟩
  refine ⟨hiff, fun h => ?_, fun hflag hlong => hiff.trans ?_⟩
  · rcases hend with ⟨-, hrecovered⟩ | ⟨-, hdown⟩
    · exact hrecovered.2
    · exact absurd (hdown.symm.trans h) Bool.false_ne_true
  · cases hconnected : p.shared.connected with
    | true =>
      rw [hconnected] at hflag
      exact iff_of_true (hnearing.looked hcalm hworks hflag hrun hlong) rfl
    | false =>
      rw [hconnected] at hflag
      exact iff_of_false (not_looked hflag) Bool.false_ne_true

def lost : List (Move Thread Task) :=
  List.flatten [
    .start .channel (.notify .ready ⟨.id 1, .id 2⟩) :: steps .channel 10,
    .start .channel (.notify .transientFailure ⟨.exception, .exception⟩) :: steps .channel 3,
    .start .channel (.notify .ready ⟨.rpcError .unavailable, .exception⟩) :: steps .channel 5]

/-- A registration fails after a reconnect, and then an update takes too long. -/
def cleared : List (Move Thread Task) :=
  lost ++ .start (.handler 0) (.setTemperature 0 (.rpcError .deadlineExceeded)) :: steps (.handler 0) 3

theorem lost_runs : (run hvacSections.step (.idle .initial) lost).isSome = true := by decide

theorem cleared_runs : (run hvacSections.step (.idle .initial) cleared).isSome = true := by decide

def benchLost : Pool Thread Site HvacService := (run hvacSections.step (.idle .initial) lost).get lost_runs

def benchCleared : Pool Thread Site HvacService := (run hvacSections.step (.idle .initial) cleared).get cleared_runs

def registersAgain : List (Move Thread Task) := .start .connector (.iterate ⟨.id 3, .id 4⟩) :: steps .connector 10

def looksOnly : List (Move Thread Task) :=
  (List.replicate 4 (.start .connector (.iterate ⟨.id 3, .id 4⟩) :: steps .connector 2)).flatten

/-- With the connection up in both, the datapoints are registered again in the
first one only. -/
theorem registers_again_lost :
    (∃ p, run hvacSections.step benchLost registersAgain = some p ∧
      p.shared.registered = true ∧ p.shared.CurrentIds) ∧
    ∃ p, run hvacSections.step benchCleared looksOnly = some p ∧
      benchCleared.shared.notes.up = true ∧ p.shared.registered = false := by
  constructor
  · obtain ⟨p, hrun⟩ := Option.isSome_iff_exists.mp
      (by decide : (run hvacSections.step benchLost registersAgain).isSome = true)
    obtain ⟨-, hcurrent, hiff⟩ := registers_again_iff (Option.some_get lost_runs).symm (by decide) (by decide)
      (by decide) (by decide) hrun
    have hregistered := (hiff (by decide) (by decide)).mpr (by decide)
    exact ⟨p, hrun, hregistered, hcurrent hregistered⟩
  · obtain ⟨p, hrun⟩ := Option.isSome_iff_exists.mp
      (by decide : (run hvacSections.step benchCleared looksOnly).isSome = true)
    obtain ⟨-, -, hiff⟩ := registers_again_iff (Option.some_get cleared_runs).symm (by decide) (by decide)
      (by decide) (by decide) hrun
    have hnot := (hiff (by decide) (by decide)).not.mpr (by decide)
    exact ⟨p, hrun, by decide, Bool.eq_false_iff.mpr hnot⟩

end KuksaServices.Hvac
