import KuksaServices.Seat.Outcomes
import KuksaServices.Seat.Threads

/-!
# The life of the CTL thread

Calls that open and close the context join the pool. A call is inside from
the moment it begins to change the socket, the thread or the flag `running`
until it returns. Runs in which these calls do not overlap, `seatctrl_close`
finds the thread started, and `read` fails for good only once `running` is
cleared keep the thread supervised: without it `running` is false and no
movement is sent (`supervised_operation`). A fatal `read` error leaves the
flag set.
-/

namespace KuksaServices.Seat

open Atomic
open Atomic.Prog (void Triple Stable)

inductive LifeTask where
  | request (task : Task)
  | openCall (calls : OpenCalls)
  | closeCall (calls : CloseCalls)
  deriving DecidableEq, Repr

def lifeCode (plat : Platform) : LifeTask → Thread → World → Option (Ctl Unit)
  | .request task, t, w => taskCode plat task t w
  | .openCall calls, .caller _, _ => some (void (seatctrlOpen calls))
  | .closeCall calls, .caller n, _ => some (void (seatctrlClose (.caller n) calls))
  | _, .ctl, _ => none

def Site.lifecycle : Site → Bool
  | .socket | .bind | .create | .stopRunning | .closeWait | .closeSocket | .joinTest | .join
  | .joined => true
  | _ => false

/-- `seatctrl_close` clears `running` after the created thread has set it,
and a `read` error that ends the thread comes after that. -/
def Site.proper (l : Site) (w : World) : Prop :=
  (l = .stopRunning → w.ctl ≠ .created) ∧ (l = .readFailed → w.ctx.running = false)

instance (l : Site) (w : World) : Decidable (l.proper w) := inferInstanceAs (Decidable (_ ∧ _))

-- ---------------------------------------------------------------------------
-- The life of a thread
-- ---------------------------------------------------------------------------

/-- What opening and closing are about: the thread, its flag, and whether the
context has a socket and a thread id. -/
structure Life where
  ctl : ThreadStatus
  running : Bool
  socket : Bool
  threadId : Bool
  deriving DecidableEq, Repr

def World.life (w : World) : Life :=
  ⟨w.ctl, w.ctx.running, w.ctx.socket.isSome, w.ctx.threadId.isSome⟩

def ThreadStatus.ended : ThreadStatus → Bool
  | .absent | .exited => true
  | .created | .looping => false

namespace Life

structure Supervised (a : Life) : Prop where
  ended : a.ctl.ended = true → a.running = false
  created : a.ctl = .created → a.socket = true
  looping : a.ctl = .looping → a.running = true → a.socket = true

inductive Carries : Life → Life → Prop
  | stays : Carries a a
  | starts : Carries ⟨.created, r, s, i⟩ ⟨.looping, true, s, i⟩
  | exits : Carries ⟨.looping, false, s, i⟩ ⟨.exited, false, s, i⟩

theorem Carries.trans (h : Carries a b) (h' : Carries b c) : Carries a c := by
  cases h with
  | stays => exact h'
  | starts =>
    cases h'
    exact .starts
  | exits =>
    cases h'
    exact .exits

theorem Supervised.carries (h : Supervised a) (hc : Carries a b) : Supervised b := by
  cases hc with
  | stays => exact h
  | starts => exact ⟨nofun, nofun, fun _ _ => h.created rfl⟩
  | exits => exact ⟨fun _ => rfl, nofun, nofun⟩

/-- Between the calls. A failed open may leave a socket without a thread. -/
def Steady (a : Life) : Prop :=
  match a.ctl with
  | .absent | .exited => a.running = false ∧ a.threadId = false
  | .created => a.running = false ∧ a.socket = true ∧ a.threadId = true
  | .looping => a.running = true ∧ a.socket = true ∧ a.threadId = true

structure Opening (a : Life) : Prop where
  ended : a.ctl.ended = true
  running : a.running = false
  threadId : a.threadId = false

structure Closing (a : Life) : Prop where
  ctl : a.ctl ≠ .created
  running : a.running = false
  ended : a.threadId = false → a.ctl.ended = true

theorem Steady.supervised (h : Steady a) : Supervised a := by
  obtain ⟨ctl, running, socket, id⟩ := a
  cases ctl with
  | absent => exact ⟨fun _ => h.1, nofun, nofun⟩
  | created => exact ⟨nofun, fun _ => h.2.1, nofun⟩
  | looping => exact ⟨nofun, nofun, fun _ _ => h.2.1⟩
  | exited => exact ⟨fun _ => h.1, nofun, nofun⟩

theorem Steady.threadId (h : Steady a) (hended : a.ctl.ended = true) : a.threadId = false := by
  obtain ⟨ctl, running, socket, id⟩ := a
  cases ctl with
  | absent => exact h.2
  | exited => exact h.2
  | created => cases hended
  | looping => cases hended

theorem Steady.carries (h : Steady a) (hc : Carries a b) : Steady b := by
  cases hc with
  | stays => exact h
  | starts => exact ⟨rfl, h.2⟩
  | exits => cases h.1

theorem Steady.stopRunning (h : Steady a) (hstarted : a.ctl ≠ .created) :
    Closing { a with running := false } := by
  refine ⟨hstarted, rfl, fun hid => ?_⟩
  obtain ⟨ctl, running, socket, id⟩ := a
  cases ctl with
  | absent => rfl
  | exited => rfl
  | created => exact absurd rfl hstarted
  | looping => exact absurd (hid.symm.trans h.2.2) nofun

theorem Steady.opening (h : Steady a) (hid : a.threadId = false) : Opening a := by
  obtain ⟨ctl, running, socket, id⟩ := a
  cases ctl with
  | absent => exact ⟨rfl, h.1, hid⟩
  | exited => exact ⟨rfl, h.1, hid⟩
  | created => exact absurd (hid.symm.trans h.2.2) nofun
  | looping => exact absurd (hid.symm.trans h.2.2) nofun

theorem Opening.steady (h : Opening a) : Steady a := by
  obtain ⟨ctl, running, socket, id⟩ := a
  obtain ⟨hended, hrunning, hid⟩ := h
  cases ctl with
  | absent => exact ⟨hrunning, hid⟩
  | exited => exact ⟨hrunning, hid⟩
  | created => cases hended
  | looping => cases hended

theorem Opening.carries (h : Opening a) (hc : Carries a b) : Opening b := by
  cases hc with
  | stays => exact h
  | starts => cases h.ended
  | exits => cases h.ended

theorem Closing.supervised (h : Closing a) : Supervised a :=
  ⟨fun _ => h.running, fun hc => absurd hc h.ctl, fun _ hr => by rw [h.running] at hr; cases hr⟩

theorem Closing.carries (h : Closing a) (hc : Carries a b) : Closing b := by
  cases hc with
  | stays => exact h
  | starts => exact absurd rfl h.ctl
  | exits => exact ⟨nofun, rfl, fun _ => rfl⟩

structure Durable (A : Life → Prop) : Prop where
  supervised : ∀ a, A a → Supervised a
  carries : ∀ a b, A a → Carries a b → A b

theorem durable_steady : Durable Steady := ⟨fun _ h => h.supervised, fun _ _ h hc => h.carries hc⟩

theorem durable_closing : Durable Closing := ⟨fun _ h => h.supervised, fun _ _ h hc => h.carries hc⟩

theorem Carries.socket (h : Carries a b) : b.socket = a.socket := by cases h <;> rfl

theorem Carries.ended (h : Carries a b) (he : a.ctl.ended = true) : b.ctl.ended = true := by
  cases h with
  | stays => exact he
  | starts => cases he
  | exits => rfl

theorem durable_opening (socket : Bool) : Durable fun a => Opening a ∧ a.socket = socket :=
  ⟨fun _ h => h.1.steady.supervised, fun _ _ h hc => ⟨h.1.carries hc, hc.socket.trans h.2⟩⟩

theorem durable_joining (joins : Bool) :
    Durable fun a => Closing a ∧ (joins = false → a.ctl.ended = true) :=
  ⟨fun _ h => h.1.supervised, fun _ _ h hc => ⟨h.1.carries hc, fun hj => hc.ended (h.2 hj)⟩⟩

end Life

-- ---------------------------------------------------------------------------
-- Opening and closing as sections
-- ---------------------------------------------------------------------------

/-- Nothing is sent but at `write`, and there only on a socket. -/
def Mute (l : Site) (w w' : World) : Prop :=
  (l = .write → w.ctx.socket = none) → attempts w'.log = attempts w.log

def lifecycle : Discipline Site World where
  site l := l.lifecycle = true
  rely w w' := w.life.Supervised → w.life.Carries w'.life
  rely_refl _ _ := .stays
  rely_trans h h' hs := (h hs).trans (h' (hs.carries (h hs)))
  may l w w' := w'.life.Supervised ∧ Mute l w w'
  on l w := l.enabled w = true ∧ l.proper w

def lifeSections (plat : Platform) : Sections Thread Site World LifeTask where
  code := lifeCode plat
  enabled := Site.enabled
  opens l := l == .openTest || l.lifecycle
  inner := Site.lifecycle
  disc := lifecycle
  inv w := w.life.Steady
  out l w w' := (w.life.Supervised → w.life.Carries w'.life) ∧ Mute l w w'
  proper := Site.proper
  inv_stable _ _ h hr := h.carries (hr h.supervised)
  rely_of_out _ _ _ h := h.1
  inner_of_site _ h := h
  opens_of_inner l h := by simp [h]
  on_of_proper _ _ he hp := ⟨he, hp⟩

instance (plat : Platform) (l : Site) (w : World) : Decidable ((lifeSections plat).proper l w) :=
  inferInstanceAs (Decidable (l.proper w))

abbrev Lives (A : Life → Prop) (p : Ctl α) (B : α → Life → Prop) : Prop :=
  Triple lifecycle (fun w => A w.life) p fun a w => B a w.life

theorem Life.Durable.stable (h : Durable A) : Stable lifecycle fun w => A w.life :=
  fun _ _ ha hr => h.carries _ _ ha (hr (h.supervised _ ha))

theorem Lives.pure (h : Life.Durable A) : Lives A (pure a : Ctl α) fun _ => A :=
  Triple.pure (B := fun _ (w : World) => A w.life) h.stable

theorem Lives.bind {p : Ctl α} {f : α → Ctl β} (hp : Lives A p B)
    (hf : ∀ a, Lives (B a) (f a) C) : Lives A (p >>= f) C :=
  Triple.bind hp hf

theorem Lives.atomic {f : World → α × World} (hl : l.lifecycle = true) (ha : Life.Durable A)
    (hb : ∀ a, Life.Durable (B a)) (hlog : ∀ w, (f w).2.log = w.log)
    (h : ∀ w, A w.life → lifecycle.on l w → B (f w).1 (f w).2.life) :
    Lives A (Prog.atomic l f) B := by
  refine Triple.atomic hl ha.stable (fun a => (hb a).stable) fun w hw hon => ?_
  have hpost := h w hw hon
  refine ⟨⟨(hb _).supervised _ hpost, fun _ => ?_⟩, hpost⟩
  rw [hlog]

theorem openContext_lives (calls : OpenCalls) :
    Lives (fun a => a.Opening ∧ a.socket = false) (openContext calls) fun _ => Life.Steady := by
  have hsteady : ∀ a b, Lives (fun l => l.Opening ∧ l.socket = b) (pure a : Ctl Int) fun _ => Life.Steady :=
    fun a b => (Lives.pure (Life.durable_opening b)).conseq (fun _ h => h) fun _ _ h => h.1.steady
  unfold openContext
  refine .bind (B := fun _ a => a.Opening ∧ a.socket = calls.socket.isSome) ?_ fun _ => ?_
  · refine .atomic rfl (Life.durable_opening _) (fun _ => Life.durable_opening _) (fun _ => rfl) ?_
    exact fun w h _ => ⟨⟨h.1.ended, h.1.running, h.1.threadId⟩, rfl⟩
  split
  · exact hsteady _ _
  rename_i hs
  refine .bind (B := fun _ a => a.Opening ∧ a.socket = calls.socket.isSome) ?_ fun _ => ?_
  · exact .atomic rfl (Life.durable_opening _) (fun _ => Life.durable_opening _) (fun _ => rfl)
      fun w h _ => h
  split
  · exact hsteady _ _
  refine .bind (B := fun _ => Life.Steady) ?_ fun _ => ?_
  · refine .atomic rfl (Life.durable_opening _) (fun _ => Life.durable_steady) (fun _ => rfl) ?_
    rintro w ⟨h, hsocket⟩ -
    cases hc : calls.pthreadCreate with
    | none => exact Life.Opening.steady ⟨h.ended, h.running, rfl⟩
    | some id => exact ⟨h.running, hsocket.trans (Option.isSome_iff_ne_none.mpr (by simpa using hs)), rfl⟩
  · split <;> exact Lives.pure Life.durable_steady

theorem joinThread_lives (n : Nat) (hcalls : calls.pthreadJoin = true) :
    Lives Life.Closing (joinThread (.caller n) calls) fun _ a => a.Closing ∧ a.ctl.ended = true := by
  have hleft : Life.Durable fun a => a.Closing ∧ a.ctl.ended = true :=
    ⟨fun _ h => h.1.supervised, fun _ _ h hc => ⟨h.1.carries hc, hc.ended h.2⟩⟩
  unfold joinThread
  refine .bind (B := fun joins a => a.Closing ∧ (joins = false → a.ctl.ended = true)) ?_ fun joins => ?_
  · refine .atomic rfl Life.durable_closing Life.durable_joining (fun _ => rfl) ?_
    refine fun w h _ => ⟨h, fun hj => h.ended ?_⟩
    simpa [World.life] using hj
  cases joins with
  | true =>
    simp only [hcalls, Bool.and_self, if_true]
    refine .bind (B := fun _ a => a.Closing ∧ a.ctl.ended = true) ?_ fun _ => Lives.pure hleft
    refine .atomic rfl (Life.durable_joining true) (fun _ => hleft) (fun _ => rfl) ?_
    rintro w ⟨h, -⟩ ⟨hexited, -⟩
    refine ⟨h, ?_⟩
    have hexited : w.ctl = .exited := of_decide_eq_true hexited
    simp [World.life, hexited, ThreadStatus.ended]
  | false =>
    exact (Lives.pure hleft).conseq (fun _ h => ⟨h.1, h.2 rfl⟩) fun _ _ h => h

theorem closeContext_lives (n : Nat) (hcalls : calls.pthreadJoin = true) :
    Lives Life.Steady (closeContext (.caller n) calls) fun _ => Life.Steady := by
  unfold closeContext
  refine .bind (B := fun _ => Life.Closing) ?_ fun _ => ?_
  · refine .atomic rfl Life.durable_steady (fun _ => Life.durable_closing) (fun _ => rfl) ?_
    exact fun w h hon => h.stopRunning (hon.2.1 rfl)
  refine .bind (B := fun _ => Life.Closing) ?_ fun _ => ?_
  · exact .atomic rfl Life.durable_closing (fun _ => Life.durable_closing) (fun _ => rfl)
      fun w h _ => h
  refine .bind (B := fun _ => Life.Closing) ?_ fun closed => ?_
  · exact .atomic rfl Life.durable_closing (fun _ => Life.durable_closing) (fun _ => rfl)
      fun w h _ => ⟨h.ctl, h.running, h.ended⟩
  refine .bind (joinThread_lives n hcalls) fun joins => ?_
  refine .bind (B := fun _ => Life.Steady) ?_ fun _ => Lives.pure Life.durable_steady
  refine .atomic rfl ⟨fun _ h => h.1.supervised, fun _ _ h hc => ⟨h.1.carries hc, hc.ended h.2⟩⟩
    (fun _ => Life.durable_steady) (fun _ => rfl) ?_
  exact fun w h _ => Life.Opening.steady ⟨h.2, h.1.running, rfl⟩

-- ---------------------------------------------------------------------------
-- The code outside the sections
-- ---------------------------------------------------------------------------

section
variable {plat : Platform} {me : Thread}

theorem Lives.void {p : Ctl α} (h : Lives A p fun _ => Life.Steady) :
    Lives A (void p) fun _ => Life.Steady :=
  .bind h fun _ => .pure Life.durable_steady

theorem openRefused_none {w : World} (h : openRefused w.ctx = none) :
    w.life.socket = false ∧ w.life.threadId = false := by
  unfold openRefused at h
  split_ifs at h with hmagic hsocket hid
  simp only [not_or, Bool.not_eq_true] at hsocket hid
  exact ⟨hsocket, hid.2⟩

theorem open_outside (calls : OpenCalls) :
    (lifeSections plat).Outside (void (seatctrlOpen calls)) := by
  unfold seatctrlOpen
  rw [Prog.void_bind]
  refine .atomic (fun w _ hw h => ⟨⟨h.supervised, fun _ => rfl⟩, ?_⟩) fun w _ hw =>
    ⟨⟨fun _ => .stays, fun _ => rfl⟩, ?_⟩
  · cases hr : openRefused w.ctx with
    | some rc =>
      simp only [hr] at hw
      cases hw
    | none =>
      obtain ⟨hsocket, hid⟩ := openRefused_none hr
      simp only [hr]
      exact Lives.void (openContext_lives calls) w ⟨h.opening hid, hsocket⟩
  · cases hr : openRefused w.ctx with
    | some rc =>
      simp only [hr]
      trivial
    | none =>
      simp only [hr] at hw
      cases hw

theorem close_outside (n : Nat) (hcalls : calls.pthreadJoin = true) :
    (lifeSections plat).Outside (void (seatctrlClose (.caller n) calls)) := by
  unfold seatctrlClose
  rw [Prog.void_bind]
  refine .bind (.atomic rfl fun w _ => ⟨fun _ => .stays, fun _ => rfl⟩) fun magic => ?_
  split
  · trivial
  · exact Sections.Outside.ofTriple (X := lifeSections plat)
      (Lives.void (closeContext_lives n hcalls)) fun _ => rfl

theorem quiet_atomic {f : World → α × World} (hl : (lifeSections plat).opens l = false)
    (hlife : ∀ w, (f w).2.life = w.life) (hmute : ∀ w, Mute l w (f w).2) :
    (lifeSections plat).Quiet (Prog.atomic l f) := by
  refine .atomic hl fun w _ => ⟨fun _ => ?_, hmute w⟩
  rw [hlife]
  exact .stays

theorem quiet_peek {f : World → α} (hl : (lifeSections plat).opens l = false) :
    (lifeSections plat).Quiet (Prog.peek l f) :=
  quiet_atomic hl (fun _ => rfl) fun _ _ => rfl

theorem life_congr {w w' : World} (hctx : w'.ctx = w.ctx) (hctl : w'.ctl = w.ctl) :
    w'.life = w.life := by
  unfold World.life
  rw [hctx, hctl]

theorem sendCmd1_quiet : (lifeSections plat).Quiet (seatctrlSendCmd1 plat me dir rpm) := by
  refine quiet_atomic rfl (fun w => life_congr sendCmd1_ctx sendCmd1_ctl) fun w hw => ?_
  have hclosed : w.ctx.socket.isNone = true := by simp [hw rfl]
  simp [hclosed]

theorem setCommand_quiet {c : World → Command × World} (hlife : ∀ w, (c w).2.life = w.life)
    (hlog : ∀ w, (c w).2.log = w.log) : (lifeSections plat).Quiet (setCommand me c) := by
  refine quiet_atomic rfl hlife fun w _ => ?_
  exact (attempts_snoc_other _ rfl).trans (congrArg attempts (hlog w))

theorem stopMovement_quiet : (lifeSections plat).Quiet (seatctrlStopMovement plat me) := by
  refine .bind sendCmd1_quiet fun rc => ?_
  exact .bind (setCommand_quiet (fun _ => rfl) fun _ => rfl) fun _ => trivial

theorem decidePosition_quiet : (lifeSections plat).Quiet (decidePosition plat me desired) := by
  refine .bind (quiet_atomic rfl (fun _ => rfl) fun w _ => attempts_snoc_other _ rfl) fun pos => ?_
  split_ifs
  · refine .bind (quiet_peek rfl) fun movState => ?_
    split
    · exact .bind stopMovement_quiet fun _ => trivial
    · exact .bind (setCommand_quiet (fun _ => rfl) fun _ => rfl) fun _ => trivial
  · refine .bind (setCommand_quiet (fun _ => rfl) fun _ => rfl) fun _ => ?_
    exact .bind (quiet_peek rfl) fun rpm => sendCmd1_quiet

theorem setPosition_quiet : (lifeSections plat).Quiet (seatctrlSetPosition plat me desired) := by
  have hwaits : WaitsOutside (lifeSections plat) :=
    ⟨rfl, fun _ => rfl, fun _ _ => ⟨fun _ => .stays, fun _ => rfl⟩⟩
  refine .bind (quiet_peek rfl) fun magic => ?_
  split_ifs
  · trivial
  · trivial
  · refine .bind (positionKnown_quiet hwaits) fun known => ?_
    split
    · refine .bind stopMovement_quiet fun _ => ?_
      exact .bind (quiet_peek rfl) fun _ => decidePosition_quiet
    · trivial

-- ---------------------------------------------------------------------------
-- The CTL thread
-- ---------------------------------------------------------------------------

theorem pursueCommand_quiet (pursuit : Pursuit) :
    (lifeSections plat).Quiet (pursueCommand plat me pursuit) := by
  have hcheck : (lifeSections plat).Quiet (checkCommand plat me pursuit) := by
    refine .bind (quiet_atomic rfl (fun w => ?_) fun w _ => ?_) fun ending => ?_
    · unfold checkEnding cacheMotorState
      simp only
      split <;> split <;> rfl
    · have hlog := congrArg attempts (calm_cacheMotorState pursuit w).log
      unfold checkEnding
      simp only
      split
      · exact (attempts_snoc_other _ rfl).trans hlog
      · exact hlog
    · split
      · refine .bind stopMovement_quiet fun _ => ?_
        exact .bind (quiet_atomic rfl (fun _ => rfl) fun _ _ => rfl) fun _ => trivial
      · trivial
  have hresend : (lifeSections plat).Quiet (resendCommand plat me) := by
    refine .bind sendCmd1_quiet fun _ => ?_
    refine .bind (quiet_peek rfl) fun _ => ?_
    refine .bind (quiet_peek rfl) fun _ => ?_
    exact .bind sendCmd1_quiet fun _ => trivial
  unfold pursueCommand
  split
  · exact .bind hresend fun _ => hcheck
  · exact hcheck

theorem controlLoop_quiet : (lifeSections plat).Quiet (seatctrlControlLoop plat me) := by
  refine .bind (quiet_atomic rfl (fun w => ?_) fun w _ => ?_) fun pursuit => ?_
  · exact life_congr (pursue_spec plat w).1.ctx (pursue_spec plat w).1.ctl
  · rw [(pursue_spec plat w).1.log]
  · cases pursuit with
    | none => trivial
    | some pursuit => exact pursueCommand_quiet pursuit

theorem quiet_carries {f : World → α × World} (hl : (lifeSections plat).opens l = false)
    (hlog : ∀ w, (f w).2.log = w.log)
    (h : ∀ w, lifecycle.on l w → w.life.Supervised → w.life.Carries (f w).2.life) :
    (lifeSections plat).Quiet (Prog.atomic l f) :=
  .atomic hl fun w hon => ⟨h w hon, fun _ => congrArg attempts (hlog w)⟩

theorem carries_leaveLoop {w : World} (hctl : w.ctl = .looping) (hr : w.ctx.running = false) :
    w.life.Carries w.leaveLoop.life := by
  simp only [World.life, World.leaveLoop, hctl, hr]
  exact .exits

theorem threadStart_quiet : (lifeSections plat).Quiet threadStart := by
  refine quiet_carries rfl (fun _ => rfl) ?_
  rintro w ⟨hcreated, -⟩ -
  have hcreated : w.ctl = .created := of_decide_eq_true hcreated
  simp only [World.life, hcreated]
  exact .starts

theorem handleSecuStat_quiet (frame : CanFrame) :
    (lifeSections plat).Quiet (handleSecuStat plat frame) := by
  refine quiet_atomic rfl (fun w => ?_) fun w _ => ?_
  · cases acceptedStat plat frame with
    | none => rfl
    | some stat => simp [World.life, applyStat_ctx, applyStat_ctl]
  · cases acceptedStat plat frame with
    | none => rfl
    | some stat => rw [(calm_applyStat stat w).log]

theorem readTimeout_quiet : (lifeSections plat).Quiet (threadBody plat me (.error eagain)) := by
  refine quiet_carries rfl (fun w => ?_) ?_
  · simp only
    split <;> rfl
  · rintro w ⟨hlooping, -⟩ -
    simp only
    split
    · exact .stays
    · rename_i hr
      exact carries_leaveLoop (of_decide_eq_true hlooping) (Bool.eq_false_iff.mpr hr)

theorem readFailed_quiet (hagain : err ≠ eagain) (hintr : err ≠ eintr) :
    (lifeSections plat).Quiet (threadBody plat me (.error err)) := by
  simp only [threadBody, hagain, hintr, if_false]
  refine quiet_carries rfl (fun w => ?_) ?_
  · exact eventCb_log
  · rintro w ⟨hlooping, -, hstopped⟩ -
    have hlooping : w.ctl = .looping := of_decide_eq_true hlooping
    have hlife : (w.eventCb .canError err).life = w.life := life_congr eventCb_ctx eventCb_ctl
    rw [← hlife]
    exact carries_leaveLoop (eventCb_ctl.trans hlooping) ((congrArg _ eventCb_ctx).trans (hstopped rfl))

theorem threadBody_quiet (result : ReadResult) :
    (lifeSections plat).Quiet (threadBody plat me result) := by
  cases result with
  | error err =>
    by_cases hagain : err = eagain
    · subst hagain
      exact readTimeout_quiet
    · by_cases hintr : err = eintr
      · subst hintr
        trivial
      · exact readFailed_quiet hagain hintr
  | frame frame =>
    unfold threadBody
    simp only
    split
    · refine .bind (handleSecuStat_quiet frame) fun rc => ?_
      split
      · exact .bind controlLoop_quiet fun _ => trivial
      · trivial
    · trivial

theorem threadTurn_quiet (result : ReadResult) :
    (lifeSections plat).Quiet (threadTurn plat me result) := by
  refine .bind (quiet_carries rfl (fun w => ?_) ?_) fun go => ?_
  · simp only
    split <;> rfl
  · rintro w ⟨hlooping, -⟩ hsup
    simp only
    split
    · exact .stays
    · rename_i hstop
      have hlooping : w.ctl = .looping := of_decide_eq_true hlooping
      refine carries_leaveLoop hlooping (Bool.eq_false_iff.mpr fun hr => ?_)
      have hsocket : w.ctx.socket.isSome = true := hsup.looping hlooping hr
      simp [hr, hsocket] at hstop
  · split
    · exact threadBody_quiet result
    · trivial

def LifeTask.Joins : LifeTask → Prop
  | .closeCall calls => calls.pthreadJoin = true
  | _ => True

instance : DecidablePred LifeTask.Joins
  | .closeCall _ => inferInstanceAs (Decidable (_ = _))
  | .request _ | .openCall _ => inferInstanceAs (Decidable True)

theorem lifeCode_outside (hjoins : task.Joins) (h : lifeCode plat task t w = some c) :
    (lifeSections plat).Outside c := by
  cases task with
  | openCall calls =>
    cases t with
    | ctl => cases h
    | caller n =>
      obtain rfl := Option.some.inj h
      exact open_outside calls
  | closeCall calls =>
    cases t with
    | ctl => cases h
    | caller n =>
      obtain rfl := Option.some.inj h
      exact close_outside n hjoins
  | request task =>
    apply Sections.Quiet.outside
    exact taskCode_cases (fun _ _ => .bind setPosition_quiet fun _ => trivial)
      (fun _ => .bind stopMovement_quiet fun _ => trivial) threadStart_quiet threadTurn_quiet h

end

-- ---------------------------------------------------------------------------
-- Supervised operation
-- ---------------------------------------------------------------------------

/-- A request sends while nobody opens or closes, and not on a socket that a
failed open left without a thread. -/
def SendsSettled (p : Pool Thread Site World) : Move Thread LifeTask → Prop
  | .step (.caller n) => (p.thread (.caller n)).site? = some .write →
    p.inside = [] ∧ (p.shared.ctx.socket.isSome = true → p.shared.ctx.threadId.isSome = true)
  | _ => True

instance (p : Pool Thread Site World) : DecidablePred (SendsSettled p)
  | .step (.caller _) => inferInstanceAs (Decidable (_ → _))
  | .step .ctl | .start .. => inferInstanceAs (Decidable True)

/-- Without the thread the flag is clear and the position is not given out. -/
def NoStalePosition (p : Pool Thread Site World) : Prop :=
  p.shared.ctl.ended = true → p.shared.ctx.running = false ∧ seatctrlGetPosition p.shared.ctx < 0

def SendsSupervised (plat : Platform) (p : Pool Thread Site World) (m : Move Thread LifeTask) : Prop :=
  ∀ n p', m = .step (.caller n) → (lifeSections plat).step p m = some p' →
    p.shared.ctl.ended = true → attempts p'.shared.log = attempts p.shared.log

def LifeKept (plat : Platform) (p : Pool Thread Site World) : Prop :=
  (lifeSections plat).Ordered p ∧ p.shared.life.Supervised

section
variable {plat : Platform} {p p' : Pool Thread Site World} {m : Move Thread LifeTask}

theorem LifeKept.move (h : LifeKept plat p)
    (hm : (lifeSections plat).Orderly (fun _ task => task.Joins) p m)
    (hs : (lifeSections plat).step p m = some p') :
    (lifeSections plat).Effect p p' m ∧ LifeKept plat p' := by
  obtain ⟨hord, hsup⟩ := h
  obtain ⟨heffect, hord⟩ := hord.move (fun _ _ _ _ hj hc => lifeCode_outside hj hc) hm hs
  refine ⟨heffect, hord, ?_⟩
  cases m with
  | start t task =>
    have hshared : p'.shared = p.shared := heffect
    rwa [hshared]
  | step t =>
    obtain ⟨l, -, hout | hmay⟩ := heffect
    · exact hsup.carries (hout.1 hsup)
    · exact hmay.1

theorem LifeKept.noStalePosition (h : LifeKept plat p) : NoStalePosition p := by
  intro hended
  have hrunning := h.2.ended hended
  refine ⟨hrunning, ?_⟩
  have hrunning : p.shared.ctx.running = false := hrunning
  unfold seatctrlGetPosition
  split_ifs with hmagic
  · decide
  · decide
  · simp [hrunning] at *

theorem LifeKept.sendsSupervised (h : LifeKept plat p)
    (hm : (lifeSections plat).Orderly (fun _ task => task.Joins) p m) (hset : SendsSettled p m) :
    SendsSupervised plat p m := by
  rintro n p' rfl hs hended
  obtain ⟨⟨l, hsite, heffect⟩, -⟩ := h.move hm hs
  have hmute : Mute l p.shared p'.shared := by
    rcases heffect with hout | hmay
    · exact hout.2
    · exact hmay.2
  refine hmute ?_
  rintro rfl
  obtain ⟨hin, hsocket⟩ := hset hsite
  have hsteady : p.shared.life.Steady := ((Sections.ordered_nil hin).mp h.1).1
  have hid : p.shared.ctx.threadId.isSome = false := hsteady.threadId hended
  simpa [hid] using hsocket

end

/-- Whatever the interleaving of requests, the CTL thread and the calls that
open and close. -/
theorem supervised_operation (plat : Platform) (s : Session) (moves : List (Move Thread LifeTask))
    (hrun : Along (lifeSections plat).step (fun p m =>
      (lifeSections plat).Orderly (fun _ task => task.Joins) p m ∧ SendsSettled p m)
      (.idle (.boot s.statics s.context)) moves) :
    Throughout (lifeSections plat).step NoStalePosition (.idle (.boot s.statics s.context)) moves ∧
      Along (lifeSections plat).step (SendsSupervised plat) (.idle (.boot s.statics s.context))
        moves := by
  have hstart : LifeKept plat (.idle (.boot s.statics s.context)) := by
    rw [s.context_eq]
    have hsteady : Life.Steady ⟨.absent, false, false, false⟩ := ⟨rfl, rfl⟩
    exact ⟨Sections.ordered_idle hsteady, hsteady.supervised⟩
  have hmove : ∀ p m p', LifeKept plat p →
      ((lifeSections plat).Orderly (fun _ task => task.Joins) p m ∧ SendsSettled p m) →
      (lifeSections plat).step p m = some p' → LifeKept plat p' :=
    fun _ _ _ h hm hs => (h.move hm.1 hs).2
  constructor
  · exact (hrun.throughout hmove hstart).mono fun _ h => h.noStalePosition
  · exact hrun.along hmove (fun _ _ h hm => h.sendsSupervised hm.1 hm.2) hstart

-- ---------------------------------------------------------------------------
-- A read error
-- ---------------------------------------------------------------------------

def benchLife : List (Move Thread LifeTask) :=
  List.flatten [
    .start (.caller 0) (.openCall ⟨some 3, true, true, true, some 1⟩) :: steps (.caller 0) 4,
    .start .ctl (.request .start) :: steps .ctl 1,
    .start .ctl (.request (.turn (statFrame 20 .off))) :: steps .ctl 3]

def benchClosed : List (Move Thread LifeTask) :=
  List.flatten [
    benchLife,
    .start (.caller 1) (.request (.setPosition 50)) :: steps (.caller 1) 9,
    .start (.caller 0) (.closeCall ⟨true, true⟩) :: steps (.caller 0) 2,
    .start .ctl (.request (.turn (.error eagain))) :: steps .ctl 1,
    steps (.caller 0) 5,
    .start (.caller 1) (.request (.setPosition 10)) :: steps (.caller 1) 9]

theorem supervised_operation_bench :
    Along (lifeSections (.ticking 100 fun _ => none)).step (fun p m =>
      (lifeSections (.ticking 100 fun _ => none)).Orderly (fun _ task => task.Joins) p m ∧
        SendsSettled p m)
      (.idle (.boot Session.bench.statics Session.bench.context)) benchClosed ∧
    Throughout (lifeSections (.ticking 100 fun _ => none)).step NoStalePosition
      (.idle (.boot Session.bench.statics Session.bench.context)) benchClosed ∧
    Along (lifeSections (.ticking 100 fun _ => none)).step
      (SendsSupervised (.ticking 100 fun _ => none))
      (.idle (.boot Session.bench.statics Session.bench.context)) benchClosed :=
  ⟨by decide, supervised_operation _ _ _ (by decide)⟩

def benchFailed : List (Move Thread LifeTask) :=
  benchLife ++ .start .ctl (.request (.turn (.error 5))) :: steps .ctl 2

def benchLate : List (Move Thread LifeTask) :=
  .start (.caller 1) (.request (.setPosition 50)) :: steps (.caller 1) 9

/-- `read` has failed: the thread has left, the position is still given out, and
a request moves the motor. -/
theorem read_error_leaves_running :
    ∃ p p', run (lifeSections (.ticking 100 fun _ => none)).step
        (.idle (.boot Session.bench.statics Session.bench.context)) benchFailed = some p ∧
      p.shared.ctl = .exited ∧ p.shared.ctx.running = true ∧
      seatctrlGetPosition p.shared.ctx = 20 ∧ written p.shared.log = [] ∧ ¬NoStalePosition p ∧
      run (lifeSections (.ticking 100 fun _ => none)).step p benchLate = some p' ∧
      p'.shared.ctl = .exited ∧ lastCmd p'.shared.log = some MotorDirection.inc.code := by
  have hend : (run (lifeSections (.ticking 100 fun _ => none)).step
      (.idle (.boot Session.bench.statics Session.bench.context)) benchFailed).bind (fun p =>
        (run (lifeSections (.ticking 100 fun _ => none)).step p benchLate).map fun p' =>
          ((p.shared.ctl, p.shared.ctx.running, seatctrlGetPosition p.shared.ctx,
            written p.shared.log), p'.shared.ctl, lastCmd p'.shared.log)) =
      some ((.exited, true, 20, []), .exited, some MotorDirection.inc.code) := by
    decide
  obtain ⟨p, hrun, hend⟩ := Option.bind_eq_some_iff.mp hend
  obtain ⟨p', hrun', hend⟩ := Option.map_eq_some_iff.mp hend
  simp only [Prod.mk.injEq] at hend
  obtain ⟨⟨hctl, hrunning, hpos, hlog⟩, hctl', hlast⟩ := hend
  refine ⟨p, p', hrun, hctl, hrunning, hpos, hlog, fun h => ?_, hrun', hctl', hlast⟩
  have hstale := (h (by rw [hctl]; rfl)).1
  rw [hrunning] at hstale
  cases hstale

end KuksaServices.Seat
