import KuksaServices.Atomic.Drain
import KuksaServices.Mock.Requests

/-!
# Requests that have piled up

The datapoint that takes what is requested of it, after any run. Once no
request of its path arrives any more, as many rounds as requests are pending
assign all of them. Equal ones come together, and the values in the order of
their last requests, the latest first; so the datapoint ends with the value
whose last request is the oldest (`requests_settle`).
-/

namespace KuksaServices.Mock

open Atomic (Raise drain leftBehind latestFirst)

def RoundInput.isRound : RoundInput → Bool
  | .round _ => true
  | _ => false

section
variable {script : Script} {p : Path} {r : Ref} {b : Behavior} {s : Service} {e? : Option Event}
  {result : Option Unit × Service} {inputs : List RoundInput}

theorem map_erase_of_mem {α β : Type} [DecidableEq α] [DecidableEq β] {f : α → β} {l : List α} {a : α} (ha : a ∈ l)
    (hinj : ∀ b ∈ l, f b = f a → b = a) : (l.erase a).map f = (l.map f).erase (f a) := by
  induction l with
  | nil => cases ha
  | cons b l ih =>
    by_cases hb : b = a
    · simp [hb]
    · have hne : f b ≠ f a := fun heq => hb (hinj b List.mem_cons_self heq)
      have hmem : a ∈ l := (List.mem_cons.mp ha).resolve_left (Ne.symm hb)
      rw [List.erase_cons_tail (by simpa using hb), List.map_cons, List.map_cons,
        List.erase_cons_tail (by simpa using hne), ih hmem fun c hc => hinj c (List.mem_cons_of_mem _ hc)]

theorem RoundTakes.turn (h : RoundTakes p r e? s result) (hreturns : result.1 = some ()) :
    assignedTo p result.2.log = assignedTo p s.log ++ (requests p s.pending).getLast?.toList ∧
      requests p result.2.pending =
        (requests p s.pending).getLast?.elim (requests p s.pending) (requests p s.pending).erase := by
  have hlast : e? = (requestEvents p s.pending).getLast? := by
    rcases h.last with hlast | ⟨-, hnone⟩
    · exact hlast
    · simp [hreturns] at hnone
  have hvalue : (requests p s.pending).getLast? = e?.map (·.value) := by rw [requests, List.getLast?_map, hlast]
  refine ⟨by rw [hvalue]; exact h.assigned, ?_⟩
  rw [hvalue, requests, h.events]
  cases e? with
  | none => rfl
  | some e =>
    have hmem : e ∈ requestEvents p s.pending := List.mem_of_getLast? hlast.symm
    exact map_erase_of_mem hmem fun e' he' heq => request_ext he' hmem heq

theorem Attended.goesOn {s t : Running} (h : Attended script p r b s.service)
    (hs : roundStep (execute script) s input = some t) : Attended script p r b t.service := by
  unfold roundStep at hs
  split at hs
  · cases hs
  · cases input with
    | round deltaTime =>
      simp only [Option.some.injEq] at hs
      subst hs
      obtain ⟨-, -, hattended⟩ := h.round deltaTime
      exact hattended
    | receive name path value =>
      simp only [Option.some.injEq] at hs
      subst hs
      exact h.received name path value
    | setExternally path value =>
      simp only [Option.some.injEq] at hs
      subst hs
      exact h.environment _ h.requested

theorem raised_of_run {s t : Running} (hraised : s.raised = true)
    (hrun : Atomic.run (roundStep (execute script)) s inputs = some t) : t.raised = true := by
  cases inputs with
  | nil =>
    obtain rfl := Option.some.inj hrun
    exact hraised
  | cons input inputs => simp [Atomic.run, roundStep, hraised] at hrun

theorem Attended.settles {s t : Running} {input : RoundInput} (h : Attended script p r b s.service)
    (hnone : input.request? p = none) (hs : roundStep (execute script) s input = some t) (hreturns : t.raised = false)
    (n : Nat) :
    assignedTo p t.service.log ++ drain n (requests p t.service.pending) =
        assignedTo p s.service.log ++ drain (n + [input].countP RoundInput.isRound) (requests p s.service.pending) ∧
      leftBehind n (requests p t.service.pending) =
        leftBehind (n + [input].countP RoundInput.isRound) (requests p s.service.pending) := by
  unfold roundStep at hs
  split at hs
  · cases hs
  · cases input with
    | round deltaTime =>
      simp only [Option.some.injEq] at hs
      subst hs
      obtain ⟨e?, htakes, -⟩ := h.round deltaTime
      obtain ⟨hassigned, hrequests⟩ := htakes.turn (congrArg Prod.fst (Raise.exec_returned hreturns))
      rw [hassigned, hrequests]
      cases hlast : (requests p s.service.pending).getLast? with
      | none =>
        have hnil := List.getLast?_eq_none_iff.mp hlast
        cases n <;> simp [drain, leftBehind, RoundInput.isRound, hnil]
      | some v => simp [drain, leftBehind, RoundInput.isRound, hlast]
    | receive name path value =>
      simp only [Option.some.injEq] at hs
      subst hs
      have hlog : (receive name path value s.service).log = s.service.log := by
        unfold receive
        split <;> rfl
      simp [receive_requests, hnone, hlog, RoundInput.isRound]
    | setExternally path value =>
      simp only [Option.some.injEq] at hs
      subst hs
      simp [setExternally, RoundInput.isRound]

theorem Attended.stays {s t : Running} (h : Attended script p r b s.service)
    (hrun : Atomic.run (roundStep (execute script)) s inputs = some t) : Attended script p r b t.service := by
  have hall : Atomic.Throughout (roundStep (execute script)) (fun s => Attended script p r b s.service) s inputs :=
    Atomic.throughout_of_keeps (fun _ _ _ h hs => h.goesOn hs) h
  exact hall.last hrun

theorem Attended.settled {s t : Running} (h : Attended script p r b s.service) (hnone : requestsOf p inputs = [])
    (hrun : Atomic.run (roundStep (execute script)) s inputs = some t) (hreturns : t.raised = false) :
    assignedTo p t.service.log =
        assignedTo p s.service.log ++ drain (inputs.countP RoundInput.isRound) (requests p s.service.pending) ∧
      requests p t.service.pending = leftBehind (inputs.countP RoundInput.isRound) (requests p s.service.pending) := by
  induction inputs generalizing s with
  | nil =>
    obtain rfl := Option.some.inj hrun
    simp [drain, leftBehind]
  | cons input inputs ih =>
    obtain ⟨u, hs, hrest⟩ := Option.bind_eq_some_iff.mp hrun
    have hfirst : input.request? p = none := by
      rw [← Option.not_isSome_iff_eq_none]
      intro hsome
      obtain ⟨v, hv⟩ := Option.isSome_iff_exists.mp hsome
      simp [requestsOf, hv] at hnone
    have hlater : requestsOf p inputs = [] := by
      rw [← hnone]
      simp [requestsOf, hfirst]
    have hreturned : u.raised = false := by
      rw [← Bool.not_eq_true]
      intro hraised
      rw [raised_of_run hraised hrest] at hreturns
      cases hreturns
    obtain ⟨hassigned, hrequests⟩ := ih (h.goesOn hs) hlater hrest
    obtain ⟨hassigned', hrequests'⟩ := h.settles hfirst hs hreturned (inputs.countP RoundInput.isRound)
    have hcount : (input :: inputs).countP RoundInput.isRound =
        inputs.countP RoundInput.isRound + [input].countP RoundInput.isRound := by
      rw [List.countP_cons, List.countP_singleton]
    rw [hcount]
    exact ⟨hassigned.trans hassigned', hrequests.trans hrequests'⟩

end

/-- After every run from a state without requests, in which nobody else takes
those of the path. -/
theorem requests_settle (script : Script) (p : Path) (r : Ref) (b : Behavior) (s u t : Running)
    (hrelay : Relay script p r b s.service) (hunrivalled : Unrivalled p b s.service)
    (hpending : requests p s.service.pending = []) (hlog : assignedTo p s.service.log = [])
    (arriving : List RoundInput) (harrived : Atomic.run (roundStep (execute script)) s arriving = some u)
    (inputs : List RoundInput) (hnone : requestsOf p inputs = [])
    (hrun : Atomic.run (roundStep (execute script)) u inputs = some t) (hreturns : t.raised = false)
    (hlong : (requests p u.service.pending).length ≤ inputs.countP RoundInput.isRound) :
    requests p t.service.pending = [] ∧
      assignedTo p t.service.log =
        assignedTo p u.service.log ++ latestFirst (requests p u.service.pending) ∧
      ∀ v, (requests p u.service.pending).dedup.head? = some v → (t.service.datapoints r).value = v := by
  have hempty : requestEvents p s.service.pending = [] := by simpa [requests] using hpending
  have hstart : Attended script p r b s.service := ⟨hrelay, hunrivalled, by simp [hempty], by simp [hlog]⟩
  have hattended := hstart.stays harrived
  obtain ⟨hassigned, hrequests⟩ := hattended.settled hnone hrun hreturns
  obtain ⟨htaken, hleft⟩ := Atomic.drain_eq hlong
  rw [htaken] at hassigned
  refine ⟨hrequests.trans hleft, hassigned, fun v hv => (hattended.stays hrun).current v ?_⟩
  rw [← Atomic.latestFirst_getLast?] at hv
  rw [hassigned, List.getLast?_append, hv]
  rfl

def benchPile : List RoundInput :=
  [.receive .actuatorTarget "Lamp" (.number 1), .receive .actuatorTarget "Lamp" (.number 2),
    .receive .actuatorTarget "Lamp" (.number 1), .receive .actuatorTarget "Lamp" (.number 3)]

theorem requests_settle_bench : ∃ u t,
    Atomic.run (roundStep (execute .bench)) ⟨.benchRelay, false⟩ benchPile = some u ∧
      Atomic.run (roundStep (execute .bench)) u (List.replicate 4 (.round 1)) = some t ∧
      assignedTo "Lamp" t.service.log = [.number 3, .number 1, .number 1, .number 2] ∧
      (t.service.datapoints 0).value = .number 2 := by
  refine ⟨_, _, rfl, rfl, ?_⟩
  obtain ⟨-, hassigned, hvalue⟩ := requests_settle .bench "Lamp" 0 ⟨0, 0, 0⟩ ⟨.benchRelay, false⟩ _ _ relay_bench
    unrivalled_bench rfl rfl benchPile rfl (List.replicate 4 (.round 1)) rfl rfl rfl (by decide)
  exact ⟨hassigned, hvalue _ rfl⟩

end KuksaServices.Mock
