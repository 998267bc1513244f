import KuksaServices.Atomic.Prog
import Mathlib.Logic.Function.Basic

/-!
# A pool of threads

Threads run programs on one shared state, action by action in any order. A
thread without a program starts a task. Some sites belong to a section: a
thread is inside once it has acted at a site that opens one and stands at an
inner site, until its program ends.

When no thread enters a section while another one is inside (`Orderly`), the
invariant of the sections holds whenever nobody is inside
(`Sections.ordered`).
-/

namespace Atomic

variable {T L σ ι : Type} [DecidableEq T]

structure Pool (T L σ : Type) where
  shared : σ
  thread : T → Prog L σ Unit
  inside : List T

inductive Move (T ι : Type) where
  | start (t : T) (task : ι)
  | step (t : T)
  deriving DecidableEq

def Move.thread : Move T ι → T
  | .start t _ => t
  | .step t => t

/-- The code of the tasks, when the action at a site can be taken, and the
sites of the sections. -/
structure Rules (T L σ ι : Type) where
  code : ι → T → σ → Option (Prog L σ Unit)
  enabled : L → σ → Bool
  opens : L → Bool
  inner : L → Bool

namespace Rules

variable (r : Rules T L σ ι)

/-- An action at `l` after which `p` is left is part of a section. -/
def within (l : L) (p : Prog L σ Unit) : Bool := r.opens l && p.site?.any r.inner

def step (p : Pool T L σ) : Move T ι → Option (Pool T L σ)
  | .start t task =>
    match p.thread t with
    | .ret _ => (r.code task t p.shared).map fun c =>
      { p with thread := Function.update p.thread t c }
    | .act .. => none
  | .step t =>
    match p.thread t with
    | .ret _ => none
    | .act l upd next =>
      if r.enabled l p.shared then some {
        shared := upd p.shared
        thread := Function.update p.thread t (next p.shared)
        inside := (if r.within l (next p.shared) then [t] else []) ++ p.inside.erase t }
      else none

theorem step_start (hs : r.step p (.start t task) = some p') :
    ∃ c, p.thread t = .ret () ∧ r.code task t p.shared = some c ∧
      p' = { p with thread := Function.update p.thread t c } := by
  unfold step at hs
  simp only at hs
  split at hs
  · rename_i hret
    obtain ⟨c, hc, rfl⟩ := Option.map_eq_some_iff.mp hs
    exact ⟨c, hret, hc, rfl⟩
  · cases hs

theorem step_act (hs : r.step p (.step t) = some p') :
    ∃ l upd next, p.thread t = .act l upd next ∧ r.enabled l p.shared = true ∧ p' = {
      shared := upd p.shared
      thread := Function.update p.thread t (next p.shared)
      inside := (if r.within l (next p.shared) then [t] else []) ++ p.inside.erase t } := by
  unfold step at hs
  simp only at hs
  split at hs
  · cases hs
  · rename_i l upd next hact
    split at hs
    · rename_i hon
      exact ⟨l, upd, next, hact, hon, (Option.some.inj hs).symm⟩
    · cases hs

theorem step_peek {f : σ → α} {g : α → Prog L σ Unit} (hlook : p.thread t = Prog.peek l f >>= g)
    (hs : r.step p (.step t) = some p') : p'.shared = p.shared ∧ p'.thread t = g (f p.shared) := by
  obtain ⟨_, _, _, hact, -, rfl⟩ := r.step_act hs
  rw [hlook] at hact
  obtain ⟨rfl, rfl, rfl⟩ := Prog.act.inj hact
  exact ⟨rfl, Function.update_self _ _ _⟩

theorem step_thread {m : Move T ι} (hm : m.thread ≠ t) (hs : r.step p m = some p') :
    p'.thread t = p.thread t := by
  cases m with
  | start u task =>
    obtain ⟨c, -, -, rfl⟩ := r.step_start hs
    exact Function.update_of_ne hm.symm _ _
  | step u =>
    obtain ⟨l, upd, next, -, -, rfl⟩ := r.step_act hs
    exact Function.update_of_ne hm.symm _ _

theorem run_thread {moves : List (Move T ι)} (hm : ∀ m ∈ moves, m.thread ≠ t)
    (hrun : run r.step p moves = some p') : p'.thread t = p.thread t := by
  induction moves generalizing p with
  | nil =>
    obtain rfl := Option.some.inj hrun
    rfl
  | cons m moves ih =>
    cases hs : r.step p m with
    | none => simp [run, hs] at hrun
    | some q =>
      rw [run_cons hs] at hrun
      rw [ih (fun m' h => hm m' (by simp [h])) hrun]
      exact r.step_thread (hm m (by simp)) hs

def enters (p : Pool T L σ) (t : T) : Bool :=
  match p.thread t with
  | .ret _ => false
  | .act l _ next => t ∉ p.inside && r.within l (next p.shared)

end Rules

def Pool.idle (s : σ) : Pool T L σ := ⟨s, fun _ => .ret (), []⟩

def Pool.Quiescent (p : Pool T L σ) : Prop := ∀ t, (p.thread t).site? = none

/-- Sections and what they are for. Outside them an action does `out`, which
the thread inside can live with; `proper` is what an orderly run asks of the
state before an action. -/
structure Sections (T L σ ι : Type) extends Rules T L σ ι where
  disc : Discipline L σ
  inv : σ → Prop
  out : L → σ → σ → Prop
  proper : L → σ → Prop
  inv_stable : Prog.Stable disc inv
  rely_of_out : ∀ l s t, out l s t → disc.rely s t
  inner_of_site : ∀ l, disc.site l → inner l = true
  opens_of_inner : ∀ l, inner l = true → opens l = true
  on_of_proper : ∀ l s, enabled l s = true → proper l s → disc.on l s

namespace Sections

variable (X : Sections T L σ ι)

/-- The program of a thread outside: it does what it may until it enters a
section, which then runs to the end. -/
def Outside : Prog L σ Unit → Prop
  | .ret _ => True
  | .act l upd next => ∀ s, X.disc.on l s →
    if X.within l (next s) then
      X.inv s → X.disc.may l s (upd s) ∧ (next s).Holds X.disc (fun _ => X.inv) (upd s)
    else X.out l s (upd s) ∧ Outside (next s)

/-- Only tasks of `ok` are started, actions are proper, and a section is
entered when nobody is inside. -/
def Orderly (ok : T → ι → Prop) (p : Pool T L σ) : Move T ι → Prop
  | .start t task => ok t task
  | .step t => (∀ l ∈ (p.thread t).site?, X.proper l p.shared) ∧ (X.enters p t = true → p.inside = [])

instance [∀ t task, Decidable (ok t task)] [∀ l s, Decidable (X.proper l s)] (p : Pool T L σ) :
    (m : Move T ι) → Decidable (X.Orderly ok p m)
  | .start t task => inferInstanceAs (Decidable (ok t task))
  | .step _ => inferInstanceAs (Decidable (_ ∧ _))

def Effect (p p' : Pool T L σ) : Move T ι → Prop
  | .start .. => p'.shared = p.shared
  | .step t => ∃ l ∈ (p.thread t).site?,
    X.out l p.shared p'.shared ∨ X.disc.may l p.shared p'.shared

def Ordered (p : Pool T L σ) : Prop :=
  match p.inside with
  | [] => X.inv p.shared ∧ ∀ t, X.Outside (p.thread t)
  | [t] => (p.thread t).Holds X.disc (fun _ => X.inv) p.shared ∧ (p.thread t).site?.isSome ∧
    ∀ u, u ≠ t → X.Outside (p.thread u)
  | _ => False

variable {X} {p p' : Pool T L σ} {ok : T → ι → Prop}

omit [DecidableEq T] in
theorem ordered_idle (h : X.inv s) : X.Ordered (.idle s) := ⟨h, fun _ => trivial⟩

omit [DecidableEq T] in
theorem ordered_nil (h : p.inside = []) :
    X.Ordered p ↔ X.inv p.shared ∧ ∀ t, X.Outside (p.thread t) := by
  unfold Ordered
  rw [h]

omit [DecidableEq T] in
theorem ordered_one (h : p.inside = [t]) : X.Ordered p ↔
    (p.thread t).Holds X.disc (fun _ => X.inv) p.shared ∧ (p.thread t).site?.isSome ∧
      ∀ u, u ≠ t → X.Outside (p.thread u) := by
  unfold Ordered
  rw [h]

omit [DecidableEq T] in
theorem Ordered.ofNil (hinv : X.inv s) (hall : ∀ t, X.Outside (thread t)) :
    X.Ordered ⟨s, thread, []⟩ := ⟨hinv, hall⟩

omit [DecidableEq T] in
theorem Ordered.ofOne (hholds : (thread t).Holds X.disc (fun _ => X.inv) s)
    (hsome : (thread t).site?.isSome) (hall : ∀ u, u ≠ t → X.Outside (thread u)) :
    X.Ordered ⟨s, thread, [t]⟩ := ⟨hholds, hsome, hall⟩

omit [DecidableEq T] in
theorem Ordered.cases (h : X.Ordered p) : p.inside = [] ∨ ∃ t, p.inside = [t] := by
  unfold Ordered at h
  split at h
  · rename_i hin
    exact .inl hin
  · rename_i t hin
    exact .inr ⟨t, hin⟩
  · exact h.elim

omit [DecidableEq T] in
theorem Ordered.inv_of_quiescent (h : X.Ordered p) (hq : p.Quiescent) : X.inv p.shared := by
  rcases h.cases with hin | ⟨t, hin⟩
  · exact ((ordered_nil hin).mp h).1
  · have hsome := ((ordered_one hin).mp h).2.1
    rw [hq t] at hsome
    cases hsome

omit [DecidableEq T] in
theorem Ordered.outside (h : X.Ordered p) (ht : t ∉ p.inside) : X.Outside (p.thread t) := by
  rcases h.cases with hin | ⟨u, hin⟩
  · exact ((ordered_nil hin).mp h).2 t
  · refine ((ordered_one hin).mp h).2.2 t ?_
    rintro rfl
    exact ht (by simp [hin])

theorem step_act (hs : X.step p (.step t) = some p') :
    ∃ l upd next, p.thread t = .act l upd next ∧ X.enabled l p.shared = true ∧ p' = {
      shared := upd p.shared
      thread := Function.update p.thread t (next p.shared)
      inside := (if X.within l (next p.shared) then [t] else []) ++ p.inside.erase t } :=
  X.toRules.step_act hs

theorem Ordered.goesOn (h : X.Ordered p) (ht : t ∉ p.inside) (hc : X.Outside c)
    (hrely : X.disc.rely p.shared s) :
    X.Ordered { shared := s, thread := Function.update p.thread t c, inside := p.inside } := by
  have hupd : ∀ u, X.Outside (p.thread u) → X.Outside (Function.update p.thread t c u) := by
    intro u hu
    by_cases hut : u = t
    · rw [hut, Function.update_self]
      exact hc
    · rw [Function.update_of_ne hut]
      exact hu
  rcases h.cases with hin | ⟨v, hin⟩
  · obtain ⟨hinv, hall⟩ := (ordered_nil hin).mp h
    rw [hin]
    exact .ofNil (X.inv_stable _ _ hinv hrely) fun u => hupd u (hall u)
  · obtain ⟨hholds, hsome, hall⟩ := (ordered_one hin).mp h
    have hne : v ≠ t := by
      rintro rfl
      exact ht (by simp [hin])
    rw [hin]
    refine .ofOne ?_ ?_ fun u hu => hupd u (hall u hu)
    · simpa only [Function.update_of_ne hne] using hholds.stable hrely
    · simpa only [Function.update_of_ne hne] using hsome

omit [DecidableEq T] in
theorem Ordered.not_inside (h : X.Ordered p) (hret : (p.thread t).site? = none) : t ∉ p.inside := by
  rcases h.cases with hin | ⟨u, hin⟩
  · simp [hin]
  · obtain ⟨-, hsome, -⟩ := (ordered_one hin).mp h
    rw [hin, List.mem_singleton]
    rintro rfl
    rw [hret] at hsome
    cases hsome

theorem Ordered.start (h : X.Ordered p)
    (hcode : ∀ s c, X.code task t s = some c → X.Outside c)
    (hs : X.step p (.start t task) = some p') : p'.shared = p.shared ∧ X.Ordered p' := by
  obtain ⟨c, hret, hc, rfl⟩ := X.toRules.step_start hs
  have ht : t ∉ p.inside := h.not_inside (by rw [hret]; rfl)
  exact ⟨rfl, h.goesOn ht (hcode _ c hc) (X.disc.rely_refl _)⟩

theorem Ordered.step_inside (h : X.Ordered p) (hin : p.inside = [t])
    (hact : p.thread t = .act l upd next) (hon : X.disc.on l p.shared) :
    X.disc.may l p.shared (upd p.shared) ∧ X.Ordered {
      shared := upd p.shared
      thread := Function.update p.thread t (next p.shared)
      inside := (if X.within l (next p.shared) then [t] else []) ++ p.inside.erase t } := by
  obtain ⟨hholds, -, hall⟩ := (ordered_one hin).mp h
  rw [hact] at hholds
  obtain ⟨hsite, hholds⟩ := hholds
  obtain ⟨hmay, hholds⟩ := hholds p.shared (X.disc.rely_refl _) hon
  refine ⟨hmay, ?_⟩
  have hother : ∀ u, u ≠ t → X.Outside (Function.update p.thread t (next p.shared) u) := by
    intro u hu
    rw [Function.update_of_ne hu]
    exact hall u hu
  have herase : p.inside.erase t = [] := by simp [hin]
  cases hnext : next p.shared with
  | ret a =>
    rw [hnext] at hholds
    simp only [Rules.within, Prog.site?, Option.any_none, Bool.and_false, Bool.false_eq_true,
      if_false, herase, List.append_nil]
    refine .ofNil (hholds _ (X.disc.rely_refl _)) fun u => ?_
    by_cases hu : u = t
    · subst hu
      simp only [Function.update_self]
      trivial
    · exact hnext ▸ hother u hu
  | act l' upd' next' =>
    rw [hnext] at hholds
    have hwithin : X.within l (.act l' upd' next') = true := by
      simp [Rules.within, Prog.site?, X.opens_of_inner l (X.inner_of_site l hsite),
        X.inner_of_site l' hholds.1]
    simp only [hwithin, if_true, herase, List.append_nil]
    refine .ofOne ?_ ?_ fun u hu => hnext ▸ hother u hu
    · simpa only [Function.update_self] using hholds
    · simp [Prog.site?]

theorem Ordered.step_outside (h : X.Ordered p) (ht : t ∉ p.inside) (hact : p.thread t = .act l upd next)
    (hon : X.disc.on l p.shared) (hw : X.within l (next p.shared) = false) :
    X.out l p.shared (upd p.shared) ∧ X.Ordered {
      shared := upd p.shared
      thread := Function.update p.thread t (next p.shared)
      inside := p.inside } := by
  have hout := h.outside ht
  rw [hact] at hout
  have hout := hout p.shared hon
  simp only [hw, Bool.false_eq_true, if_false] at hout
  obtain ⟨hout, hrest⟩ := hout
  exact ⟨hout, h.goesOn ht hrest (X.rely_of_out _ _ _ hout)⟩

theorem Ordered.step_enters (h : X.Ordered p) (hin : p.inside = [])
    (hact : p.thread t = .act l upd next) (hon : X.disc.on l p.shared)
    (hw : X.within l (next p.shared) = true) :
    X.disc.may l p.shared (upd p.shared) ∧ X.Ordered {
      shared := upd p.shared
      thread := Function.update p.thread t (next p.shared)
      inside := [t] } := by
  obtain ⟨hinv, hall⟩ := (ordered_nil hin).mp h
  have hout := hall t
  rw [hact] at hout
  have hout := hout p.shared hon
  simp only [hw, if_true] at hout
  obtain ⟨hmay, hholds⟩ := hout hinv
  refine ⟨hmay, .ofOne ?_ ?_ fun u hu => ?_⟩
  · simpa only [Function.update_self] using hholds
  · simp only [Rules.within, Bool.and_eq_true] at hw
    simp only [Function.update_self]
    exact Option.isSome_of_any hw.2
  · rw [Function.update_of_ne hu]
    exact hall u

theorem Ordered.move (h : X.Ordered p)
    (hcode : ∀ t task s c, ok t task → X.code task t s = some c → X.Outside c)
    (hm : X.Orderly ok p m) (hs : X.step p m = some p') : X.Effect p p' m ∧ X.Ordered p' := by
  cases m with
  | start t task => exact h.start (fun s c hc => hcode t task s c hm hc) hs
  | step t =>
    obtain ⟨l, upd, next, hact, henabled, rfl⟩ := step_act hs
    obtain ⟨hproper, henters⟩ := hm
    have hsite : (p.thread t).site? = some l := by simp [hact, Prog.site?]
    have hon := X.on_of_proper l _ henabled (hproper l hsite)
    by_cases ht : t ∈ p.inside
    · obtain hin | ⟨u, hin⟩ := h.cases
      · simp [hin] at ht
      · obtain rfl : t = u := by simpa [hin] using ht
        obtain ⟨hmay, hord⟩ := h.step_inside hin hact hon
        exact ⟨⟨l, hsite, .inr hmay⟩, hord⟩
    · rw [List.erase_of_not_mem ht]
      cases hw : X.within l (next p.shared) with
      | false =>
        simp only [Bool.false_eq_true, if_false, List.nil_append]
        obtain ⟨hout, hord⟩ := h.step_outside ht hact hon hw
        exact ⟨⟨l, hsite, .inl hout⟩, hord⟩
      | true =>
        have hin : p.inside = [] := henters (by simp [Rules.enters, hact, ht, hw])
        simp only [if_true, hin, List.append_nil]
        obtain ⟨hmay, hord⟩ := h.step_enters hin hact hon hw
        exact ⟨⟨l, hsite, .inr hmay⟩, hord⟩

theorem ordered (hcode : ∀ t task s c, ok t task → X.code task t s = some c → X.Outside c)
    (h : X.Ordered p) (hrun : Along X.step (X.Orderly ok) p moves) :
    Throughout X.step X.Ordered p moves :=
  hrun.throughout (fun _ _ _ h hm hs => (h.move hcode hm hs).2) h

-- ---------------------------------------------------------------------------
-- Programs outside
-- ---------------------------------------------------------------------------

variable (X) in
def Quiet : Prog L σ α → Prop
  | .ret _ => True
  | .act l upd next => X.opens l = false ∧ ∀ s, X.disc.on l s → X.out l s (upd s) ∧ Quiet (next s)

omit [DecidableEq T] in
theorem Quiet.bind {p : Prog L σ α} {f : α → Prog L σ β} (hp : X.Quiet p)
    (hf : ∀ a, X.Quiet (f a)) : X.Quiet (p >>= f) := by
  induction p with
  | ret a => exact hf a
  | act l upd next ih =>
    refine ⟨hp.1, fun s hon => ?_⟩
    obtain ⟨hout, hp⟩ := hp.2 s hon
    exact ⟨hout, ih s hp⟩

omit [DecidableEq T] in
theorem Quiet.atomic {f : σ → α × σ} (hl : X.opens l = false)
    (h : ∀ s, X.disc.on l s → X.out l s (f s).2) : X.Quiet (Prog.atomic l f) :=
  ⟨hl, fun s hon => ⟨h s hon, trivial⟩⟩

omit [DecidableEq T] in
theorem Quiet.outside {p : Prog L σ Unit} (hp : X.Quiet p) : X.Outside p := by
  induction p with
  | ret a => trivial
  | act l upd next ih =>
    intro s hon
    obtain ⟨hout, hnext⟩ := hp.2 s hon
    simp only [Rules.within, hp.1, Bool.false_and, Bool.false_eq_true, if_false]
    exact ⟨hout, ih s hnext⟩

omit [DecidableEq T] in
theorem Outside.bind {p : Prog L σ α} {f : α → Prog L σ Unit} (hp : X.Quiet p)
    (hf : ∀ a, X.Outside (f a)) : X.Outside (p >>= f) := by
  induction p with
  | ret a => exact hf a
  | act l upd next ih =>
    intro s hon
    obtain ⟨hout, hnext⟩ := hp.2 s hon
    simp only [Rules.within, hp.1, Bool.false_and, Bool.false_eq_true, if_false]
    exact ⟨hout, ih s hnext⟩

omit [DecidableEq T] in
theorem Outside.atomic {f : σ → α × σ} {g : α → Prog L σ Unit}
    (hin : ∀ s, X.disc.on l s → X.within l (g (f s).1) = true → X.inv s →
      X.disc.may l s (f s).2 ∧ (g (f s).1).Holds X.disc (fun _ => X.inv) (f s).2)
    (hout : ∀ s, X.disc.on l s → X.within l (g (f s).1) = false →
      X.out l s (f s).2 ∧ X.Outside (g (f s).1)) : X.Outside (Prog.atomic l f >>= g) := by
  intro s hon
  split
  · rename_i hw
    exact hin s hon hw
  · rename_i hw
    exact hout s hon (Bool.eq_false_iff.mpr hw)

omit [DecidableEq T] in
/-- A program that enters a section with its first action. -/
theorem Outside.ofTriple (hp : Prog.Triple X.disc X.inv (.act l upd next) fun _ => X.inv)
    (hw : ∀ s, X.within l (next s) = true) : X.Outside (.act l upd next) := by
  intro s hon
  simp only [hw, if_true]
  intro hinv
  exact (hp s hinv).2 s (X.disc.rely_refl s) hon

end Sections

end Atomic
