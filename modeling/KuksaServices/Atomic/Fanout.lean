import Mathlib.Algebra.BigOperators.Group.List.Basic
import Mathlib.Algebra.Ring.Nat
import Mathlib.Data.List.Count

/-!
# Fan-out

Streams with a key and a queue each. An item is published to every stream
whose key it matches, and each stream delivers its items in order. Counted
over all streams, an item is in flight once for every stream it was published
to and has not been delivered by.
-/

namespace Atomic

variable {K A : Type}

structure Channel (K A : Type) where
  key : K
  queue : List A
  deriving DecidableEq, Repr

namespace Channel

def publish (isFor : K → Bool) (a : A) (streams : List (Channel K A)) : List (Channel K A) :=
  streams.map fun stream => if isFor stream.key then { stream with queue := stream.queue ++ [a] } else stream

def deliver (i : Nat) (streams : List (Channel K A)) : Option (K × A × List (Channel K A)) :=
  streams[i]?.bind fun stream => match stream.queue with
    | [] => none
    | a :: queue => some (stream.key, a, streams.set i ⟨stream.key, queue⟩)

def keys (streams : List (Channel K A)) : List K := streams.map (·.key)

theorem keys_publish (isFor : K → Bool) (a : A) (streams : List (Channel K A)) :
    keys (publish isFor a streams) = keys streams := by
  simp only [keys, publish, List.map_map, Function.comp_def]
  refine List.map_congr_left fun stream _ => ?_
  split <;> rfl

theorem deliver_some {streams streams' : List (Channel K A)}
    (h : deliver i streams = some (k, a, streams')) :
    ∃ before behind queue, streams = before ++ ⟨k, a :: queue⟩ :: behind ∧
      streams' = before ++ ⟨k, queue⟩ :: behind := by
  simp only [deliver, Option.bind_eq_some_iff] at h
  obtain ⟨⟨k', queue⟩, hstream, h⟩ := h
  obtain ⟨hi, hstream⟩ := List.getElem?_eq_some_iff.mp hstream
  cases queue with
  | nil => simp at h
  | cons a' queue =>
    simp only [Option.some.injEq, Prod.mk.injEq] at h
    obtain ⟨rfl, rfl, rfl⟩ := h
    refine ⟨streams.take i, streams.drop (i + 1), queue, ?_, ?_⟩
    · rw [← hstream, ← List.drop_eq_getElem_cons hi, List.take_append_drop]
    · simp [List.set_eq_take_append_cons_drop, hi]

theorem keys_deliver {streams streams' : List (Channel K A)}
    (h : deliver i streams = some (k, a, streams')) : keys streams' = keys streams := by
  obtain ⟨before, behind, queue, rfl, rfl⟩ := deliver_some h
  simp [keys]

/-- What holds of every item in flight and the key of its stream. -/
def Each (Q : K → A → Prop) (streams : List (Channel K A)) : Prop :=
  ∀ stream ∈ streams, ∀ a ∈ stream.queue, Q stream.key a

theorem Each.mono {Q Q' : K → A → Prop} {streams : List (Channel K A)} (hq : ∀ k a, Q k a → Q' k a)
    (h : Each Q streams) : Each Q' streams := fun stream hs a ha => hq _ _ (h stream hs a ha)

theorem Each.append {Q : K → A → Prop} {streams streams' : List (Channel K A)} (h : Each Q streams)
    (h' : Each Q streams') : Each Q (streams ++ streams') := by
  intro stream hs
  rcases List.mem_append.mp hs with hs | hs
  · exact h stream hs
  · exact h' stream hs

theorem Each.publish {Q : K → A → Prop} {isFor : K → Bool} {streams : List (Channel K A)}
    (h : Each Q streams) (ha : ∀ k, isFor k = true → Q k a) : Each Q (publish isFor a streams) := by
  intro stream hs b hb
  obtain ⟨old, hold, rfl⟩ := List.mem_map.mp hs
  by_cases hk : isFor old.key = true
  · simp only [hk, if_true, List.mem_append, List.mem_singleton] at hb ⊢
    rcases hb with hb | rfl
    · exact h old hold b hb
    · exact ha old.key hk
  · simp only [hk] at hb ⊢
    exact h old hold b hb

theorem Each.deliver {Q : K → A → Prop} {streams streams' : List (Channel K A)} (h : Each Q streams)
    (hd : deliver i streams = some (k, a, streams')) : Q k a ∧ Each Q streams' := by
  obtain ⟨before, behind, queue, rfl, rfl⟩ := deliver_some hd
  refine ⟨h ⟨k, a :: queue⟩ (by simp) a List.mem_cons_self, fun stream hs b hb => ?_⟩
  rcases List.mem_append.mp hs with hs | hs
  · exact h stream (List.mem_append_left _ hs) b hb
  · rcases List.mem_cons.mp hs with rfl | hs
    · exact h ⟨k, a :: queue⟩ (by simp) b (List.mem_cons_of_mem _ hb)
    · exact h stream (List.mem_append_right _ (List.mem_cons_of_mem _ hs)) b hb

variable [DecidableEq A]

def inFlight (a : A) (streams : List (Channel K A)) : Nat := (streams.map (·.queue.count a)).sum

theorem inFlight_append (a : A) (streams streams' : List (Channel K A)) :
    inFlight a (streams ++ streams') = inFlight a streams + inFlight a streams' := by
  simp [inFlight]

theorem inFlight_eq_zero {streams : List (Channel K A)} (h : Each (fun _ b => b ≠ a) streams) :
    inFlight a streams = 0 := by
  refine List.sum_eq_zero fun n hn => ?_
  obtain ⟨stream, hs, rfl⟩ := List.mem_map.mp hn
  refine List.count_eq_zero.mpr fun ha => ?_
  exact h stream hs a ha rfl

theorem inFlight_publish (isFor : K → Bool) (a b : A) (streams : List (Channel K A)) :
    inFlight b (publish isFor a streams) =
      inFlight b streams + if a = b then (keys streams).countP isFor else 0 := by
  induction streams with
  | nil => simp [inFlight, publish, keys]
  | cons stream streams ih =>
    simp only [inFlight, publish, keys, List.map_cons, List.sum_cons, List.countP_cons] at ih ⊢
    rw [ih]
    by_cases hk : isFor stream.key = true
    · by_cases hab : a = b
      · simp [hk, hab]
        omega
      · simp [hk, hab]
    · simp [hk]
      omega

theorem inFlight_deliver {streams streams' : List (Channel K A)}
    (h : deliver i streams = some (k, a, streams')) (b : A) :
    inFlight b streams = inFlight b streams' + if a = b then 1 else 0 := by
  obtain ⟨before, behind, queue, rfl, rfl⟩ := deliver_some h
  simp only [inFlight, List.map_append, List.map_cons, List.sum_append, List.sum_cons,
    List.count_cons, beq_iff_eq]
  omega

end Channel

end Atomic
