import Mathlib.Data.List.Nodup
import Mathlib.Logic.Function.Basic

/-!
# Maps in insertion order

A finite map that keeps its keys in the order they came in. A key that is
there already is not inserted again, and removing one leaves the order of the
others. `OrderedMap` carries its own consistency; `Represents` says that a
list of pairs is such a map, and has a rule for every operation.
-/

namespace Atomic

structure OrderedMap (K V : Type) where
  keys : List K
  entry : K → Option V
  nodup : keys.Nodup
  mem_keys : ∀ k, k ∈ keys ↔ (entry k).isSome

namespace OrderedMap

variable {K V : Type}

def empty : OrderedMap K V := ⟨[], fun _ => none, List.nodup_nil, by simp⟩

variable [DecidableEq K]

def insertNew (k : K) (v : V) (m : OrderedMap K V) : OrderedMap K V :=
  if h : k ∈ m.keys then m
  else {
    keys := m.keys ++ [k]
    entry := Function.update m.entry k (some v)
    nodup := by
      refine List.nodup_append.mpr ⟨m.nodup, List.nodup_singleton k, ?_⟩
      rintro a ha b hb rfl
      exact h (List.mem_singleton.mp hb ▸ ha)
    mem_keys := by
      intro a
      by_cases hak : a = k
      · simp [hak]
      · simp [hak, m.mem_keys] }

def modify (k : K) (f : V → V) (m : OrderedMap K V) : OrderedMap K V where
  keys := m.keys
  entry := Function.update m.entry k ((m.entry k).map f)
  nodup := m.nodup
  mem_keys := by
    intro a
    by_cases hak : a = k
    · simp [hak, m.mem_keys]
    · simp [hak, m.mem_keys]

def erase (k : K) (m : OrderedMap K V) : OrderedMap K V where
  keys := m.keys.filter (· ≠ k)
  entry := Function.update m.entry k none
  nodup := m.nodup.filter _
  mem_keys := by
    intro a
    by_cases hak : a = k
    · simp [hak]
    · simp [hak, m.mem_keys]

end OrderedMap

-- ---------------------------------------------------------------------------
-- Lists of pairs
-- ---------------------------------------------------------------------------

section
variable {K V : Type} [DecidableEq K] {l : List (K × V)} {m : OrderedMap K V}

structure Represents (l : List (K × V)) (m : OrderedMap K V) : Prop where
  keys : l.map Prod.fst = m.keys
  entry : ∀ k, l.lookup k = m.entry k

theorem Represents.nil : Represents ([] : List (K × V)) .empty := ⟨rfl, fun _ => rfl⟩

theorem Represents.present (h : Represents l m) (hk : k ∈ l.map Prod.fst) (v : V) :
    Represents l (m.insertNew k v) := by
  have hsame : m.insertNew k v = m := dif_pos (h.keys ▸ hk)
  rw [hsame]
  exact h

theorem lookup_cons_ne (h : k ≠ a) (v : V) (l : List (K × V)) : ((a, v) :: l).lookup k = l.lookup k := by
  rw [List.lookup_cons, beq_false_of_ne h]

theorem lookup_append_singleton (l : List (K × V)) (k k' : K) (v : V) :
    (l ++ [(k, v)]).lookup k' = (l.lookup k').or (if k' = k then some v else none) := by
  rw [List.lookup_append]
  by_cases hk : k' = k
  · simp [hk]
  · rw [lookup_cons_ne hk, if_neg hk, List.lookup_nil]

theorem Represents.append (h : Represents l m) (hk : k ∉ l.map Prod.fst) (v : V) :
    Represents (l ++ [(k, v)]) (m.insertNew k v) := by
  have hnew : k ∉ m.keys := h.keys ▸ hk
  have hnone : m.entry k = none := by
    simpa [m.mem_keys] using hnew
  rw [OrderedMap.insertNew, dif_neg hnew]
  refine ⟨by simp [h.keys], fun k' => ?_⟩
  rw [lookup_append_singleton, h.entry]
  by_cases hk' : k' = k
  · simp [hk', hnone]
  · simp [hk']

def modifyPairs (k : K) (f : V → V) (l : List (K × V)) : List (K × V) :=
  l.map fun e => if e.1 = k then (e.1, f e.2) else e

theorem lookup_modifyPairs (k k' : K) (f : V → V) (l : List (K × V)) :
    (modifyPairs k f l).lookup k' = if k' = k then (l.lookup k').map f else l.lookup k' := by
  induction l with
  | nil => simp [modifyPairs]
  | cons e l ih =>
    obtain ⟨a, v⟩ := e
    simp only [modifyPairs, List.map_cons] at ih ⊢
    by_cases hk' : k' = a
    · subst hk'
      by_cases hk : k' = k
      · simp [hk]
      · simp [hk]
    · rw [lookup_cons_ne hk', ← ih]
      split
      · exact lookup_cons_ne hk' (f v) _
      · exact lookup_cons_ne hk' v _

theorem Represents.modify (h : Represents l m) (k : K) (f : V → V) :
    Represents (modifyPairs k f l) (m.modify k f) := by
  refine ⟨?_, fun k' => ?_⟩
  · rw [OrderedMap.modify, ← h.keys, modifyPairs, List.map_map]
    refine List.map_congr_left fun e _ => ?_
    simp only [Function.comp_apply]
    split <;> rfl
  · rw [lookup_modifyPairs, h.entry, OrderedMap.modify]
    by_cases hk' : k' = k
    · simp [hk']
    · simp [hk']

theorem lookup_filter_ne (k k' : K) (l : List (K × V)) :
    (l.filter (·.1 ≠ k)).lookup k' = if k' = k then none else l.lookup k' := by
  induction l with
  | nil => simp
  | cons e l ih =>
    obtain ⟨a, v⟩ := e
    by_cases hak : a = k
    · subst hak
      rw [List.filter_cons_of_neg (by simp), ih]
      by_cases hk' : k' = a
      · rw [if_pos hk', if_pos hk']
      · rw [if_neg hk', if_neg hk', lookup_cons_ne hk']
    · rw [List.filter_cons_of_pos (by simpa using hak)]
      by_cases hk' : k' = a
      · subst hk'
        simp [hak]
      · rw [lookup_cons_ne hk', lookup_cons_ne hk', ih]

theorem Represents.erase (h : Represents l m) (k : K) :
    Represents (l.filter (·.1 ≠ k)) (m.erase k) := by
  refine ⟨?_, fun k' => ?_⟩
  · change _ = m.keys.filter (· ≠ k)
    rw [← h.keys, List.filter_map]
    rfl
  · rw [lookup_filter_ne, h.entry, OrderedMap.erase]
    by_cases hk' : k' = k
    · simp [hk']
    · simp [hk']

end

end Atomic
