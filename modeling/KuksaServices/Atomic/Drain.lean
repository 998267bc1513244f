import Mathlib.Data.List.Dedup

/-!
# A list that is emptied from its end

In every turn the last element of a list is taken, and what goes out is its
first occurrence. So an element that occurs several times is taken as many
times in a row, and the elements come by their last occurrences, the latest
first (`drain_eq`).
-/

namespace Atomic

variable {α : Type} [DecidableEq α] {a : α} {l : List α}

def drain : Nat → List α → List α
  | 0, _ => []
  | n + 1, l => match l.getLast? with
    | none => []
    | some a => a :: drain n (l.erase a)

def leftBehind : Nat → List α → List α
  | 0, l => l
  | n + 1, l => match l.getLast? with
    | none => l
    | some a => leftBehind n (l.erase a)

/-- Equal elements together, by their last occurrences from the end. -/
def latestFirst (l : List α) : List α := l.dedup.reverse.flatMap fun a => List.replicate (l.count a) a

theorem dedup_concat (l : List α) (a : α) : (l ++ [a]).dedup = l.dedup.erase a ++ [a] := by
  induction l with
  | nil => rfl
  | cons b l ih =>
    by_cases hb : b = a
    · subst hb
      rw [List.cons_append, List.dedup_cons_of_mem (by simp), ih]
      by_cases hmem : b ∈ l
      · rw [List.dedup_cons_of_mem hmem]
      · have hnot : b ∉ l.dedup := by rwa [List.mem_dedup]
        rw [List.dedup_cons_of_notMem hmem, List.erase_cons_head, List.erase_of_not_mem hnot]
    · by_cases hmem : b ∈ l
      · rw [List.cons_append, List.dedup_cons_of_mem (by simp [hmem]), List.dedup_cons_of_mem hmem, ih]
      · rw [List.cons_append, List.dedup_cons_of_notMem (by simp [hmem, hb]), List.dedup_cons_of_notMem hmem, ih,
          List.erase_cons_tail (by simpa using hb), List.cons_append]

theorem dedup_erase_erase (l : List α) (a : α) : (l.erase a).dedup.erase a = l.dedup.erase a := by
  induction l with
  | nil => rfl
  | cons b l ih =>
    by_cases hb : b = a
    · subst hb
      rw [List.erase_cons_head]
      by_cases hmem : b ∈ l
      · rw [List.dedup_cons_of_mem hmem]
      · have hnot : b ∉ l.dedup := by rwa [List.mem_dedup]
        rw [List.dedup_cons_of_notMem hmem, List.erase_cons_head, List.erase_of_not_mem hnot]
    · have hsame : b ∈ l.erase a ↔ b ∈ l := List.mem_erase_of_ne hb
      rw [List.erase_cons_tail (by simpa using hb)]
      by_cases hmem : b ∈ l
      · rw [List.dedup_cons_of_mem hmem, List.dedup_cons_of_mem (hsame.mpr hmem), ih]
      · rw [List.dedup_cons_of_notMem hmem, List.dedup_cons_of_notMem (hsame.not.mpr hmem),
          List.erase_cons_tail (by simpa using hb), List.erase_cons_tail (by simpa using hb), ih]

def others (a : α) (l : List α) : List α :=
  (l.dedup.erase a).reverse.flatMap fun b => List.replicate (l.count b) b

theorem others_erase (a : α) (l : List α) : others a (l.erase a) = others a l := by
  unfold others
  rw [dedup_erase_erase]
  refine List.flatMap_congr fun b hb => ?_
  have hne : b ≠ a := ((List.nodup_dedup l).mem_erase_iff.mp (List.mem_reverse.mp hb)).1
  rw [List.count_erase_of_ne hne]

theorem latestFirst_of_not_mem (h : a ∉ l) : latestFirst l = others a l := by
  have hnot : a ∉ l.dedup := by rwa [List.mem_dedup]
  rw [others, List.erase_of_not_mem hnot, latestFirst]

theorem latestFirst_of_last (h : l.getLast? = some a) :
    latestFirst l = List.replicate (l.count a) a ++ others a l := by
  obtain ⟨init, rfl⟩ := List.getLast?_eq_some_iff.mp h
  have hnot : a ∉ init.dedup.erase a := fun hmem => ((List.nodup_dedup init).mem_erase_iff.mp hmem).1 rfl
  simp [latestFirst, others, dedup_concat, List.erase_append_right _ hnot]

theorem latestFirst_turn (h : l.getLast? = some a) : latestFirst l = a :: latestFirst (l.erase a) := by
  obtain ⟨init, rfl⟩ := List.getLast?_eq_some_iff.mp h
  rw [latestFirst_of_last h, ← others_erase]
  by_cases hmem : a ∈ init
  · have hlast : ((init ++ [a]).erase a).getLast? = some a := by
      rw [List.erase_append_left _ hmem]
      simp
    rw [latestFirst_of_last hlast, List.count_erase_self, List.count_append, List.count_singleton_self,
      Nat.add_sub_cancel, List.replicate_succ, List.cons_append]
  · have hinit : (init ++ [a]).erase a = init := by
      rw [List.erase_append_right _ hmem]
      simp
    rw [hinit, latestFirst_of_not_mem hmem, List.count_append, List.count_eq_zero_of_not_mem hmem]
    simp

/-- Enough turns take everything. -/
theorem drain_eq {n : Nat} (h : l.length ≤ n) : drain n l = latestFirst l ∧ leftBehind n l = [] := by
  induction n generalizing l with
  | zero =>
    obtain rfl := List.length_eq_zero_iff.mp (Nat.le_zero.mp h)
    exact ⟨rfl, rfl⟩
  | succ n ih =>
    cases hlast : l.getLast? with
    | none =>
      obtain rfl := List.getLast?_eq_none_iff.mp hlast
      exact ⟨rfl, rfl⟩
    | some a =>
      have hshorter : (l.erase a).length ≤ n := by
        rw [List.length_erase_of_mem (List.mem_of_getLast? hlast)]
        omega
      obtain ⟨htaken, hleft⟩ := ih hshorter
      exact ⟨by simp [drain, hlast, htaken, latestFirst_turn hlast], by simp [leftBehind, hlast, hleft]⟩

/-- The element whose last occurrence comes first is taken last. -/
theorem latestFirst_getLast? (l : List α) : (latestFirst l).getLast? = l.dedup.head? := by
  cases hd : l.dedup with
  | nil => simp [latestFirst, hd]
  | cons a d =>
    have hmem : a ∈ l := List.mem_dedup.mp (by rw [hd]; exact List.mem_cons_self)
    have hpos := List.count_pos_iff.mpr hmem
    obtain ⟨k, hk⟩ : ∃ k, l.count a = k + 1 := ⟨l.count a - 1, by omega⟩
    simp [latestFirst, hd, hk, List.replicate_succ']

end Atomic
