import Mathlib.Data.List.AList

/-!
# Maps

Finite maps as association lists with distinct keys: lookups in a union,
which keeps what its left side has, and in maps built by inserting the
entries of another one.
-/

namespace Atomic

abbrev Dict (K V : Type) := AList fun _ : K => V

variable {K K' V V' : Type} [DecidableEq K] [DecidableEq K']

theorem Dict.lookup_union (m m' : Dict K V) (k : K) :
    (m ∪ m').lookup k = (m.lookup k).or (m'.lookup k) := by
  by_cases h : k ∈ m
  · obtain ⟨v, hv⟩ := Option.isSome_iff_exists.mp (AList.lookup_isSome.mpr h)
    rw [AList.lookup_union_left h, hv]
    rfl
  · rw [AList.lookup_union_right h, AList.lookup_eq_none.mpr h]
    rfl

theorem Dict.lookup_singleton (a k : K) (v : V) :
    AList.lookup k (AList.singleton a v : Dict K V) = if k = a then some v else none := by
  rw [← AList.insert_empty]
  split
  · rename_i h
    rw [h]
    exact AList.lookup_insert _
  · rename_i h
    exact (AList.lookup_insert_ne h).trans (AList.lookup_empty k)

theorem Dict.lookup_foldl_insert {g : K → Option K'} {f : V → V'} (ha : g a = some k)
    (hinj : ∀ b, g b = some k → b = a) {l : List (Σ _ : K, V)} (hl : l.NodupKeys)
    (m : Dict K' V') :
    AList.lookup k (l.foldl (fun m e => (g e.1).elim m fun k => m.insert k (f e.2)) m) =
      ((l.dlookup a).map f).or (AList.lookup k m) := by
  induction l generalizing m with
  | nil => simp
  | cons e l ih =>
    obtain ⟨b, v⟩ := e
    obtain ⟨hb, hl⟩ := List.nodupKeys_cons.mp hl
    rw [List.foldl_cons, ih hl]
    by_cases hba : b = a
    · subst hba
      have hnone : l.dlookup b = none := List.dlookup_eq_none.mpr hb
      simp [ha, hnone]
    · rw [List.dlookup_cons_ne _ _ (Ne.symm hba)]
      cases hg : g b with
      | none => rfl
      | some k' =>
        have hk : k ≠ k' := by
          rintro rfl
          exact hba (hinj b hg)
        simp [AList.lookup_insert_ne hk]

omit [DecidableEq K] in
theorem Dict.mem_of_lookup_foldl_insert {g : K → Option K'} {l : List (Σ _ : K, V)} {m : Dict K' V}
    (h : AList.lookup k (l.foldl (fun m e => (g e.1).elim m fun k => m.insert k e.2) m) = some v) :
    AList.lookup k m = some v ∨ ∃ e ∈ l, e.2 = v := by
  induction l generalizing m with
  | nil => exact .inl h
  | cons e l ih =>
    rw [List.foldl_cons] at h
    rcases ih h with h | ⟨e', he', rfl⟩
    · cases hg : g e.1 with
      | none => exact .inl (by simpa [hg] using h)
      | some k' =>
        by_cases hk : k = k'
        · subst hk
          simp only [hg, Option.elim_some, AList.lookup_insert, Option.some.injEq] at h
          exact .inr ⟨e, List.mem_cons_self, h⟩
        · simp only [hg, Option.elim_some, AList.lookup_insert_ne hk] at h
          exact .inl h
    · exact .inr ⟨e', List.mem_cons_of_mem _ he', rfl⟩

end Atomic
