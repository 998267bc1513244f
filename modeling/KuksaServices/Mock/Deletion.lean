import Mathlib.Data.List.Nodup
import KuksaServices.Mock.Mirror

/-!
# Deleting a behavior

`delete_behavior_of_mocked_datapoint` goes through the behaviors of a path and
removes from them while it does, so it skips the one behind each that it
meets; what it removes is the first behavior that compares equal, whichever
it stands at. The comparison leaves out the interval of a clock and the type
of an event. It is said here exactly when the right behaviors go
(`deletes_alike_iff`).
-/

namespace KuksaServices.Mock

-- ---------------------------------------------------------------------------
-- A loop that removes from its list
-- ---------------------------------------------------------------------------

/-- How many elements the loop meets: every other one of those that stand next
to each other. -/
def met (p : α → Bool) : List α → Nat
  | [] => 0
  | [x] => if p x then 1 else 0
  | x :: y :: l => if p x then met p l + 1 else met p (y :: l)

def dropMatches (p : α → Bool) : Nat → List α → List α
  | 0, l => l
  | k + 1, l => dropMatches p k (l.eraseP p)

section
variable {p q : α → Bool} {l : List α}

theorem met_cons_of_pos (h : p x = true) : met p (x :: l) = met p l.tail + 1 := by
  cases l with
  | nil => simp [met, h]
  | cons y l => simp [met, h]

theorem met_cons_of_neg (h : p x = false) : met p (x :: l) = met p l := by
  cases l with
  | nil => simp [met, h]
  | cons y l => simp [met, h]

theorem drop_eraseP (hx : l[i]? = some x) (h : p x = true) (hij : i ≤ j) :
    (l.eraseP p).drop j = l.drop (j + 1) := by
  induction l generalizing i j with
  | nil => simp at hx
  | cons a l ih =>
    cases hp : p a with
    | true => rw [List.eraseP_cons_of_pos hp, List.drop_succ_cons]
    | false =>
      cases i with
      | zero =>
        obtain rfl : a = x := by simpa using hx
        rw [h] at hp
        cases hp
      | succ i =>
        obtain ⟨j, rfl⟩ : ∃ j', j = j' + 1 := ⟨j - 1, by omega⟩
        rw [List.eraseP_cons_of_neg (by simp [hp]), List.drop_succ_cons, List.drop_succ_cons]
        exact ih (by simpa using hx) (by omega)

theorem removeFrom_eq (hn : l.length ≤ n + i) :
    removeFrom p n i l = dropMatches p (met p (l.drop i)) l := by
  induction n generalizing i l with
  | zero =>
    have hdrop : l.drop i = [] := List.drop_eq_nil_of_le (by omega)
    rw [hdrop]
    rfl
  | succ n ih =>
    unfold removeFrom
    cases hx : l[i]? with
    | none =>
      have hdrop : l.drop i = [] := List.drop_eq_nil_of_le (by simpa using hx)
      rw [hdrop]
      rfl
    | some x =>
      obtain ⟨hi, hget⟩ := List.getElem?_eq_some_iff.mp hx
      have hdrop : l.drop i = x :: l.drop (i + 1) := by rw [← hget, List.drop_eq_getElem_cons hi]
      dsimp only
      cases hp : p x with
      | true =>
        have hlength : (l.eraseP p).length ≤ l.length := List.length_eraseP_le
        rw [if_pos rfl, ih (by omega), drop_eraseP hx hp (by omega), hdrop, met_cons_of_pos hp,
          List.tail_drop]
        rfl
      | false => rw [if_neg (by simp), ih (by omega), hdrop, met_cons_of_neg hp]

theorem removeInLoop_eq (p : α → Bool) (l : List α) : removeInLoop p l = dropMatches p (met p l) l := by
  rw [removeInLoop, removeFrom_eq (by simp), List.drop_zero]

theorem filter_eraseP (p : α → Bool) (l : List α) : (l.eraseP p).filter p = (l.filter p).tail := by
  induction l with
  | nil => rfl
  | cons a l ih =>
    cases hp : p a with
    | true => rw [List.eraseP_cons_of_pos hp, List.filter_cons_of_pos hp, List.tail_cons]
    | false =>
      rw [List.eraseP_cons_of_neg (by simp [hp]), List.filter_cons_of_neg (by simp [hp]),
        List.filter_cons_of_neg (by simp [hp]), ih]

theorem filter_dropMatches (p : α → Bool) (k : Nat) (l : List α) :
    (dropMatches p k l).filter p = (l.filter p).drop k := by
  induction k generalizing l with
  | zero => rfl
  | succ k ih => rw [dropMatches, ih, filter_eraseP, List.drop_tail]

theorem dropMatches_none (h : ∀ x ∈ l, p x = false) (k : Nat) : dropMatches p k l = l := by
  have herase : l.eraseP p = l := List.eraseP_of_forall_not fun x hx => by simp [h x hx]
  induction k with
  | zero => rfl
  | succ k ih => rw [dropMatches, herase, ih]

theorem met_eq_zero (h : met p l = 0) : ∀ x ∈ l, p x = false := by
  induction l with
  | nil => exact nofun
  | cons a l ih =>
    cases hp : p a with
    | true =>
      rw [met_cons_of_pos hp] at h
      cases h
    | false =>
      rw [met_cons_of_neg hp] at h
      exact List.forall_mem_cons.mpr ⟨hp, ih h⟩

theorem removeInLoop_eq_self_iff : removeInLoop p l = l ↔ ∀ x ∈ l, p x = false := by
  rw [removeInLoop_eq]
  constructor
  · intro h
    have hdrop : (l.filter p).drop (met p l) = l.filter p := by rw [← filter_dropMatches, h]
    have hlength := congrArg List.length hdrop
    rw [List.length_drop] at hlength
    by_cases hmet : met p l = 0
    · exact met_eq_zero hmet
    · have hnil : l.filter p = [] := List.length_eq_zero_iff.mp (by omega)
      simpa using hnil
  · exact fun h => dropMatches_none h _

theorem dropMatches_nil (p : α → Bool) (k : Nat) : dropMatches p k [] = [] := by
  induction k with
  | zero => rfl
  | succ k ih => exact ih

theorem dropMatches_cons_of_neg (h : p a = false) (k : Nat) (l : List α) :
    dropMatches p k (a :: l) = a :: dropMatches p k l := by
  induction k generalizing l with
  | zero => rfl
  | succ k ih => rw [dropMatches, List.eraseP_cons_of_neg (by simp [h]), ih, dropMatches]

/-- Among the elements that the loop takes for matches, the right ones come
first and are as many as it meets. -/
def RightMatches (p q : α → Bool) (k : Nat) (l : List α) : Prop :=
  (∀ x ∈ (l.filter p).take k, q x = true) ∧ ∀ x ∈ (l.filter p).drop k, q x = false

theorem RightMatches.dropMatches_eq (hqp : ∀ x, q x = true → p x = true) (h : RightMatches p q k l) :
    dropMatches p k l = l.filter fun x => !q x := by
  induction l generalizing k with
  | nil => exact dropMatches_nil p k
  | cons a l ih =>
    obtain ⟨hfirst, hrest⟩ := h
    cases hp : p a with
    | true =>
      rw [List.filter_cons_of_pos hp] at hfirst hrest
      cases k with
      | zero =>
        refine (List.filter_eq_self.mpr fun x hx => ?_).symm
        cases hq : q x with
        | false => rfl
        | true =>
          have hmem : x ∈ (a :: l).filter p := List.mem_filter.mpr ⟨hx, hqp x hq⟩
          rw [List.filter_cons_of_pos hp] at hmem
          have hnot := hrest x hmem
          rw [hq] at hnot
          cases hnot
      | succ k =>
        have hq : q a = true := hfirst a (by simp)
        rw [dropMatches, List.eraseP_cons_of_pos hp, List.filter_cons_of_neg (by simp [hq])]
        exact ih ⟨fun x hx => hfirst x (by simp [hx]), fun x hx => hrest x (by simpa using hx)⟩
    | false =>
      have hq : q a = false := by
        cases hq : q a with
        | false => rfl
        | true =>
          rw [hqp a hq] at hp
          cases hp
      rw [List.filter_cons_of_neg (by simp [hp])] at hfirst hrest
      rw [dropMatches_cons_of_neg hp, List.filter_cons_of_pos (by simp [hq]), ih ⟨hfirst, hrest⟩]

theorem dropMatches_eq_iff (hqp : ∀ x, q x = true → p x = true) (k : Nat) (l : List α) :
    dropMatches p k l = l.filter (fun x => !q x) ↔ RightMatches p q k l := by
  constructor
  · intro h
    have hleft : (l.filter p).drop k = (l.filter p).filter fun x => !q x := by
      rw [← filter_dropMatches, h, List.filter_filter, List.filter_filter]
      exact List.filter_congr fun x _ => Bool.and_comm _ _
    have hrest : ∀ x ∈ (l.filter p).drop k, q x = false := by
      intro x hx
      rw [hleft] at hx
      simpa using (List.mem_filter.mp hx).2
    have hsplit : ((l.filter p).take k).filter (fun x => !q x) ++ (l.filter p).drop k =
        (l.filter p).drop k := by
      have hdrop : ((l.filter p).drop k).filter (fun x => !q x) = (l.filter p).drop k :=
        List.filter_eq_self.mpr fun x hx => by simp [hrest x hx]
      calc ((l.filter p).take k).filter (fun x => !q x) ++ (l.filter p).drop k
          = ((l.filter p).take k).filter (fun x => !q x) ++ ((l.filter p).drop k).filter (fun x => !q x) := by
            rw [hdrop]
        _ = (l.filter p).filter (fun x => !q x) := by rw [← List.filter_append, List.take_append_drop]
        _ = (l.filter p).drop k := hleft.symm
    refine ⟨fun x hx => ?_, hrest⟩
    have hnone := List.filter_eq_nil_iff.mp (List.append_left_eq_self.mp hsplit) x hx
    simpa using hnone
  · exact RightMatches.dropMatches_eq hqp

end

-- ---------------------------------------------------------------------------
-- The registry
-- ---------------------------------------------------------------------------

instance (h : Heap) (b c : Behavior) : Decidable (h.Alike b c) :=
  decidable_of_iff ((h.triggers b.trigger).blank = (h.triggers c.trigger).blank ∧
      b.condition = c.condition ∧ (h.actions b.action).blank = (h.actions c.action).blank)
    ⟨fun ⟨htrigger, hcondition, haction⟩ => ⟨htrigger, hcondition, haction⟩,
      fun ⟨htrigger, hcondition, haction⟩ => ⟨htrigger, hcondition, haction⟩⟩

theorem Heap.Alike.same (h : Heap.Alike heap b c) : heap.sameBehavior b c = true :=
  ((heap.alike_iff b c).mp h).1

/-- What the deletion is to do: exactly the behaviors that are alike go, and
no other path is affected. -/
structure DeletesAlike (h : Heap) (behavior : Behavior) (path : Path) (r r' : Registry) : Prop where
  mocked : r'.mocked = r.mocked
  deleted : ∀ d ∈ r.mocked, d.path = path →
    r'.behaviors d = (r.behaviors d).filter fun b => !decide (h.Alike b behavior)
  others : ∀ d ∈ r.mocked, d.path ≠ path → r'.behaviors d = r.behaviors d

/-- The behaviors that compare equal are met right, and no other path has the
same list object unless nothing is removed from it. -/
structure Deletable (h : Heap) (behavior : Behavior) (r : Registry) (d : Registration) : Prop where
  matched : RightMatches (h.sameBehavior · behavior) (fun b => decide (h.Alike b behavior))
    (met (h.sameBehavior · behavior) (r.behaviors d)) (r.behaviors d)
  own : ∀ e ∈ r.mocked, e.path ≠ d.path → e.behaviors = d.behaviors →
    ∀ b ∈ r.behaviors d, h.sameBehavior b behavior = false

section
variable {h : Heap} {r : Registry} {behavior : Behavior} {path : Path}

theorem foldl_of_absent {step : Registry → Registration → Registry} {ds : List Registration}
    (hstep : ∀ r, ∀ d ∈ ds, step r d = r) (r : Registry) : ds.foldl step r = r := by
  induction ds with
  | nil => rfl
  | cons d ds ih =>
    rw [List.foldl_cons, hstep r d List.mem_cons_self]
    exact ih fun r e he => hstep r e (List.mem_cons_of_mem _ he)

theorem deleteBehavior_of_absent (hpath : path ∉ r.paths) :
    r.deleteBehaviorOfMockedDatapoint h behavior path = r := by
  refine foldl_of_absent (fun r' d hd => if_neg ?_) r
  rintro rfl
  exact hpath (List.mem_map_of_mem hd)

theorem deleteBehavior_of_mem (hn : r.paths.Nodup) (hd : d ∈ r.mocked) :
    r.deleteBehaviorOfMockedDatapoint h behavior d.path = { r with
      lists := Function.update r.lists d.behaviors
        (removeInLoop (h.sameBehavior · behavior) (r.lists d.behaviors)) } := by
  obtain ⟨before, after, hsplit⟩ := List.append_of_mem hd
  have hpaths : (before.map (·.path) ++ d.path :: after.map (·.path)).Nodup := by
    simpa [Registry.paths, hsplit] using hn
  obtain ⟨-, hcons, hdisjoint⟩ := List.nodup_append.mp hpaths
  have hbefore : ∀ e ∈ before, ¬d.path = e.path := by
    intro e he heq
    exact hdisjoint e.path (List.mem_map_of_mem he) d.path List.mem_cons_self heq.symm
  have hafter : ∀ e ∈ after, ¬d.path = e.path := by
    intro e he heq
    exact (List.nodup_cons.mp hcons).1 (heq ▸ List.mem_map_of_mem he)
  unfold Registry.deleteBehaviorOfMockedDatapoint
  rw [hsplit, List.foldl_append, List.foldl_cons, foldl_of_absent fun r' e he => if_neg (hbefore e he),
    if_pos rfl, foldl_of_absent fun r' e he => if_neg (hafter e he)]
  rw [← hsplit]

theorem removeInLoop_alike_iff (h : Heap) (behavior : Behavior) (bs : List Behavior) :
    removeInLoop (h.sameBehavior · behavior) bs = bs.filter (fun b => !decide (h.Alike b behavior)) ↔
      RightMatches (h.sameBehavior · behavior) (fun b => decide (h.Alike b behavior))
        (met (h.sameBehavior · behavior) bs) bs := by
  rw [removeInLoop_eq]
  exact dropMatches_eq_iff (fun b hb => (of_decide_eq_true hb).same) _ bs

theorem deletes_alike_of_mem (hn : r.paths.Nodup) (hd : d ∈ r.mocked) :
    DeletesAlike h behavior d.path r (r.deleteBehaviorOfMockedDatapoint h behavior d.path) ↔
      Deletable h behavior r d := by
  have hiff := removeInLoop_alike_iff h behavior (r.lists d.behaviors)
  have hself := removeInLoop_eq_self_iff (p := (h.sameBehavior · behavior)) (l := r.lists d.behaviors)
  rw [deleteBehavior_of_mem hn hd]
  constructor
  · rintro ⟨-, hdeleted, hothers⟩
    refine ⟨hiff.mp ?_, fun e he hpath hlist => hself.mp ?_⟩
    · simpa [Registry.behaviors] using hdeleted d hd rfl
    · simpa [Registry.behaviors, hlist] using hothers e he hpath
  · rintro ⟨hmatched, hown⟩
    refine ⟨rfl, fun e he hpath => ?_, fun e he hpath => ?_⟩
    · obtain rfl : e = d := List.inj_on_of_nodup_map hn he hd hpath
      simpa [Registry.behaviors] using hiff.mpr hmatched
    · by_cases hlist : e.behaviors = d.behaviors
      · simpa [Registry.behaviors, hlist] using hself.mpr (hown e he hpath hlist)
      · exact Function.update_of_ne hlist _ _

/-- The right behaviors are deleted, and only they, exactly when those that
compare equal to the behavior are met right. -/
theorem deletes_alike_iff (hn : r.paths.Nodup) :
    DeletesAlike h behavior path r (r.deleteBehaviorOfMockedDatapoint h behavior path) ↔
      ∀ d ∈ r.mocked, d.path = path → Deletable h behavior r d := by
  by_cases hpath : path ∈ r.paths
  · obtain ⟨d, hd, rfl⟩ := List.mem_map.mp hpath
    rw [deletes_alike_of_mem hn hd]
    constructor
    · intro hdeletable e he heq
      obtain rfl : e = d := List.inj_on_of_nodup_map hn he hd heq
      exact hdeletable
    · exact fun hall => hall d hd rfl
  · have hnone : ∀ d ∈ r.mocked, d.path ≠ path := fun d hd heq => hpath (heq ▸ List.mem_map_of_mem hd)
    rw [deleteBehavior_of_absent hpath]
    constructor
    · exact fun _ d hd heq => absurd heq (hnone d hd)
    · exact fun _ => ⟨rfl, fun d hd heq => absurd heq (hnone d hd), fun _ _ _ => rfl⟩

end

/-- "Lamp" with two equal behaviors next to each other, and "Fan" with one of
the first clock and one of the second, which has another interval. -/
def Registry.clocks : Registry where
  mocked := [⟨"Lamp", .number 0, 0⟩, ⟨"Fan", .number 0, 1⟩]
  lists := fun r => if r = 0 then [⟨0, 0, 0⟩, ⟨0, 0, 0⟩] else [⟨1, 0, 0⟩, ⟨2, 1, 0⟩]
  required := []

def Heap.clocks : Heap :=
  ⟨fun r => .clock (.new (if r = 0 then 1 else 5) true), fun _ => .set ⟨.number 1, false⟩⟩

/-- A behavior goes that is equal to the given one, with a trigger object of
its own. -/
theorem deletes_alike_fan :
    DeletesAlike .clocks ⟨3, 1, 0⟩ "Fan" .clocks
        (Registry.clocks.deleteBehaviorOfMockedDatapoint .clocks ⟨3, 1, 0⟩ "Fan") ∧
      (Registry.clocks.deleteBehaviorOfMockedDatapoint .clocks ⟨3, 1, 0⟩ "Fan").lists 1 = [⟨1, 0, 0⟩] := by
  have hfan : ∀ d ∈ Registry.clocks.mocked, d.path = "Fan" → d = ⟨"Fan", .number 0, 1⟩ := by decide
  refine ⟨(deletes_alike_iff (by decide)).mpr fun d hd hpath => ?_, by decide⟩
  obtain rfl := hfan d hd hpath
  exact ⟨⟨by decide, by decide⟩, by decide⟩

/-- Of two equal behaviors one stays, and a clock with another interval
goes. -/
theorem deletes_others :
    (Registry.clocks.deleteBehaviorOfMockedDatapoint .clocks ⟨0, 0, 0⟩ "Lamp").lists 0 = [⟨0, 0, 0⟩] ∧
      (Registry.clocks.deleteBehaviorOfMockedDatapoint .clocks ⟨0, 0, 0⟩ "Fan").lists 1 = [⟨2, 1, 0⟩] ∧
      ¬DeletesAlike .clocks ⟨0, 0, 0⟩ "Lamp" .clocks
        (Registry.clocks.deleteBehaviorOfMockedDatapoint .clocks ⟨0, 0, 0⟩ "Lamp") ∧
      ¬DeletesAlike .clocks ⟨0, 0, 0⟩ "Fan" .clocks
        (Registry.clocks.deleteBehaviorOfMockedDatapoint .clocks ⟨0, 0, 0⟩ "Fan") := by
  refine ⟨by decide, by decide, fun h => ?_, fun h => ?_⟩
  · have hdeleted := h.deleted ⟨"Lamp", .number 0, 0⟩ (by decide) rfl
    exact absurd hdeleted (by decide)
  · have hdeleted := h.deleted ⟨"Fan", .number 0, 1⟩ (by decide) rfl
    exact absurd hdeleted (by decide)

end KuksaServices.Mock
