import KuksaServices.Atomic.OrderedMap
import KuksaServices.Mock.Reloads

/-!
# The registry as a map

`_mocked_datapoints` is a list of dictionaries. Paths are looked up by going
through it, and a dictionary is removed by comparing whole dictionaries while
the list is gone through. Under `mock_datapoint`, `add_behavior`,
`delete_mocked_datapoint` and `delete_all_mocked_datapoints` it is a map from
paths in insertion order (`registry_is_map`). What carries it is that no path
is registered twice and no two registrations share a list object
(`Registry.Pictures`).
-/

namespace KuksaServices.Mock

open Atomic (OrderedMap Represents modifyPairs)

-- ---------------------------------------------------------------------------
-- Deleting by equality
-- ---------------------------------------------------------------------------

def Registry.sameRegistration (h : Heap) (r : Registry) (d other : Registration) : Bool :=
  d.path == other.path && d.initialValue == other.initialValue &&
    h.sameBehaviors (r.behaviors d) (r.behaviors other)

/-- A loop over a list that calls `remove` with the element it stands at: the
first element equal to that one goes. `n` turns are left, the loop stands at
`i`. -/
def removeEqualFrom (p : α → Bool) (same : α → α → Bool) : Nat → Nat → List α → List α
  | 0, _, l => l
  | n + 1, i, l => match l[i]? with
    | some x => removeEqualFrom p same n (i + 1) (if p x then l.eraseP (same · x) else l)
    | none => l

def removeEqualInLoop (p : α → Bool) (same : α → α → Bool) (l : List α) : List α :=
  removeEqualFrom p same l.length 0 l

def Registry.deleteEqualDatapoint (h : Heap) (r : Registry) (path : Path) : Registry :=
  { r with mocked := removeEqualInLoop (·.path == path) (r.sameRegistration h) r.mocked }

theorem removeEqualFrom_none {p : α → Bool} {same : α → α → Bool} (hl : ∀ x ∈ l, p x = false) (n i : Nat) :
    removeEqualFrom p same n i l = l := by
  induction n generalizing i with
  | zero => rfl
  | succ n ih =>
    unfold removeEqualFrom
    split
    · rename_i x hx
      rw [hl x (List.mem_of_getElem? hx)]
      exact ih (i + 1)
    · rfl

/-- Where the loop removes all matches at once, it is enough to meet one. -/
theorem removeEqualFrom_eq {p : α → Bool} {same : α → α → Bool}
    (herase : ∀ x ∈ l, p x = true → l.eraseP (same · x) = l.filter fun y => !p y)
    (hbefore : ∀ x ∈ l.take i, p x = false) (hn : l.length ≤ n + i) :
    removeEqualFrom p same n i l = l.filter fun y => !p y := by
  induction n generalizing i with
  | zero =>
    have htake : l.take i = l := List.take_of_length_le (by omega)
    rw [htake] at hbefore
    exact (List.filter_eq_self.mpr fun x hx => by simp [hbefore x hx]).symm
  | succ n ih =>
    unfold removeEqualFrom
    cases hx : l[i]? with
    | none =>
      have htake : l.take i = l := List.take_of_length_le (by simpa using hx)
      rw [htake] at hbefore
      exact (List.filter_eq_self.mpr fun x hx => by simp [hbefore x hx]).symm
    | some x =>
      have hmem := List.mem_of_getElem? hx
      dsimp only
      cases hp : p x with
      | true =>
        rw [if_pos rfl, herase x hmem hp]
        refine removeEqualFrom_none ?_ n (i + 1)
        intro y hy
        simpa using (List.mem_filter.mp hy).2
      | false =>
        rw [if_neg (by simp)]
        refine ih ?_ (by omega)
        intro y hy
        rw [List.take_add_one, hx] at hy
        rcases List.mem_append.mp hy with hy | hy
        · exact hbefore y hy
        · obtain rfl : y = x := by simpa using hy
          exact hp

/-- An element equal to one of the list goes alone, if equal elements have
equal keys and those are distinct. -/
theorem eraseP_eq_filter [DecidableEq κ] {key : α → κ} {q : α → Bool} {l : List α}
    (hn : (l.map key).Nodup) (hx : x ∈ l)
    (hself : q x = true) (hkey : ∀ y, q y = true → key y = key x) :
    l.eraseP q = l.filter fun y => !(key y == key x) := by
  induction l with
  | nil => cases hx
  | cons a l ih =>
    obtain ⟨ha, hn⟩ := List.nodup_cons.mp (List.map_cons ▸ hn)
    cases hq : q a with
    | true =>
      have hax := hkey a hq
      have hrest : l.filter (fun y => !(key y == key x)) = l := by
        refine List.filter_eq_self.mpr fun y hy => ?_
        have hne : key y ≠ key x := fun heq => ha (hax ▸ heq ▸ List.mem_map_of_mem hy)
        simpa using hne
      rw [List.eraseP_cons_of_pos hq, List.filter_cons_of_neg (by simp [hax]), hrest]
    | false =>
      rcases List.mem_cons.mp hx with rfl | hx
      · rw [hself] at hq
        cases hq
      · have hne : key a ≠ key x := fun heq => ha (heq ▸ List.mem_map_of_mem hx)
        rw [List.eraseP_cons_of_neg (by simp [hq]), List.filter_cons_of_pos (by simpa using hne), ih hn hx]

theorem Registry.deleteEqualDatapoint_eq {r : Registry} (h : Heap) (hn : r.paths.Nodup) (path : Path) :
    r.deleteEqualDatapoint h path = { r with mocked := r.mocked.filter fun d => !(d.path == path) } := by
  have herase : ∀ d ∈ r.mocked, (d.path == path) = true →
      r.mocked.eraseP (r.sameRegistration h · d) = r.mocked.filter fun e => !(e.path == path) := by
    intro d hd hpath
    obtain rfl : d.path = path := by simpa using hpath
    refine eraseP_eq_filter hn hd ?_ ?_
    · simp [Registry.sameRegistration, h.sameBehaviors_self]
    · intro e he
      simp only [Registry.sameRegistration, Bool.and_eq_true, beq_iff_eq] at he
      exact he.1.1
  have hloop : removeEqualInLoop (·.path == path) (r.sameRegistration h) r.mocked =
      r.mocked.filter fun d => !(d.path == path) := removeEqualFrom_eq herase (by simp) (by simp)
  rw [Registry.deleteEqualDatapoint, hloop]

theorem removeFrom_eq_removeEqualFrom (p : α → Bool) (n i : Nat) (l : List α) :
    removeFrom p n i l = removeEqualFrom p (fun y _ => p y) n i l := by
  induction n generalizing i l with
  | zero => rfl
  | succ n ih =>
    unfold removeFrom removeEqualFrom
    cases l[i]? with
    | none => rfl
    | some x => exact ih _ _

theorem Registry.deleteEqualDatapoint_eq_delete {r : Registry} (h : Heap) (hn : r.paths.Nodup)
    (path : Path) : r.deleteEqualDatapoint h path = r.deleteMockedDatapoint path := by
  have herase : ∀ d ∈ r.mocked, (d.path == path) = true →
      r.mocked.eraseP (·.path == path) = r.mocked.filter fun e => !(e.path == path) := by
    intro d hd hpath
    obtain rfl : d.path = path := by simpa using hpath
    exact eraseP_eq_filter hn hd hpath fun e he => by simpa using he
  have hloop : removeInLoop (·.path == path) r.mocked = r.mocked.filter fun d => !(d.path == path) := by
    rw [removeInLoop, removeFrom_eq_removeEqualFrom]
    exact removeEqualFrom_eq herase (by simp) (by simp)
  rw [r.deleteEqualDatapoint_eq h hn, Registry.deleteMockedDatapoint, hloop]

-- ---------------------------------------------------------------------------
-- Calls
-- ---------------------------------------------------------------------------

inductive MapCall where
  | mockDatapoint (path : Path) (initialValue : Value) (behaviors : Ref)
  | addBehavior (behavior : Behavior) (path : Path)
  | deleteMockedDatapoint (path : Path)
  | deleteAllMockedDatapoints
  deriving DecidableEq, Repr

def MapCall.apply (h : Heap) (r : Registry) : MapCall → Registry
  | .mockDatapoint path initialValue behaviors => r.mockDatapoint path initialValue behaviors
  | .addBehavior behavior path => r.addBehavior behavior path
  | .deleteMockedDatapoint path => r.deleteEqualDatapoint h path
  | .deleteAllMockedDatapoints => r.deleteAllMockedDatapoints

def MapCall.edit : MapCall → Edit
  | .mockDatapoint path initialValue behaviors => .mockDatapoint path initialValue behaviors
  | .addBehavior behavior path => .addBehavior behavior path
  | .deleteMockedDatapoint path => .deleteMockedDatapoint path
  | .deleteAllMockedDatapoints => .deleteAllMockedDatapoints

theorem MapCall.apply_eq_edit {r : Registry} (h : Heap) (hn : r.paths.Nodup) (call : MapCall) :
    call.apply h r = call.edit.apply h r := by
  cases call with
  | deleteMockedDatapoint path => exact r.deleteEqualDatapoint_eq_delete h hn path
  | _ => rfl

def MapCall.list? : MapCall → Option Ref
  | .mockDatapoint _ _ behaviors => some behaviors
  | _ => none

abbrev MockMap := OrderedMap Path (Value × List Behavior)

/-- What a call means for the map, where `lists` are the lists as they were
passed. -/
def MapCall.on (lists : Ref → List Behavior) (m : MockMap) : MapCall → MockMap
  | .mockDatapoint path initialValue behaviors => m.insertNew path (initialValue, lists behaviors)
  | .addBehavior behavior path => m.modify path fun e => (e.1, e.2 ++ [behavior])
  | .deleteMockedDatapoint path => m.erase path
  | .deleteAllMockedDatapoints => .empty

def Registry.entries (r : Registry) : List (Path × Value × List Behavior) :=
  r.mocked.map fun d => (d.path, d.initialValue, r.behaviors d)

theorem Registry.entries_paths (r : Registry) : r.entries.map Prod.fst = r.paths := by
  simp [Registry.entries, Registry.paths]

-- ---------------------------------------------------------------------------
-- The registry is the map
-- ---------------------------------------------------------------------------

/-- The registry is the map, its lists are distinct objects, and those still
to be passed are as they were. -/
structure Registry.Pictures (lists : Ref → List Behavior) (refs : List Ref) (r : Registry)
    (m : MockMap) : Prop where
  map : Represents r.entries m
  objects : (r.mocked.map (·.behaviors)).Nodup
  unused : ∀ ref ∈ refs, ref ∉ r.mocked.map (·.behaviors) ∧ r.lists ref = lists ref

section
variable {lists : Ref → List Behavior} {refs : List Ref} {r : Registry} {m : MockMap}

theorem Registry.Pictures.paths (h : r.Pictures lists refs m) : r.paths.Nodup := by
  rw [← r.entries_paths, h.map.keys]
  exact m.nodup

theorem Registry.Pictures.mockDatapoint {behaviors : Ref}
    (h : r.Pictures lists (behaviors :: refs) m) (hn : behaviors ∉ refs) (path : Path) (initialValue : Value) :
    (r.mockDatapoint path initialValue behaviors).Pictures lists refs
      (m.insertNew path (initialValue, lists behaviors)) := by
  obtain ⟨hnew, hcontents⟩ := h.unused behaviors List.mem_cons_self
  unfold Registry.mockDatapoint
  split
  · rename_i hpath
    refine ⟨h.map.present (r.entries_paths ▸ hpath) _, h.objects, fun ref href => ?_⟩
    exact h.unused ref (List.mem_cons_of_mem _ href)
  · rename_i hpath
    refine ⟨?_, ?_, fun ref href => ?_⟩
    · have happend := h.map.append (r.entries_paths ▸ hpath) (initialValue, lists behaviors)
      simpa [Registry.entries, Registry.behaviors, hcontents] using happend
    · rw [List.map_append]
      refine List.nodup_append.mpr ⟨h.objects, List.nodup_singleton _, ?_⟩
      rintro ref href _ hb rfl
      obtain rfl : ref = behaviors := List.mem_singleton.mp hb
      exact hnew href
    · obtain ⟨hmem, hlist⟩ := h.unused ref (List.mem_cons_of_mem _ href)
      refine ⟨?_, hlist⟩
      rw [List.map_append]
      intro hmem'
      rcases List.mem_append.mp hmem' with hold | hlast
      · exact hmem hold
      · obtain rfl : ref = behaviors := List.mem_singleton.mp hlast
        exact hn href

theorem Registry.Pictures.entries_update (h : r.Pictures lists refs m) (hd : d ∈ r.mocked)
    (f : List Behavior → List Behavior) :
    ({ r with lists := Function.update r.lists d.behaviors (f (r.lists d.behaviors)) } : Registry).entries =
      modifyPairs d.path (fun e => (e.1, f e.2)) r.entries := by
  rw [modifyPairs, Registry.entries, Registry.entries, List.map_map]
  refine List.map_congr_left fun e he => ?_
  simp only [Function.comp_apply, Registry.behaviors]
  by_cases hpath : e.path = d.path
  · obtain rfl : e = d := List.inj_on_of_nodup_map h.paths he hd hpath
    rw [if_pos rfl, Function.update_self]
  · have hne : e.behaviors ≠ d.behaviors := by
      intro heq
      obtain rfl : e = d := List.inj_on_of_nodup_map h.objects he hd heq
      exact hpath rfl
    rw [if_neg hpath, Function.update_of_ne hne]

theorem Registry.Pictures.addBehavior (h : r.Pictures lists refs m) (behavior : Behavior) (path : Path) :
    (r.addBehavior behavior path).Pictures lists refs
      (m.modify path fun e => (e.1, e.2 ++ [behavior])) := by
  have hmap := h.map.modify path fun e => (e.1, e.2 ++ [behavior])
  unfold Registry.addBehavior
  cases hfind : r.mocked.find? (·.path == path) with
  | none =>
    have hnone : ∀ d ∈ r.mocked, ¬d.path = path := by simpa using hfind
    have hsame : modifyPairs path (fun e => (e.1, e.2 ++ [behavior])) r.entries = r.entries := by
      rw [modifyPairs, Registry.entries, List.map_map]
      refine List.map_congr_left fun d hd => ?_
      exact if_neg (hnone d hd)
    exact ⟨hsame ▸ hmap, h.objects, h.unused⟩
  | some d =>
    have hd := List.mem_of_find?_eq_some hfind
    obtain rfl : d.path = path := by simpa using List.find?_some hfind
    refine ⟨?_, h.objects, fun ref href => ?_⟩
    · exact (h.entries_update hd (· ++ [behavior])).symm ▸ hmap
    · obtain ⟨hmem, hlist⟩ := h.unused ref href
      have hne : ref ≠ d.behaviors := fun heq => hmem (heq ▸ List.mem_map_of_mem hd)
      exact ⟨hmem, (Function.update_of_ne hne _ _).trans hlist⟩

theorem Registry.Pictures.delete (h : r.Pictures lists refs m) (heap : Heap) (path : Path) :
    (r.deleteEqualDatapoint heap path).Pictures lists refs (m.erase path) := by
  rw [Registry.deleteEqualDatapoint_eq heap h.paths]
  refine ⟨?_, ?_, fun ref href => ?_⟩
  · have hmap := h.map.erase path
    rw [Registry.entries, List.filter_map] at hmap
    have hkept : r.mocked.filter (fun d => !(d.path == path)) =
        r.mocked.filter ((fun e : Path × Value × List Behavior => decide (e.1 ≠ path)) ∘
          fun d => (d.path, d.initialValue, r.behaviors d)) := by
      refine List.filter_congr fun d _ => ?_
      by_cases hpath : d.path = path
      · simp [hpath]
      · simp [hpath]
    rw [hkept]
    exact hmap
  · exact h.objects.sublist (List.filter_sublist.map _)
  · obtain ⟨hmem, hlist⟩ := h.unused ref href
    exact ⟨fun hmem' => hmem (List.Sublist.subset (List.filter_sublist.map _) hmem'), hlist⟩

theorem Registry.Pictures.step (heap : Heap) (call : MapCall)
    (h : r.Pictures lists (call.list?.toList ++ refs) m) (hn : (call.list?.toList ++ refs).Nodup) :
    (call.apply heap r).Pictures lists refs (call.on lists m) := by
  cases call with
  | mockDatapoint path initialValue behaviors =>
    exact h.mockDatapoint (List.nodup_cons.mp hn).1 path initialValue
  | addBehavior behavior path => exact h.addBehavior behavior path
  | deleteMockedDatapoint path => exact h.delete heap path
  | deleteAllMockedDatapoints => exact ⟨.nil, List.nodup_nil, fun ref href => ⟨nofun, (h.unused ref href).2⟩⟩

theorem Registry.Pictures.run (heap : Heap) (calls : List MapCall)
    (h : r.Pictures lists (calls.filterMap MapCall.list?) m) (hn : (calls.filterMap MapCall.list?).Nodup) :
    (calls.foldl (MapCall.apply heap) r).Pictures lists [] (calls.foldl (MapCall.on lists) m) := by
  induction calls generalizing r m with
  | nil => exact h
  | cons call calls ih =>
    have hlists : (call :: calls).filterMap MapCall.list? =
        call.list?.toList ++ calls.filterMap MapCall.list? := by
      cases hc : call.list? <;> simp [hc]
    rw [hlists] at h hn
    exact ih (h.step heap call hn) (List.nodup_append.mp hn).2.1

end

/-- The registry after any calls, from the empty one of a new process: no path
is registered twice, and it is the map that the calls mean. -/
theorem registry_is_map (heap : Heap) (lists : Ref → List Behavior) (required : List Path)
    (calls : List MapCall) (h : (calls.filterMap MapCall.list?).Nodup) :
    (calls.foldl (MapCall.apply heap) ⟨[], lists, required⟩).paths.Nodup ∧
      Represents (calls.foldl (MapCall.apply heap) ⟨[], lists, required⟩).entries
        (calls.foldl (MapCall.on lists) .empty) := by
  have hempty : Registry.Pictures lists (calls.filterMap MapCall.list?) ⟨[], lists, required⟩ .empty :=
    ⟨.nil, List.nodup_nil, fun _ _ => ⟨nofun, rfl⟩⟩
  have hrun := hempty.run heap calls h
  exact ⟨hrun.paths, hrun.map⟩

/-- "Lamp" is mocked twice and deleted; a behavior for a path that is not
mocked is dropped. -/
def lampCalls : List MapCall :=
  [.mockDatapoint "Lamp" (.number 0) 0, .addBehavior ⟨0, 0, 0⟩ "Lamp", .mockDatapoint "Fan" .none 1,
    .mockDatapoint "Lamp" (.number 1) 2, .addBehavior ⟨1, 0, 0⟩ "Fan", .addBehavior ⟨1, 0, 0⟩ "Horn",
    .deleteMockedDatapoint "Lamp"]

def lampHeap : Heap :=
  ⟨fun r => .clock (.new (if r = 0 then 1 else 5) true), fun _ => .set ⟨.number 1, false⟩⟩

theorem registry_is_map_lamp :
    (lampCalls.foldl (MapCall.apply lampHeap) ⟨[], fun _ => [], []⟩).entries =
        [("Fan", .none, [⟨1, 0, 0⟩])] ∧
      (lampCalls.foldl (MapCall.apply lampHeap) ⟨[], fun _ => [], []⟩).paths.Nodup ∧
      Represents (lampCalls.foldl (MapCall.apply lampHeap) ⟨[], fun _ => [], []⟩).entries
        (lampCalls.foldl (MapCall.on fun _ => []) .empty) :=
  ⟨by decide, registry_is_map lampHeap (fun _ => []) [] lampCalls (by decide)⟩

end KuksaServices.Mock
