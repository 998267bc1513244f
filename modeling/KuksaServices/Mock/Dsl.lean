import KuksaServices.Mock.Objects

/-!
# The mocking DSL

The functions of `dsl.py` that edit the module's lists: the registered mocks,
whose behavior lists are objects of their own, and the paths that behaviors
read. `Heap` holds the objects behaviors refer to; all objects a program will
ever create are in it from the start.
-/

namespace KuksaServices.Mock

structure Heap where
  triggers : Ref → Trigger
  actions : Ref → Action

def Heap.sameBehavior (h : Heap) (b other : Behavior) : Bool :=
  (h.triggers b.trigger).eq (h.triggers other.trigger) && b.condition == other.condition &&
    (h.actions b.action).eq (h.actions other.action)

def Heap.sameBehaviors (h : Heap) : List Behavior → List Behavior → Bool
  | [], [] => true
  | b :: bs, c :: cs => h.sameBehavior b c && h.sameBehaviors bs cs
  | _, _ => false

-- ---------------------------------------------------------------------------
-- The registry
-- ---------------------------------------------------------------------------

/-- A dictionary in `_mocked_datapoints`. -/
structure Registration where
  path : Path
  initialValue : Value
  behaviors : Ref
  deriving DecidableEq, Repr

/-- `_mocked_datapoints`, the contents of list objects, and
`_required_datapoint_paths`. -/
structure Registry where
  mocked : List Registration
  lists : Ref → List Behavior
  required : List Path

def Registry.paths (r : Registry) : List Path := r.mocked.map (·.path)

def Registry.behaviors (r : Registry) (d : Registration) : List Behavior := r.lists d.behaviors

def Registry.require (path : Path) (r : Registry) : Registry :=
  if path ∈ r.required then r else { r with required := r.required ++ [path] }

def Registry.requireAll (paths : List Path) (r : Registry) : Registry :=
  paths.foldl (fun r path => r.require path) r

def Registry.mockDatapoint (r : Registry) (path : Path) (initialValue : Value) (behaviors : Ref) :
    Registry :=
  if path ∈ r.paths then r
  else { r with mocked := r.mocked ++ [⟨path, initialValue, behaviors⟩] }

def Registry.addBehavior (r : Registry) (behavior : Behavior) (path : Path) : Registry :=
  (r.mocked.find? (·.path == path)).elim r fun d =>
    { r with lists := Function.update r.lists d.behaviors (r.lists d.behaviors ++ [behavior]) }

/-- A loop over a list that removes the first match from it whenever the
element it stands at matches, and so skips the next one. `n` turns are left,
the loop stands at `i`. -/
def removeFrom (p : α → Bool) : Nat → Nat → List α → List α
  | 0, _, l => l
  | n + 1, i, l => match l[i]? with
    | some x => removeFrom p n (i + 1) (if p x then l.eraseP p else l)
    | none => l

def removeInLoop (p : α → Bool) (l : List α) : List α := removeFrom p l.length 0 l

def Registry.deleteBehaviorOfMockedDatapoint (h : Heap) (r : Registry) (behavior : Behavior)
    (path : Path) : Registry :=
  r.mocked.foldl (fun r d =>
    if path = d.path then
      let kept := removeInLoop (h.sameBehavior · behavior) (r.lists d.behaviors)
      { r with lists := Function.update r.lists d.behaviors kept }
    else r) r

def Registry.deleteMockedDatapoint (r : Registry) (path : Path) : Registry :=
  { r with mocked := removeInLoop (·.path == path) r.mocked }

def Registry.deleteAllMockedDatapoints (r : Registry) : Registry := { r with mocked := [] }

def Registry.createEventTrigger (r : Registry) (path : Option Path) : Registry :=
  path.elim r fun path => r.require path

inductive Edit where
  | mockDatapoint (path : Path) (initialValue : Value) (behaviors : Ref)
  | addBehavior (behavior : Behavior) (path : Path)
  | deleteBehaviorOfMockedDatapoint (behavior : Behavior) (path : Path)
  | deleteMockedDatapoint (path : Path)
  | deleteAllMockedDatapoints
  | createEventTrigger (path : Option Path)
  deriving DecidableEq, Repr

def Edit.apply (h : Heap) (r : Registry) : Edit → Registry
  | .mockDatapoint path initialValue behaviors => r.mockDatapoint path initialValue behaviors
  | .addBehavior behavior path => r.addBehavior behavior path
  | .deleteBehaviorOfMockedDatapoint behavior path =>
    r.deleteBehaviorOfMockedDatapoint h behavior path
  | .deleteMockedDatapoint path => r.deleteMockedDatapoint path
  | .deleteAllMockedDatapoints => r.deleteAllMockedDatapoints
  | .createEventTrigger path => r.createEventTrigger path

end KuksaServices.Mock
