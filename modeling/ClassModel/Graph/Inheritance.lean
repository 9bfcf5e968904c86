import ClassModel.Graph.Resolution

/-!
# Inherited members

The members of a class with all that it inherits: its own, then those of its interfaces in order,
then those of its superclass unless it is an interface itself. A member that is reached on several
paths is listed once for each. The plain walk does not end where the supertypes run in a circle, so
it is bounded in depth; the guarded walk refuses to enter a class below itself.
-/

namespace ClassModel

namespace World

/-- No path of supertypes without a circle is longer: it passes each class once, and the sources
add no more than they say. -/
def walkBound (w : World) : Nat :=
  let heights := w.loaders.items.toList.flatMap fun l => l.sources.map (·.height)
  w.nodes.size + heights.foldl (· + ·) 0 + 2

end World

def collectEach [Monad m] (walk : ClassId → m (List α)) : List ClassId → m (List α)
  | [] => pure []
  | c :: cs => do
    let xs ← walk c
    return xs ++ (← collectEach walk cs)

def flattenBy (declared : World → ClassId → List α) : Nat → ClassId → Bounded (List α)
  | 0, _ => Bounded.exhausted
  | depth + 1, c => do
    let own ← Bounded.see (declared · c)
    let interfaces ← Bounded.of c.interfaces
    let fromInterfaces ← collectEach (flattenBy declared depth) interfaces
    if ← Bounded.see fun w => (w.node c).isInterface then
      return own ++ fromInterfaces
    else
      match ← Bounded.of c.superclass with
      | none => return own ++ fromInterfaces
      | some d => return own ++ fromInterfaces ++ (← flattenBy declared depth d)

def flattenWithin (kind : MemberKind) : Nat → ClassId → Bounded (List Member) :=
  flattenBy fun w c => w.declared kind c

abbrev Guarded := ExceptT ModelError Bounded

namespace Guarded

def of (s : Step α) : Guarded α := ExceptT.lift (Bounded.of s)

def see (f : World → α) : Guarded α := of (Step.see f)

def refuse (e : ModelError) : Guarded α := throw e

def complete (s : Guarded α) (otherwise : α) : Change α := fun w =>
  (s.run w).getD (.ok otherwise, w)

end Guarded

/-- The guarded walk below the classes in `above`. The superclass of an interface is resolved but
not entered. -/
def flattenBelow (kind : MemberKind) : Nat → List ClassId → ClassId → Guarded (List Member)
  | 0, _, _ => ExceptT.lift Bounded.exhausted
  | depth + 1, above, c => do
    if above.contains c then
      Guarded.refuse (.cyclicHierarchy (← Guarded.see (·.nameOf c)))
    else
      let own ← Guarded.see (·.declared kind c)
      let interfaces ← Guarded.of c.interfaces
      let fromInterfaces ← collectEach (flattenBelow kind depth (c :: above)) interfaces
      let superclass ← Guarded.of c.superclass
      let isInterface ← Guarded.see fun w => (w.node c).isInterface
      match superclass, isInterface with
      | some d, false => return own ++ fromInterfaces ++ (← flattenBelow kind depth (c :: above) d)
      | _, _ => return own ++ fromInterfaces

namespace ClassId

/-- All members of a kind. On a class whose supertypes run in a circle this walk has no outcome. -/
def flatten (c : ClassId) (kind : MemberKind) : Step (List Member) := do
  let bound ← Step.see World.walkBound
  (flattenWithin kind bound c).complete []

def tryFlatten (c : ClassId) (kind : MemberKind) : Change (List Member) := do
  let bound ← Change.see World.walkBound
  (flattenBelow kind bound [] c).complete []

def fields (c : ClassId) : Step (List Member) := do
  let bound ← Step.see World.walkBound
  let fields ← (flattenBy (fun w d => (w.node d).declaredFields) bound c).complete []
  return fields.map .field

def methods (c : ClassId) : Step (List Member) := do
  let bound ← Step.see World.walkBound
  let methods ← (flattenBy (fun w d => (w.node d).declaredMethods) bound c).complete []
  return methods.map .method

end ClassId

end ClassModel
