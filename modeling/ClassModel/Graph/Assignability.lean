import ClassModel.Graph.Inheritance

/-!
# Assignability

Whether a value of one type can stand where another type is wanted. Primitive types and void match
only themselves, and the root of the hierarchy takes every other type. Apart from that the wanted
name has to turn up among a class, its interfaces and its superclass, theirs included; interfaces
are searched first. As with inherited members there is a plain search, bounded in depth, and a
guarded one, which looks for the name before it looks for a circle.
-/

namespace ClassModel

def anyClass [Monad m] (search : ClassId → m Bool) : List ClassId → m Bool
  | [] => pure false
  | c :: cs => do
    if ← search c then return true
    else anyClass search cs

def reachesWithin (target : String) : Nat → ClassId → Bounded Bool
  | 0, _ => Bounded.exhausted
  | depth + 1, c => do
    if (← Bounded.see (·.nameOf c)) = target then return true
    else
      let interfaces ← Bounded.of c.interfaces
      if ← anyClass (reachesWithin target depth) interfaces then return true
      else
        match ← Bounded.of c.superclass with
        | none => return false
        | some d => reachesWithin target depth d

def reachesBelow (target : String) : Nat → List ClassId → ClassId → Guarded Bool
  | 0, _, _ => ExceptT.lift Bounded.exhausted
  | depth + 1, above, c => do
    let own ← Guarded.see (·.nameOf c)
    if own = target then return true
    else if above.contains c then Guarded.refuse (.cyclicHierarchy own)
    else
      let interfaces ← Guarded.of c.interfaces
      if ← anyClass (reachesBelow target depth (c :: above)) interfaces then return true
      else
        match ← Guarded.of c.superclass with
        | none => return false
        | some d => reachesBelow target depth (c :: above) d

namespace World

def assignableAtOnce? (w : World) (target other : ClassId) : Option Bool :=
  let t := w.node target
  let o := w.node other
  if t.isValueType || o.isValueType then some (t.qualifiedName == o.qualifiedName)
  else if t.isObjectType then some true
  else none

end World

namespace ClassId

def isAssignableFrom (target other : ClassId) : Step Bool := do
  match ← Step.see (·.assignableAtOnce? target other) with
  | some b => return b
  | none =>
    let name ← Step.see (·.nameOf target)
    let bound ← Step.see World.walkBound
    (reachesWithin name bound other).complete false

def tryIsAssignableFrom (target other : ClassId) : Change Bool := do
  match ← Change.see (·.assignableAtOnce? target other) with
  | some b => return b
  | none =>
    let name ← Change.see (·.nameOf target)
    let bound ← Change.see World.walkBound
    (reachesBelow name bound [] other).complete false

end ClassId

end ClassModel
