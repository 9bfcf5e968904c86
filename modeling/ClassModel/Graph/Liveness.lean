import ClassModel.Graph.World
import Std.Data.HashSet

/-!
# What is gone

An object lasts as long as somebody holds it: somebody outside, or another object that lasts. A
loader holds its classes, a class its references and members, a member the references to its types,
and a reference the class it stands for. Objects that hold each other in a circle last, whoever
lets go of them. What is gone is only marked as gone; the records stay as they are.
-/

namespace ClassModel

namespace World

def memberTypes (ps : Parameters) : List Object := ps.list.map fun p => .reference p.type

def holds (w : World) : Object → List Object
  | .node c =>
    let n := w.node c
    (n.superclass.toList.map .reference) ++ (n.interfaces.map .reference) ++ (n.fields.map .field) ++
      (n.methods.map .method) ++ n.constructors.map .constructor
  | .field f => [.reference (w.field f).type]
  | .method m => .reference (w.method m).returnType :: memberTypes (w.method m).parameters
  | .constructor k => memberTypes (w.constructor k).parameters
  | .reference r => (w.reference r).known?.toList.map .node
  | .loader l =>
    let x := w.loader l
    (x.builtins.values ++ x.classes.values ++ x.placeholders.values).map .node
  | .directory d =>
    let x := w.directory d
    (x.table.values.map .node) ++ x.inner.toList.map .loader

def objects (w : World) : List Object :=
  (List.range w.nodes.size).map (.node ⟨·⟩) ++
    (List.range w.fields.size).map (.field ⟨·⟩) ++
    (List.range w.methods.size).map (.method ⟨·⟩) ++
    (List.range w.constructors.size).map (.constructor ⟨·⟩) ++
    (List.range w.references.size).map (.reference ⟨·⟩) ++
    (List.range w.loaders.size).map (.loader ⟨·⟩) ++
    (List.range w.directories.size).map (.directory ⟨·⟩)

def stillHeld (w : World) (outside present : List Object) : List Object :=
  let held := Std.HashSet.ofList (outside ++ present.flatMap w.holds)
  present.filter held.contains

/-- Lets objects go that nobody holds, round after round, for at most `n` rounds. -/
def lasting (w : World) (outside : List Object) : Nat → List Object → List Object
  | 0, present => present
  | n + 1, present =>
    let kept := w.stillHeld outside present
    if kept.length = present.length then present else lasting w outside n kept

/-- The world once only the objects in `outside` are held from outside. -/
def release (w : World) (outside : List Object) : World :=
  let present := w.objects.filter w.isAlive
  let kept := Std.HashSet.ofList (w.lasting outside present.length present)
  { w with gone := w.gone ++ present.filter fun o => !kept.contains o }

end World

end ClassModel
