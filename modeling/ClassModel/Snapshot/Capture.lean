import ClassModel.Graph.World
import ClassModel.Snapshot.Basic

/-!
# Taking a snapshot

The snapshot of a loader shows what its classes show, in the order of their names. Nothing is
resolved for it.
-/

namespace ClassModel

namespace World

def captureRef (w : World) (r : RefId) : RefSnapshot :=
  match (w.reference r).target with
  | .direct c => .qualified (w.nameOf c)
  | .qualified name _ => .qualified name
  | .unqualified name _ => .unqualified name

def captureParameters (w : World) (ps : Parameters) : List ParameterSnapshot :=
  ps.list.map fun p => ⟨p.name, w.captureRef p.type⟩

def captureField (w : World) (f : FieldId) : FieldSnapshot :=
  let x := w.field f
  ⟨x.name, x.modifiers, w.captureRef x.type⟩

def captureMethod (w : World) (m : MethodId) : MethodSnapshot :=
  let x := w.method m
  ⟨x.name, x.modifiers, w.captureRef x.returnType, w.captureParameters x.parameters⟩

def captureConstructor (w : World) (k : ConstructorId) : ConstructorSnapshot :=
  let x := w.constructor k
  ⟨x.modifiers, w.captureParameters x.parameters⟩

def captureClass (w : World) (c : ClassId) : ClassSnapshot :=
  let n := w.node c
  { package := n.package
    simpleName := n.simpleName
    modifiers := n.modifiers
    isInterface := n.isInterface
    isAnnotationType := n.isAnnotationType
    isUnresolved := n.isUnresolved
    imports := n.imports.map Import.text
    superclass := n.superclassRef.map w.captureRef
    interfaces := n.interfaceRefs.map w.captureRef
    fields := n.declaredFields.map w.captureField
    methods := n.declaredMethods.map w.captureMethod
    constructors := n.declaredConstructors.map w.captureConstructor }

def snapshot (w : World) (l : LoaderId) : Snapshot :=
  ⟨schemaVersion, (w.loader l).classes.values.map w.captureClass⟩

end World

end ClassModel
