import ClassModel.Graph.Loader
import ClassModel.Snapshot.Basic

/-!
# Restoring a snapshot

A snapshot is restored into a new loader without sources. All classes are defined first and filled
afterwards, by the same edits that anybody can make, so a malformed snapshot is refused where the
first of them is. A class is marked as unresolved last.
-/

namespace ClassModel

open Change

namespace RefSnapshot

def superclassEdit : RefSnapshot → ClassEdit
  | .qualified n => .setSuperclass n
  | .unqualified n => .setSuperclassUnqualified n

def interfaceEdit : RefSnapshot → ClassEdit
  | .qualified n => .addInterface n
  | .unqualified n => .addInterfaceUnqualified n

def fieldEdit : RefSnapshot → FieldEdit
  | .qualified n => .setType n
  | .unqualified n => .setTypeUnqualified n

def returnEdit : RefSnapshot → MethodEdit
  | .qualified n => .setReturnType n
  | .unqualified n => .setReturnTypeUnqualified n

end RefSnapshot

def ParameterSnapshot.edit (p : ParameterSnapshot) : ParameterEdit :=
  match p.type with
  | .qualified n => .add p.name n
  | .unqualified n => .addUnqualified p.name n

def editEach (c : ClassId) : List ClassEdit → Change Unit
  | [] => pure ()
  | e :: es => do
    let _ ← e.apply c
    editEach c es

namespace Snapshot

def restoreField (c : ClassId) (x : FieldSnapshot) : Change Unit := do
  match ← ClassEdit.apply c .addField with
  | .field f => do
    let _ ← FieldEdit.apply f (.setName x.name)
    let _ ← FieldEdit.apply f (.setModifiers x.modifiers)
    let _ ← FieldEdit.apply f x.type.fieldEdit
  | _ => pure ()

def restoreMethodParameters (m : MethodId) : List ParameterSnapshot → Change Unit
  | [] => pure ()
  | p :: ps => do
    let _ ← MethodEdit.apply m (.parameters p.edit)
    restoreMethodParameters m ps

def restoreMethod (c : ClassId) (x : MethodSnapshot) : Change Unit := do
  match ← ClassEdit.apply c .addMethod with
  | .method m => do
    let _ ← MethodEdit.apply m (.setName x.name)
    let _ ← MethodEdit.apply m (.setModifiers x.modifiers)
    let _ ← MethodEdit.apply m x.returnType.returnEdit
    restoreMethodParameters m x.parameters
  | _ => pure ()

def restoreConstructorParameters (k : ConstructorId) : List ParameterSnapshot → Change Unit
  | [] => pure ()
  | p :: ps => do
    let _ ← ConstructorEdit.apply k (.parameters p.edit)
    restoreConstructorParameters k ps

def restoreConstructor (c : ClassId) (x : ConstructorSnapshot) : Change Unit := do
  match ← ClassEdit.apply c .addConstructor with
  | .constructor k => do
    let _ ← ConstructorEdit.apply k (.setModifiers x.modifiers)
    restoreConstructorParameters k x.parameters
  | _ => pure ()

def restoreEach (restore : α → Change Unit) : List α → Change Unit
  | [] => pure ()
  | x :: xs => do
    restore x
    restoreEach restore xs

def restoreClass (x : ClassSnapshot) (c : ClassId) : Change Unit := do
  editEach c [.setModifiers x.modifiers, .setInterface x.isInterface,
    .setAnnotationType x.isAnnotationType]
  editEach c (x.superclass.toList.map RefSnapshot.superclassEdit)
  editEach c (x.interfaces.map RefSnapshot.interfaceEdit)
  restoreEach (restoreField c) x.fields
  restoreEach (restoreMethod c) x.methods
  restoreEach (restoreConstructor c) x.constructors
  editEach c [.setUnresolved x.isUnresolved]

def parseImports (texts : List String) : Change (List Import) :=
  match Import.parseAll texts with
  | .ok is => pure is
  | .error e => refuse (.invalidName e)

def defineEach (l : LoaderId) : List ClassSnapshot → Change (List ClassId)
  | [] => pure []
  | x :: xs => do
    let imports ← parseImports x.imports
    let c ← Loader.define l x.package x.simpleName imports
    return c :: (← defineEach l xs)

/-- A new loader with the classes of the snapshot. The version of the snapshot does not matter. -/
def restore (settings : Settings) (s : Snapshot) : Change LoaderId := do
  let l ← Loader.make settings []
  let cs ← defineEach l s.classes
  restoreEach (fun (x, c) => restoreClass x c) (s.classes.zip cs)
  of <| Step.log (.restored cs.length)
  return l

end Snapshot

end ClassModel
