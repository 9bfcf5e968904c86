import ClassModel.Graph.Change

/-!
# Walks over a class

A walk visits a class and then, unless it is shallow, its fields, constructors and methods in order.
The reading walk goes by what the class shows when each list has its turn. The editing walk goes by
all the members there are before the class is visited, shown or not, so that what it does to the
lists does not lead it astray.
-/

namespace ClassModel

inductive Element where
  | node (c : ClassId)
  | member (m : Member)
  deriving DecidableEq, Repr

namespace World

def elementName (w : World) : Element → String
  | .node c => w.nameOf c
  | .member m => w.memberQualifiedName m

def memberModifiers (w : World) : Member → Modifiers
  | .field f => (w.field f).modifiers
  | .method m => (w.method m).modifiers
  | .constructor k => (w.constructor k).modifiers

end World

def visitEach (visit : Element → Step (List α)) : List Element → Step (List α)
  | [] => pure []
  | e :: es => do
    let xs ← visit e
    return xs ++ (← visitEach visit es)

namespace ClassId

def shownFields (c : ClassId) : Step (List Element) :=
  Step.see fun w => (w.node c).declaredFields.map fun f => .member (.field f)

def shownConstructors (c : ClassId) : Step (List Element) :=
  Step.see fun w => (w.node c).declaredConstructors.map fun k => .member (.constructor k)

def shownMethods (c : ClassId) : Step (List Element) :=
  Step.see fun w => (w.node c).declaredMethods.map fun m => .member (.method m)

def walk (c : ClassId) (visit : Element → Step (List α)) : Step (List α) := do
  let head ← visit (.node c)
  let fields ← visitEach visit (← c.shownFields)
  let constructors ← visitEach visit (← c.shownConstructors)
  let methods ← visitEach visit (← c.shownMethods)
  return head ++ fields ++ constructors ++ methods

def allMembers (c : ClassId) : Step (List Element) :=
  Step.see fun w =>
    let n := w.node c
    (n.fields.map fun f => .member (.field f)) ++
      (n.constructors.map fun k => .member (.constructor k)) ++
      n.methods.map fun m => .member (.method m)

def walkEditing (c : ClassId) (visit : Element → Step (List α)) : Step (List α) := do
  let members ← c.allMembers
  let head ← visit (.node c)
  return head ++ (← visitEach visit members)

end ClassId

/-! ## Reports -/

def reportLine (w : World) : Element → String
  | .node c => "class " ++ w.nameOf c
  | .member m =>
    let tag := match m with
      | .field _ => "field"
      | .method _ => "method"
      | .constructor _ => "constructor"
    tag ++ " " ++ w.memberQualifiedName m ++ " " ++ toString (w.memberModifiers m).bits.toNat

def report (e : Element) : Step (List String) := do
  return [← Step.see (reportLine · e)]

structure EditPlan where
  classModifiers : Option Modifiers
  /-- Adds a field, a method and a constructor to the class. -/
  addMembers : Bool
  removeFields : List FieldId
  addInterface : Option String
  fieldModifiers : Option Modifiers
  /-- Put behind the name of every field. -/
  fieldSuffix : Option String
  /-- Gives every constructor one more parameter. -/
  constructorParameter : Bool
  methodModifiers : Option Modifiers
  methodReturn : Option String

namespace EditPlan

def none : EditPlan where
  classModifiers := .none
  addMembers := false
  removeFields := []
  addInterface := .none
  fieldModifiers := .none
  fieldSuffix := .none
  constructorParameter := false
  methodModifiers := .none
  methodReturn := .none

def attempt (what : String) (e : Edit) : Step (List String) := do
  match ← e.apply.run with
  | .ok _ => return ["  " ++ what ++ " ok"]
  | .error err => return ["  " ++ what ++ " " ++ err.message]

def edits (p : EditPlan) (w : World) : Element → List (String × Edit)
  | .node c =>
    (p.classModifiers.toList.map fun m => ("set_modifiers", .onClass c (.setModifiers m))) ++
    (if p.addMembers then
      [("add_new_field", .onClass c .addField), ("add_new_method", .onClass c .addMethod),
        ("add_new_constructor", .onClass c .addConstructor)]
    else []) ++
    (p.removeFields.map fun f => ("remove_field", .onClass c (.removeField f))) ++
    p.addInterface.toList.map fun n => ("add_interface", .onClass c (.addInterface n))
  | .member (.field f) =>
    p.fieldSuffix.toList.map fun s => ("set_name", .onField f (.setName ((w.field f).name ++ s)))
  | .member (.constructor _) => []
  | .member (.method m) =>
    p.methodReturn.toList.map fun n => ("set_return_type", .onMethod m (.setReturnType n))

/-- New modifiers of members are set without a line in the report. -/
def silentEdits (p : EditPlan) : Element → List Edit
  | .member (.field f) => p.fieldModifiers.toList.map fun m => .onField f (.setModifiers m)
  | .member (.method i) => p.methodModifiers.toList.map fun m => .onMethod i (.setModifiers m)
  | _ => []

def makeSilently : List Edit → Step Unit
  | [] => pure ()
  | e :: es => do
    let _ ← e.apply.run
    makeSilently es

def attemptEach : List (String × Edit) → Step (List String)
  | [] => pure []
  | (what, e) :: es => do
    let line ← attempt what e
    return line ++ (← attemptEach es)

def parameterLine (p : EditPlan) : Element → Step (List String)
  | .member (.constructor k) => do
    if p.constructorParameter then
      match ← (Edit.onConstructor k (.parameters .addNew)).apply.run with
      | .ok (.parameter x) => return ["  parameter " ++ x.name]
      | _ => return []
    else return []
  | _ => pure []

def visit (p : EditPlan) (e : Element) : Step (List String) := do
  let line ← report e
  makeSilently (p.silentEdits e)
  let lines ← attemptEach (p.edits (← get) e)
  return line ++ lines ++ (← p.parameterLine e)

end EditPlan

end ClassModel
