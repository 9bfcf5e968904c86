import ClassModel.Graph.Source

/-!
# Rules for sources

Sources that are given as data: a table of declarations, a package in which every class exists, or
a table of names that stand for others.
-/

namespace ClassModel

/-- What a class is made with. All of it but the imports is applied in the order of the fields. -/
structure Declaration where
  imports : List String
  superclass : Option String
  superclassUnqualified : Option String
  interfaces : List String
  interfacesUnqualified : List String
  fields : List String
  isInterface : Option Bool
  modifiers : Option Modifiers

inductive SourceRule where
  | table (classes : List (String × Declaration))
  | package (name : String) (isInterface : Option Bool)
  /-- Looks up the name that another stands for. -/
  | redirect (names : List (String × String))
  /-- Looks it up twice, and answers nothing. -/
  | touch (names : List (String × String))
  | load (names : List (String × String))
  /-- Makes the class that a name stands for, without a loader. -/
  | detached (names : List (String × String))

namespace SourceRule

def get? (names : List (String × α)) (name : String) : Option α :=
  (names.find? (·.1 == name)).map (·.2)

def andThen (e : Edit) (next : Made → Program) : Program :=
  .edit e fun
    | .ok made => next made
    | .error _ => .answer none

def editAll (c : ClassId) (next : Program) : List ClassEdit → Program
  | [] => next
  | e :: es => andThen (.onClass c e) fun _ => editAll c next es

def addFields (c : ClassId) (next : Program) : List String → Program
  | [] => next
  | name :: names =>
    andThen (.onClass c .addField) fun
      | .field f => andThen (.onField f (.setName name)) fun _ => addFields c next names
      | _ => addFields c next names

def supertypeEdits (d : Declaration) : List ClassEdit :=
  d.superclass.toList.map .setSuperclass ++
    d.superclassUnqualified.toList.map .setSuperclassUnqualified ++
    d.interfaces.map .addInterface ++
    d.interfacesUnqualified.map .addInterfaceUnqualified

def flagEdits (d : Declaration) : List ClassEdit :=
  d.isInterface.toList.map .setInterface ++ d.modifiers.toList.map .setModifiers

def defineNamed (name : String) (imports : List Import) (next : ClassId → Program) : Program :=
  .define (Name.packageOf name) (Name.simpleNameOf name) imports fun
    | .ok c => next c
    | .error _ => .answer none

def declare (name : String) (d : Declaration) : Program :=
  match Import.parseAll d.imports with
  | .error _ => .answer none
  | .ok imports =>
    defineNamed name imports fun c =>
      editAll c (addFields c (editAll c (.answer (some c)) (flagEdits d)) d.fields)
        (supertypeEdits d)

def program (r : SourceRule) (name : String) : Program :=
  match r with
  | table classes =>
    match get? classes name with
    | some d => declare name d
    | none => .answer none
  | package p isInterface =>
    if Name.packageOf name = p then
      defineNamed name [] fun c =>
        editAll c (.answer (some c)) (isInterface.toList.map .setInterface)
    else .answer none
  | redirect names =>
    match get? names name with
    | some other => .lookup other .answer
    | none => .answer none
  | touch names =>
    match get? names name with
    | some other => .lookup other fun _ => .lookup other fun _ => .answer none
    | none => .answer none
  | load names =>
    match get? names name with
    | some other => .load other fun c => .answer (some c)
    | none => .answer none
  | detached names =>
    match get? names name with
    | some other =>
      .create (Name.packageOf other) (Name.simpleNameOf other) none .standard fun
        | .ok c => .answer (some c)
        | .error _ => .answer none
    | none => .answer none

def asks : SourceRule → List String
  | redirect names | touch names | load names => names.map (·.2)
  | table _ | package _ _ | detached _ => []

def height : SourceRule → Nat
  | table classes => classes.length
  | package _ _ | detached _ => 1
  | redirect _ | touch _ | load _ => 0

def source (r : SourceRule) : Source := ⟨fun _ => r.program, r.asks, r.height⟩

end SourceRule

end ClassModel
