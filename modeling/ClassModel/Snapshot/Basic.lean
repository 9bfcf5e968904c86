import ClassModel.Import
import ClassModel.Modifiers

/-!
# Snapshots

A picture of the defined classes of a loader as plain data. References are kept as they were
written, a direct one under the name of its class, and imports as source text.
-/

namespace ClassModel

inductive RefSnapshot where
  | qualified (name : String)
  | unqualified (name : String)
  deriving DecidableEq, Repr

def RefSnapshot.name : RefSnapshot → String
  | qualified n => n
  | unqualified n => n

structure ParameterSnapshot where
  name : String
  type : RefSnapshot
  deriving DecidableEq, Repr

structure FieldSnapshot where
  name : String
  modifiers : Modifiers
  type : RefSnapshot
  deriving DecidableEq, Repr

structure MethodSnapshot where
  name : String
  modifiers : Modifiers
  returnType : RefSnapshot
  parameters : List ParameterSnapshot
  deriving DecidableEq, Repr

structure ConstructorSnapshot where
  modifiers : Modifiers
  parameters : List ParameterSnapshot
  deriving DecidableEq, Repr

structure ClassSnapshot where
  package : String
  simpleName : String
  modifiers : Modifiers
  isInterface : Bool
  isAnnotationType : Bool
  isUnresolved : Bool
  imports : List String
  superclass : Option RefSnapshot
  interfaces : List RefSnapshot
  fields : List FieldSnapshot
  methods : List MethodSnapshot
  constructors : List ConstructorSnapshot
  deriving DecidableEq, Repr

def schemaVersion : Nat := 1

structure Snapshot where
  /-- The version of the form in which snapshots are written, a 32-bit number. -/
  schemaVersion : Nat
  classes : List ClassSnapshot
  deriving DecidableEq, Repr

end ClassModel
