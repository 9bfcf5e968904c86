import ClassModel.Graph.Node
import ClassModel.ModelError

/-!
# Edits

The changes that a class and its members admit, as data. What they do is said in `Graph.Change`;
removing interfaces by name is not among them, for it has to resolve references.
-/

namespace ClassModel

inductive ClassEdit where
  | setSimpleName (name : String)
  | setSuperclass (name : String)
  | setSuperclassUnqualified (name : String)
  | setSuperclassClass (c : ClassId)
  | clearSuperclass
  | addInterface (name : String)
  | addInterfaceUnqualified (name : String)
  | addInterfaceClass (c : ClassId)
  | addImport (i : Import)
  | addField
  | removeField (f : FieldId)
  | addMethod
  | removeMethod (m : MethodId)
  | addConstructor
  | removeConstructor (k : ConstructorId)
  | setInterface (value : Bool)
  | setAnnotationType (value : Bool)
  | setUnresolved (value : Bool)
  | setModifiers (m : Modifiers)
  deriving DecidableEq, Repr

inductive ParameterEdit where
  | add (name type : String)
  | addUnqualified (name type : String)
  /-- With default name and default type. -/
  | addNew
  | remove (index : Nat)
  deriving DecidableEq, Repr

inductive FieldEdit where
  | setName (name : String)
  | setModifiers (m : Modifiers)
  | setType (name : String)
  | setTypeUnqualified (name : String)
  | setTypeClass (c : ClassId)
  deriving DecidableEq, Repr

inductive MethodEdit where
  | setName (name : String)
  | setModifiers (m : Modifiers)
  | setReturnType (name : String)
  | setReturnTypeUnqualified (name : String)
  | parameters (e : ParameterEdit)
  deriving DecidableEq, Repr

inductive ConstructorEdit where
  | setModifiers (m : Modifiers)
  | parameters (e : ParameterEdit)
  deriving DecidableEq, Repr

inductive Edit where
  | onClass (c : ClassId) (e : ClassEdit)
  | onField (f : FieldId) (e : FieldEdit)
  | onMethod (m : MethodId) (e : MethodEdit)
  | onConstructor (k : ConstructorId) (e : ConstructorEdit)
  deriving DecidableEq, Repr

/-- What an edit hands back: the member it made, or the parameter it made or removed. -/
inductive Made where
  | nothing
  | field (f : FieldId)
  | method (m : MethodId)
  | constructor (k : ConstructorId)
  | parameter (p : Parameter)
  deriving DecidableEq, Repr

end ClassModel
