import ClassModel.Graph.Id
import ClassModel.Import
import ClassModel.Modifiers
import ClassModel.Settings

/-!
# Classes, members and references

The records that make up a model. A class knows its supertypes and the types of its members only
through references: a class itself, or a name with the class in which it was written. A reference
by name remembers what it resolved to. Members and references point back to their class without
keeping it alive, and so does a class to the collaborator that looks names up for it.
-/

namespace ClassModel

inductive TypeKind where
  /-- A class or interface that somebody made, or a stand-in for one. -/
  | declared
  /-- The root of the hierarchy, which the loader provides. -/
  | builtin
  | primitive
  | void
  deriving DecidableEq, Repr, Inhabited

def TypeKind.text : TypeKind → String
  | declared => "Declared"
  | builtin => "Builtin"
  | primitive => "Primitive"
  | void => "Void"

inductive Collaborator where
  | loader (l : LoaderId)
  | directory (d : DirectoryId)
  deriving DecidableEq, Repr

def Collaborator.object : Collaborator → Object
  | loader l => .loader l
  | directory d => .directory d

structure ClassNode where
  package : String
  simpleName : String
  kind : TypeKind
  lookup : Option Collaborator
  settings : Settings
  modifiers : Modifiers
  isInterface : Bool
  isAnnotationType : Bool
  /-- Set on stand-ins for names that nothing resolves; hides supertypes and members. -/
  isUnresolved : Bool
  superclass : Option RefId
  interfaces : List RefId
  imports : List Import
  fields : List FieldId
  methods : List MethodId
  constructors : List ConstructorId
  /-- How many fields and methods have been made, which gives the next its default name. The counts stand for
  counters of 32 bits, with which they agree as long as those have room. -/
  fieldsMade : Nat
  methodsMade : Nat
  deriving DecidableEq, Repr

namespace ClassNode

def bare (package simpleName : String) (kind : TypeKind) (lookup : Option Collaborator)
    (settings : Settings) : ClassNode where
  package := package
  simpleName := simpleName
  kind := kind
  lookup := lookup
  settings := settings
  modifiers := .none
  isInterface := false
  isAnnotationType := false
  isUnresolved := false
  superclass := none
  interfaces := []
  imports := []
  fields := []
  methods := []
  constructors := []
  fieldsMade := 0
  methodsMade := 0

instance : Inhabited ClassNode := ⟨bare "" "" .declared none .standard⟩

def qualifiedName (n : ClassNode) : String := Name.qualify n.package n.simpleName

def isValueType (n : ClassNode) : Bool := n.kind == .primitive || n.kind == .void

def isBuiltinType (n : ClassNode) : Bool := n.kind != .declared

/-- The configured root of the hierarchy, whoever made it. -/
def isObjectType (n : ClassNode) : Bool := n.qualifiedName == n.settings.rootClass

def superclassRef (n : ClassNode) : Option RefId := if n.isUnresolved then none else n.superclass

def interfaceRefs (n : ClassNode) : List RefId := if n.isUnresolved then [] else n.interfaces

def declaredFields (n : ClassNode) : List FieldId := if n.isUnresolved then [] else n.fields

def declaredMethods (n : ClassNode) : List MethodId := if n.isUnresolved then [] else n.methods

def declaredConstructors (n : ClassNode) : List ConstructorId :=
  if n.isUnresolved then [] else n.constructors

def debugText (n : ClassNode) : String :=
  "ClassNode \x7b name: " ++ Text.quotedString n.qualifiedName ++ ", kind: " ++ n.kind.text
    ++ ", .. \x7d"

end ClassNode

inductive Target where
  | direct (c : ClassId)
  /-- A name to look up as it stands. -/
  | qualified (name : String) (context : ClassId)
  /-- A name to look for in the package and the imports of the class that wrote it. -/
  | unqualified (name : String) (context : ClassId)
  deriving DecidableEq, Repr, Inhabited

structure Reference where
  target : Target
  memo : Option ClassId
  deriving DecidableEq, Repr, Inhabited

inductive RefKind where
  | direct
  | qualified
  | unqualified
  deriving DecidableEq, Repr

def RefKind.text : RefKind → String
  | direct => "Direct"
  | qualified => "Qualified"
  | unqualified => "Unqualified"

namespace Reference

def kind (r : Reference) : RefKind :=
  match r.target with
  | .direct _ => .direct
  | .qualified _ _ => .qualified
  | .unqualified _ _ => .unqualified

def known? (r : Reference) : Option ClassId :=
  match r.target with
  | .direct c => some c
  | _ => r.memo

def isResolved (r : Reference) : Bool := r.known?.isSome

end Reference

structure Parameter where
  name : String
  type : RefId
  deriving DecidableEq, Repr

/-- Parameters in order, and how many there have ever been, for which there is a counter of 32 bits as well. -/
structure Parameters where
  list : List Parameter
  made : Nat
  deriving DecidableEq, Repr, Inhabited

structure Field where
  owner : ClassId
  name : String
  modifiers : Modifiers
  type : RefId
  deriving DecidableEq, Repr, Inhabited

structure Method where
  owner : ClassId
  name : String
  modifiers : Modifiers
  returnType : RefId
  parameters : Parameters
  deriving DecidableEq, Repr, Inhabited

/-- A constructor goes by the name of its class. -/
structure Constructor where
  owner : ClassId
  modifiers : Modifiers
  parameters : Parameters
  deriving DecidableEq, Repr, Inhabited

inductive Member where
  | field (f : FieldId)
  | method (m : MethodId)
  | constructor (k : ConstructorId)
  deriving DecidableEq, Repr

inductive MemberKind where
  | field
  | method
  deriving DecidableEq, Repr

end ClassModel
