/-!
# Identities

Every object of a model is known by its identity: two classes of one name are two classes, and a
reference that is copied stays one reference.
-/

namespace ClassModel

structure ClassId where
  index : Nat
  deriving DecidableEq, Repr, Inhabited, Hashable

structure FieldId where
  index : Nat
  deriving DecidableEq, Repr, Inhabited, Hashable

structure MethodId where
  index : Nat
  deriving DecidableEq, Repr, Inhabited, Hashable

structure ConstructorId where
  index : Nat
  deriving DecidableEq, Repr, Inhabited, Hashable

structure RefId where
  index : Nat
  deriving DecidableEq, Repr, Inhabited, Hashable

structure LoaderId where
  index : Nat
  deriving DecidableEq, Repr, Inhabited, Hashable

structure DirectoryId where
  index : Nat
  deriving DecidableEq, Repr, Inhabited, Hashable

inductive Object where
  | node (c : ClassId)
  | field (f : FieldId)
  | method (m : MethodId)
  | constructor (k : ConstructorId)
  | reference (r : RefId)
  | loader (l : LoaderId)
  | directory (d : DirectoryId)
  deriving DecidableEq, Repr, Hashable

end ClassModel
