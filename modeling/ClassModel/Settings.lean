import ClassModel.Name

/-!
# Settings of a model

What fills the gaps that the makers of classes leave: the root of the hierarchy, the packages in
which bare names are looked for last, and names and types of members made without them. Checking
goes through the keys in a fixed order and stops at the first malformed name. A prefix of member
names need not be a name itself, so it is checked with a digit behind it.
-/

namespace ClassModel

structure Settings where
  rootClass : String
  defaultPackages : List String
  defaultMemberPrefix : String
  defaultFieldType : String
  defaultReturnType : String
  deriving DecidableEq, Repr

namespace Settings

def standard : Settings where
  rootClass := "java.lang.Object"
  defaultPackages := ["java.lang"]
  defaultMemberPrefix := "unnamed_"
  defaultFieldType := "java.lang.Object"
  defaultReturnType := "void"

instance : Inhabited Settings := ⟨standard⟩

inductive Key where
  | rootClass
  | defaultPackages
  | defaultMemberPrefix
  | defaultFieldType
  | defaultReturnType
  deriving DecidableEq, Repr

def Key.text : Key → String
  | .rootClass => "root_class"
  | .defaultPackages => "default_packages"
  | .defaultMemberPrefix => "default_member_prefix"
  | .defaultFieldType => "default_field_type"
  | .defaultReturnType => "default_return_type"

structure Fault where
  key : Key
  cause : InvalidName
  deriving DecidableEq, Repr

def Fault.message (f : Fault) : String :=
  s!"invalid config: model.{f.key.text}: {f.cause.message}"

def memberName (s : Settings) (ordinal : Nat) : String :=
  s.defaultMemberPrefix ++ toString ordinal

def classNames (s : Settings) : List (Key × String) :=
  [(.rootClass, s.rootClass), (.defaultFieldType, s.defaultFieldType),
    (.defaultReturnType, s.defaultReturnType)] ++
    s.defaultPackages.map fun p => (.defaultPackages, p)

def checkNames : List (Key × String) → Except Fault Unit
  | [] => .ok ()
  | (key, name) :: rest =>
    match Name.checkClassName name with
    | .error e => .error ⟨key, e⟩
    | .ok () => checkNames rest

def check (s : Settings) : Except Fault Unit :=
  match checkNames s.classNames with
  | .error f => .error f
  | .ok () =>
    match Name.checkIdentifier (s.memberName 0) with
    | .error e => .error ⟨.defaultMemberPrefix, e⟩
    | .ok () => .ok ()

end Settings

end ClassModel
