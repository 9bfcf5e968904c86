import ClassModel.Graph.World

/-!
# Making and changing classes

What edits do. Names are checked before anything else, then whether the class may be changed at
all, and only then is something made: a change that is refused has made nothing.
-/

namespace ClassModel

namespace Change

def refuse (e : ModelError) : Change α := throw e

def of (s : Step α) : Change α := ExceptT.lift s

def see (f : World → α) : Change α := of (Step.see f)

def requireName (check : Except InvalidName Unit) : Change Unit :=
  match check with
  | .ok () => pure ()
  | .error e => refuse (.invalidName e)

def requireSettings (s : Settings) : Change Unit :=
  match s.check with
  | .ok () => pure ()
  | .error f => refuse (.invalidSettings f)

def requireDeclared (c : ClassId) : Change Unit := do
  let n ← see (·.node c)
  if n.kind = .declared then pure () else refuse (.builtinFixed n.qualifiedName)

end Change

open Change

/-- Makes a class that no loader knows. -/
def createClass (package simpleName : String) (lookup : Option Collaborator)
    (settings : Settings) : Change ClassId := do
  requireName (Name.checkPackageName package)
  requireName (Name.checkIdentifier simpleName)
  requireSettings settings
  of <| Step.addNode (.bare package simpleName .declared lookup settings)

namespace ClassEdit

def superclassByName (c : ClassId) (name : String) (target : Target) : Change Made := do
  requireName (Name.checkClassName name)
  requireDeclared c
  let r ← of <| Step.addReference target
  of <| Step.onNode c fun n => { n with superclass := some r }
  return .nothing

def interfaceByName (c : ClassId) (name : String) (target : Target) : Change Made := do
  requireName (Name.checkClassName name)
  requireDeclared c
  let r ← of <| Step.addReference target
  of <| Step.onNode c fun n => { n with interfaces := n.interfaces ++ [r] }
  return .nothing

def update (c : ClassId) (f : ClassNode → ClassNode) : Change Made := do
  requireDeclared c
  of <| Step.onNode c f
  return .nothing

def addNewField (c : ClassId) : Change Made := do
  requireDeclared c
  let n ← see (·.node c)
  let type ← of <| Step.addReference (.qualified n.settings.defaultFieldType c)
  let f ← of <| Step.addField ⟨c, n.settings.memberName n.fieldsMade, .none, type⟩
  of <| Step.onNode c fun n => { n with fields := n.fields ++ [f], fieldsMade := n.fieldsMade + 1 }
  return .field f

def addNewMethod (c : ClassId) : Change Made := do
  requireDeclared c
  let n ← see (·.node c)
  let type ← of <| Step.addReference (.qualified n.settings.defaultReturnType c)
  let m ← of <| Step.addMethod ⟨c, n.settings.memberName n.methodsMade, .none, type, ⟨[], 0⟩⟩
  of <| Step.onNode c fun n => { n with methods := n.methods ++ [m], methodsMade := n.methodsMade + 1 }
  return .method m

def addNewConstructor (c : ClassId) : Change Made := do
  requireDeclared c
  let k ← of <| Step.addConstructor ⟨c, .none, ⟨[], 0⟩⟩
  of <| Step.onNode c fun n => { n with constructors := n.constructors ++ [k] }
  return .constructor k

def apply (c : ClassId) : ClassEdit → Change Made
  | .setSimpleName _ => do refuse (.classNameFixed (← see (·.nameOf c)))
  | .setSuperclass name => superclassByName c name (.qualified name c)
  | .setSuperclassUnqualified name => superclassByName c name (.unqualified name c)
  | .setSuperclassClass d => do
    requireDeclared c
    let r ← of <| Step.addReference (.direct d)
    of <| Step.onNode c fun n => { n with superclass := some r }
    return .nothing
  | .clearSuperclass => update c fun n => { n with superclass := none }
  | .addInterface name => interfaceByName c name (.qualified name c)
  | .addInterfaceUnqualified name => interfaceByName c name (.unqualified name c)
  | .addInterfaceClass d => do
    requireDeclared c
    let r ← of <| Step.addReference (.direct d)
    of <| Step.onNode c fun n => { n with interfaces := n.interfaces ++ [r] }
    return .nothing
  | .addImport i => update c fun n => { n with imports := n.imports ++ [i] }
  | .addField => addNewField c
  | .removeField f => update c fun n => { n with fields := n.fields.filter (· != f) }
  | .addMethod => addNewMethod c
  | .removeMethod m => update c fun n => { n with methods := n.methods.filter (· != m) }
  | .addConstructor => addNewConstructor c
  | .removeConstructor k =>
    update c fun n => { n with constructors := n.constructors.filter (· != k) }
  | .setInterface b => update c fun n => { n with isInterface := b }
  | .setAnnotationType b => update c fun n => { n with isAnnotationType := b }
  | .setUnresolved b => update c fun n => { n with isUnresolved := b }
  | .setModifiers m => update c fun n => { n with modifiers := m }

end ClassEdit

def typeReference (name : String) (target : Target) : Change RefId := do
  requireName (Name.checkClassName name)
  of <| Step.addReference target

namespace ParameterEdit

/-- Both names are checked before the reference is made, the type's first. -/
def addNamed (ps : Parameters) (name type : String) (target : Target) :
    Change (Parameters × Made) := do
  requireName (Name.checkClassName type)
  requireName (Name.checkIdentifier name)
  let r ← of <| Step.addReference target
  return (⟨ps.list ++ [⟨name, r⟩], ps.made + 1⟩, .nothing)

def apply (owner : ClassId) (ps : Parameters) : ParameterEdit → Change (Parameters × Made)
  | .add name type => addNamed ps name type (.qualified type owner)
  | .addUnqualified name type => addNamed ps name type (.unqualified type owner)
  | .addNew => do
    let settings ← see fun w => (w.node owner).settings
    let r ← of <| Step.addReference (.qualified settings.defaultFieldType owner)
    let p : Parameter := ⟨settings.memberName ps.made, r⟩
    return (⟨ps.list ++ [p], ps.made + 1⟩, .parameter p)
  | .remove i =>
    match ps.list[i]? with
    | none => refuse (.noSuchParameter i ps.list.length)
    | some p => return ({ ps with list := ps.list.eraseIdx i }, .parameter p)

end ParameterEdit

namespace FieldEdit

def apply (f : FieldId) : FieldEdit → Change Made
  | .setName name => do
    requireName (Name.checkIdentifier name)
    of <| Step.onField f fun x => { x with name := name }
    return .nothing
  | .setModifiers m => do
    of <| Step.onField f fun x => { x with modifiers := m }
    return .nothing
  | .setType name => do
    let owner ← see fun w => (w.field f).owner
    let r ← typeReference name (.qualified name owner)
    of <| Step.onField f fun x => { x with type := r }
    return .nothing
  | .setTypeUnqualified name => do
    let owner ← see fun w => (w.field f).owner
    let r ← typeReference name (.unqualified name owner)
    of <| Step.onField f fun x => { x with type := r }
    return .nothing
  | .setTypeClass c => do
    let r ← of <| Step.addReference (.direct c)
    of <| Step.onField f fun x => { x with type := r }
    return .nothing

end FieldEdit

namespace MethodEdit

def apply (m : MethodId) : MethodEdit → Change Made
  | .setName name => do
    requireName (Name.checkIdentifier name)
    of <| Step.onMethod m fun x => { x with name := name }
    return .nothing
  | .setModifiers ms => do
    of <| Step.onMethod m fun x => { x with modifiers := ms }
    return .nothing
  | .setReturnType name => do
    let owner ← see fun w => (w.method m).owner
    let r ← typeReference name (.qualified name owner)
    of <| Step.onMethod m fun x => { x with returnType := r }
    return .nothing
  | .setReturnTypeUnqualified name => do
    let owner ← see fun w => (w.method m).owner
    let r ← typeReference name (.unqualified name owner)
    of <| Step.onMethod m fun x => { x with returnType := r }
    return .nothing
  | .parameters e => do
    let x ← see (·.method m)
    let (ps, made) ← e.apply x.owner x.parameters
    of <| Step.onMethod m fun x => { x with parameters := ps }
    return made

end MethodEdit

namespace ConstructorEdit

def apply (k : ConstructorId) : ConstructorEdit → Change Made
  | .setModifiers m => do
    of <| Step.onConstructor k fun x => { x with modifiers := m }
    return .nothing
  | .parameters e => do
    let x ← see (·.constructor k)
    let (ps, made) ← e.apply x.owner x.parameters
    of <| Step.onConstructor k fun x => { x with parameters := ps }
    return made

end ConstructorEdit

def Edit.apply : Edit → Change Made
  | .onClass c e => e.apply c
  | .onField f e => e.apply f
  | .onMethod m e => e.apply m
  | .onConstructor k e => e.apply k

/-! ## Members in a world -/

namespace World

/-- The name of a member of `owner`, which is that of its class too as long as there is one. -/
def qualifyIn (w : World) (owner : ClassId) (name : String) : String :=
  if w.isAlive (.node owner) then Name.qualify (w.nameOf owner) name else name

def ownerOf (w : World) : Member → ClassId
  | .field f => (w.field f).owner
  | .method m => (w.method m).owner
  | .constructor k => (w.constructor k).owner

def memberName (w : World) : Member → String
  | .field f => (w.field f).name
  | .method m => (w.method m).name
  | .constructor k =>
    let owner := (w.constructor k).owner
    if w.isAlive (.node owner) then (w.node owner).simpleName else ""

def memberQualifiedName (w : World) (m : Member) : String :=
  w.qualifyIn (w.ownerOf m) (w.memberName m)

def declaringClass (w : World) (m : Member) : Option ClassId :=
  if w.isAlive (.node (w.ownerOf m)) then some (w.ownerOf m) else none

def declared (w : World) (kind : MemberKind) (c : ClassId) : List Member :=
  match kind with
  | .field => (w.node c).declaredFields.map .field
  | .method => (w.node c).declaredMethods.map .method

def memberDebugText (w : World) (m : Member) : String :=
  let tag := match m with
    | .field _ => "Field"
    | .method _ => "Method"
    | .constructor _ => "Constructor"
  tag ++ "(" ++ tag ++ "(" ++ Text.quotedString (w.memberQualifiedName m) ++ "))"

end World

end ClassModel
