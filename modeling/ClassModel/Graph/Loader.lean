import ClassModel.Graph.Change

/-!
# Loaders

A loader knows the builtin classes and the classes that were defined in it, and asks its sources
in order about any other name. A name that is being asked for already is not asked for again, so
sources that ask each other come to an end: `lookupWithin` goes `depth` lookups deep, and needs no
more than there are names that can be asked for, and one. The first answer is registered under its
own name unless that name is taken.
-/

namespace ClassModel

abbrev Bounded := StateT World Option

namespace Bounded

def of (s : Step α) : Bounded α := fun w => some (s w)

def see (f : World → α) : Bounded α := of (Step.see f)

def exhausted : Bounded α := fun _ => none

/-- The outcome of a step that stays within its bound; otherwise nothing has happened. -/
def complete (s : Bounded α) (otherwise : α) : Step α := fun w => (s w).getD (otherwise, w)

end Bounded

def primitiveNames : List String :=
  ["boolean", "byte", "char", "short", "int", "long", "float", "double"]

def voidName : String := "void"

def firstHit [Monad m] (ask : String → m (Option α)) : List String → m (Option α)
  | [] => pure none
  | name :: rest => do
    match ← ask name with
    | some x => return some x
    | none => firstHit ask rest

namespace Loader

/-- The builtin names and kinds. The root class counts, whatever its name. -/
def builtinKinds (settings : Settings) : List (String × TypeKind) :=
  let values := primitiveNames.map (·, TypeKind.primitive) ++ [(voidName, .void)]
  values.filter (·.1 != settings.rootClass) ++ [(settings.rootClass, .builtin)]

def addBuiltins (l : LoaderId) (settings : Settings) : List (String × TypeKind) → Step Unit
  | [] => pure ()
  | (name, kind) :: rest => do
    let c ← Step.addNode
      (.bare (Name.packageOf name) (Name.simpleNameOf name) kind (some (.loader l)) settings)
    Step.onLoader l fun x => { x with builtins := x.builtins.insert name c }
    addBuiltins l settings rest

def make (settings : Settings) (sources : List Source) : Change LoaderId := do
  Change.requireSettings settings
  let l ← Change.of <| Step.addLoader ⟨settings, [], [], [], sources, [], []⟩
  Change.of <| addBuiltins l settings (builtinKinds settings)
  return l

def cached? (x : Loader) (name : String) : Option ClassId :=
  (x.builtins.get? name).or (x.classes.get? name)

def define (l : LoaderId) (package simpleName : String) (imports : List Import) :
    Change ClassId := do
  Change.requireName (Name.checkPackageName package)
  Change.requireName (Name.checkIdentifier simpleName)
  let name := Name.qualify package simpleName
  let x ← Change.see (·.loader l)
  if (x.builtins.get? name).isSome then Change.refuse (.nameOfBuiltin name)
  if (x.classes.get? name).isSome then Change.refuse (.alreadyDefined name)
  let n := ClassNode.bare package simpleName .declared (some (.loader l)) x.settings
  let c ← Change.of <| Step.addNode { n with imports := imports }
  Change.of <| Step.onLoader l fun x =>
    { x with
      classes := x.classes.insert name c
      placeholders := x.placeholders.erase name }
  Change.of <| Step.log (.defined name)
  return c

/-- An unresolved class that stands for a name. The name may be any text. -/
def standIn (name : String) (lookup : Option Collaborator) (settings : Settings) : ClassNode :=
  let n := ClassNode.bare (Name.packageOf name) (Name.simpleNameOf name) .declared lookup settings
  { n with isUnresolved := true }

def placeholder (l : LoaderId) (name : String) : Step ClassId := do
  let x ← Step.see (·.loader l)
  match x.placeholders.get? name with
  | some c => return c
  | none =>
    let c ← Step.addNode (standIn name (some (.loader l)) x.settings)
    Step.onLoader l fun x => { x with placeholders := x.placeholders.insert name c }
    return c

/-! ## Looking up -/

/-- The last resort for a bare name: a builtin, a class of a default package, or the name as it
stands. -/
def lookupDefaultWith (l : LoaderId) (lookup : String → Bounded (Option ClassId)) (name : String) :
    Bounded (Option ClassId) := do
  let x ← Bounded.see (·.loader l)
  match x.builtins.get? name with
  | some c => return some c
  | none =>
    firstHit lookup (x.settings.defaultPackages.map (Name.qualify · name) ++ [name])

def loadWith (l : LoaderId) (lookup : String → Bounded (Option ClassId)) (name : String) :
    Bounded ClassId := do
  match ← lookup name with
  | some c => return c
  | none =>
    Bounded.of <| Step.log (.notFound name)
    Bounded.of <| placeholder l name

def run (l : LoaderId) (lookup : String → Bounded (Option ClassId)) :
    Program → Bounded (Option ClassId)
  | .answer found => pure found
  | .define package simpleName imports next => do
    run l lookup (next (← Bounded.of (define l package simpleName imports).run))
  | .create package simpleName collaborator settings next => do
    run l lookup (next (← Bounded.of (createClass package simpleName collaborator settings).run))
  | .edit e next => do run l lookup (next (← Bounded.of e.apply.run))
  | .lookup name next => do run l lookup (next (← lookup name))
  | .lookupDefault name next => do run l lookup (next (← lookupDefaultWith l lookup name))
  | .load name next => do run l lookup (next (← loadWith l lookup name))
  | .placeholder name next => do run l lookup (next (← Bounded.of (placeholder l name)))
  | .classes next => do run l lookup (next (← Bounded.see fun w => (w.loader l).classes.values))
  | .inspect c next => do run l lookup (next (← Bounded.see (·.node c)))

def askSources (l : LoaderId) (lookup : String → Bounded (Option ClassId)) (name : String) :
    Nat → List Source → Bounded (Option ClassId)
  | _, [] => pure none
  | i, s :: rest => do
    let x ← Bounded.see (·.loader l)
    Bounded.of <| Step.onLoader l fun x => { x with asked := (i, name) :: x.asked }
    match ← run l lookup (s.program x.asked name) with
    | some c => return some c
    | none => askSources l lookup name (i + 1) rest

def lookupWithin : Nat → LoaderId → String → Bounded (Option ClassId)
  | 0, _, _ => Bounded.exhausted
  | depth + 1, l, name => do
    let x ← Bounded.see (·.loader l)
    match x.cached? name with
    | some c => return some c
    | none =>
      if x.sources.isEmpty then return none
      else if x.loading.contains name then
        Bounded.of <| Step.log (.reentered name)
        return none
      else
        Bounded.of <| Step.onLoader l fun x => { x with loading := name :: x.loading }
        let found ← askSources l (lookupWithin depth l) name 0 x.sources
        Bounded.of <| Step.onLoader l fun x => { x with loading := x.loading.erase name }
        match found with
        | none => return none
        | some c =>
          let own ← Bounded.see (·.nameOf c)
          Bounded.of <| Step.log (.loaded name own)
          Bounded.of <| Step.onLoader l fun x => { x with classes := x.classes.insertNew own c }
          return some c

/-- How deep lookups can nest: each name that can be asked for once, and one time over. -/
def depth (x : Loader) : Nat := (x.sources.flatMap (·.asks)).length + 2

def lookup (l : LoaderId) (name : String) : Step (Option ClassId) := do
  let x ← Step.see (·.loader l)
  (lookupWithin x.depth l name).complete none

def lookupDefault (l : LoaderId) (name : String) : Step (Option ClassId) := do
  let x ← Step.see (·.loader l)
  (lookupDefaultWith l (lookupWithin x.depth l) name).complete none

def load (l : LoaderId) (name : String) : Step ClassId := do
  match ← lookup l name with
  | some c => return c
  | none =>
    Step.log (.notFound name)
    placeholder l name

end Loader

end ClassModel
