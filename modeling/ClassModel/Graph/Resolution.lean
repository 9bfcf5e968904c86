import ClassModel.Graph.Loader

/-!
# Resolution

How names find classes. A qualified name is looked up as it stands. An unqualified name is tried in
the package of the class that wrote it, then by its imports of single classes, then below its
imports on demand, and last by the fallback of the collaborator. A reference that finds nothing
resolves to a stand-in, and whatever it resolves to first is its class for good.
-/

namespace ClassModel

namespace Directory

def answer (d : DirectoryId) (name : String)
    (ask : LoaderId → String → Step (Option ClassId)) : Step (Option ClassId) := do
  let x ← Step.see (·.directory d)
  match x.table.get? name, x.inner with
  | some c, _ => return some c
  | none, some l => ask l name
  | none, none => return none

def record (d : DirectoryId) (p : Probe) : Step Unit :=
  Step.onDirectory d fun x => { x with probes := p :: x.probes }

def lookup (d : DirectoryId) (name : String) : Step (Option ClassId) := do
  record d (.lookup name)
  answer d name Loader.lookup

def lookupDefault (d : DirectoryId) (name : String) : Step (Option ClassId) := do
  if (← Step.see (·.directory d)).full then
    record d (.lookupDefault name)
    answer d name Loader.lookupDefault
  else lookup d name

def placeholder (d : DirectoryId) (name : String) : Step (Option ClassId) := do
  let x ← Step.see (·.directory d)
  if x.full then
    record d (.placeholder name)
    match x.inner with
    | some l => return some (← Loader.placeholder l name)
    | none => return none
  else return none

end Directory

namespace Collaborator

def lookup : Collaborator → String → Step (Option ClassId)
  | loader l => Loader.lookup l
  | directory d => Directory.lookup d

def lookupDefault : Collaborator → String → Step (Option ClassId)
  | loader l => Loader.lookupDefault l
  | directory d => Directory.lookupDefault d

/-- A stand-in that is shared by all who miss the same name, if the collaborator has one. -/
def placeholder : Collaborator → String → Step (Option ClassId)
  | loader l, name => some <$> Loader.placeholder l name
  | directory d, name => Directory.placeholder d name

end Collaborator

def importedNames (imports : List Import) (name : String) : List String :=
  imports.filterMap (fun
    | .single path => if Name.simpleNameOf path = name then some path else none
    | .onDemand _ => none) ++
  imports.filterMap fun
    | .single _ => none
    | .onDemand path => some (Name.qualify path name)

/-- Asks `lookup` about each candidate for an unqualified name, up to the first hit, and `fallback`
about the name itself if there is none. The imports are those that there are once the package has
been tried. -/
def resolveWith [Monad m] (lookup fallback : String → m (Option α)) (package : String)
    (imports : m (List Import)) (name : String) : m (Option α) := do
  match ← lookup (Name.qualify package name) with
  | some x => return some x
  | none =>
    match ← firstHit lookup (importedNames (← imports) name) with
    | some x => return some x
    | none => fallback name

structure Context where
  package : String
  imports : World → List Import
  lookup : Option Collaborator

namespace Context

def probe (k : Collaborator) (name : String) : Step (Option ClassId) := do
  Step.log (.probing name)
  k.lookup name

def fallBack (k : Collaborator) (name : String) : Step (Option ClassId) := do
  Step.log (.fallingBack name)
  k.lookupDefault name

def resolve (x : Context) (name : String) : Step (Option ClassId) :=
  match x.lookup with
  | none => pure none
  | some k => resolveWith (probe k) (fallBack k) x.package (Step.see x.imports) name

end Context

namespace ClassId

/-- The collaborator of a class, while it is there. -/
def collaborator (c : ClassId) : Step (Option Collaborator) :=
  Step.see fun w => (w.node c).lookup.filter fun k => w.isAlive k.object

def context (c : ClassId) : Step Context := do
  let n ← Step.see (·.node c)
  return ⟨n.package, fun w => (w.node c).imports, ← c.collaborator⟩

def placeholder (c : ClassId) (name : String) : Step ClassId := do
  let n ← Step.see (·.node c)
  let shared ← match ← c.collaborator with
    | some k => k.placeholder name
    | none => pure none
  match shared with
  | some d => return d
  | none => Step.addNode (Loader.standIn name n.lookup n.settings)

def forName (c : ClassId) (name : String) : Step ClassId := do
  let found ← match ← c.collaborator with
    | some k => k.lookup name
    | none => pure none
  match found with
  | some d => return d
  | none => c.placeholder name

end ClassId

def detachedStandIn (name : String) : Step ClassId :=
  Step.addNode (Loader.standIn name none .standard)

namespace RefId

def missed (name : String) (context : ClassId) : Step ClassId := do
  Step.log (.unresolved name (← Step.see (·.nameOf context)))
  context.placeholder name

def findQualified (name : String) (context : ClassId) : Step ClassId := do
  if ← Step.see (·.isAlive (.node context)) then
    let found ← match ← context.collaborator with
      | some k => do
        Step.log (.probingQualified name)
        k.lookup name
      | none => pure none
    match found with
    | some c => return c
    | none => missed name context
  else detachedStandIn name

def findUnqualified (name : String) (context : ClassId) : Step ClassId := do
  if ← Step.see (·.isAlive (.node context)) then
    match ← (← context.context).resolve name with
    | some c => return c
    | none => missed name context
  else detachedStandIn name

def remember (r : RefId) (c : ClassId) : Step ClassId := do
  Step.onReference r fun x => { x with memo := some c }
  return c

def resolve (r : RefId) : Step ClassId := do
  let x ← Step.see (·.reference r)
  match x.target, x.memo with
  | .direct c, _ => return c
  | _, some c => return c
  | .qualified name context, none => do r.remember (← findQualified name context)
  | .unqualified name context, none => do r.remember (← findUnqualified name context)

/-- The name of the class that a reference stands for. Only an unqualified one has to resolve. -/
def qualifiedName (r : RefId) : Step String := do
  match (← Step.see (·.reference r)).target with
  | .direct c => Step.see (·.nameOf c)
  | .qualified name _ => return name
  | .unqualified _ _ => do
    let c ← r.resolve
    Step.see (·.nameOf c)

def resolveAll : List RefId → Step (List ClassId)
  | [] => pure []
  | r :: rs => do
    let c ← r.resolve
    return c :: (← resolveAll rs)

end RefId

namespace ClassId

def superclass (c : ClassId) : Step (Option ClassId) := do
  match ← Step.see fun w => (w.node c).superclassRef with
  | none => return none
  | some r => some <$> r.resolve

def interfaces (c : ClassId) : Step (List ClassId) := do
  RefId.resolveAll (← Step.see fun w => (w.node c).interfaceRefs)

def namedReferences (name : String) : List RefId → Step (List RefId)
  | [] => pure []
  | r :: rs => do
    let own ← r.qualifiedName
    let rest ← namedReferences name rs
    return if own = name then r :: rest else rest

/-- Removes every interface of the given name. Hidden interfaces count too. A class that has none
of the name need not admit changes. -/
def removeInterface (c : ClassId) (name : String) : Change Unit := do
  if name.isEmpty then Change.refuse .emptyInterfaceName
  let doomed ← Change.of <| do
    let n ← Step.see (·.node c)
    namedReferences name n.interfaces
  if doomed.isEmpty then return ()
  Change.requireDeclared c
  Change.of <| Step.onNode c fun n =>
    { n with interfaces := n.interfaces.filter fun r => !doomed.contains r }

end ClassId

end ClassModel
