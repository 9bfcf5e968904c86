import ClassModel.Graph.Registry
import ClassModel.Graph.Source
import ClassModel.Graph.Store
import ClassModel.Log.Event

/-!
# Worlds

Everything there is at one time: the objects of all models with their contents, which of them are
gone, and what has been logged. Objects are only ever added. One that nothing holds any longer is
gone, which shows where others point back to it without holding it.
-/

namespace ClassModel

structure Loader where
  settings : Settings
  builtins : Registry ClassId
  classes : Registry ClassId
  /-- One stand-in for each name that nothing resolved. -/
  placeholders : Registry ClassId
  sources : List Source
  /-- The names that sources are being asked for. -/
  loading : List String
  /-- Which source has been asked for which name, the latest first. -/
  asked : List (Nat × String)

instance : Inhabited Loader := ⟨⟨.standard, [], [], [], [], [], []⟩⟩

inductive Probe where
  | lookup (name : String)
  | lookupDefault (name : String)
  | placeholder (name : String)
  deriving DecidableEq, Repr

def Probe.text : Probe → String
  | lookup n => "lookup " ++ n
  | lookupDefault n => "lookup_default " ++ n
  | placeholder n => "placeholder " ++ n

/-- Looks names up in a table, then in a loader, and keeps a record. Unless it is full, it treats
the fallback for bare names as any lookup and has no stand-ins. -/
structure Directory where
  table : Registry ClassId
  inner : Option LoaderId
  full : Bool
  /-- The latest first. -/
  probes : List Probe
  deriving Inhabited

structure World where
  nodes : Store ClassNode
  fields : Store Field
  methods : Store Method
  constructors : Store Constructor
  references : Store Reference
  loaders : Store Loader
  directories : Store Directory
  gone : List Object
  /-- The latest first. -/
  log : List Log.Event

abbrev Step := StateM World

abbrev Change := ExceptT ModelError Step

namespace World

def empty : World := ⟨.empty, .empty, .empty, .empty, .empty, .empty, .empty, [], []⟩

instance : Inhabited World := ⟨empty⟩

def node (w : World) (c : ClassId) : ClassNode := w.nodes.get c.index
def field (w : World) (f : FieldId) : Field := w.fields.get f.index
def method (w : World) (m : MethodId) : Method := w.methods.get m.index
def constructor (w : World) (k : ConstructorId) : Constructor := w.constructors.get k.index
def reference (w : World) (r : RefId) : Reference := w.references.get r.index
def loader (w : World) (l : LoaderId) : Loader := w.loaders.get l.index
def directory (w : World) (d : DirectoryId) : Directory := w.directories.get d.index

def isAlive (w : World) (o : Object) : Bool := !w.gone.contains o

def nameOf (w : World) (c : ClassId) : String := (w.node c).qualifiedName

def writtenName (w : World) (r : RefId) : String :=
  match (w.reference r).target with
  | .direct c => w.nameOf c
  | .qualified name _ => name
  | .unqualified name _ => name

def referenceDebugText (w : World) (r : RefId) : String :=
  let x := w.reference r
  "ClassReference \x7b kind: " ++ x.kind.text ++ ", name: " ++ Text.quotedString (w.writtenName r)
    ++ ", resolved: " ++ toString x.isResolved ++ " \x7d"

end World

/-! ## Steps on single records -/

namespace Step

def addNode (n : ClassNode) : Step ClassId := fun w =>
  (⟨w.nodes.size⟩, { w with nodes := w.nodes.push n })

def addField (f : Field) : Step FieldId := fun w =>
  (⟨w.fields.size⟩, { w with fields := w.fields.push f })

def addMethod (m : Method) : Step MethodId := fun w =>
  (⟨w.methods.size⟩, { w with methods := w.methods.push m })

def addConstructor (k : Constructor) : Step ConstructorId := fun w =>
  (⟨w.constructors.size⟩, { w with constructors := w.constructors.push k })

def addReference (t : Target) : Step RefId := fun w =>
  (⟨w.references.size⟩, { w with references := w.references.push ⟨t, none⟩ })

def addLoader (l : Loader) : Step LoaderId := fun w =>
  (⟨w.loaders.size⟩, { w with loaders := w.loaders.push l })

def addDirectory (d : Directory) : Step DirectoryId := fun w =>
  (⟨w.directories.size⟩, { w with directories := w.directories.push d })

def onNode (c : ClassId) (f : ClassNode → ClassNode) : Step Unit := fun w =>
  ((), { w with nodes := w.nodes.modify c.index f })

def onField (i : FieldId) (f : Field → Field) : Step Unit := fun w =>
  ((), { w with fields := w.fields.modify i.index f })

def onMethod (m : MethodId) (f : Method → Method) : Step Unit := fun w =>
  ((), { w with methods := w.methods.modify m.index f })

def onConstructor (k : ConstructorId) (f : Constructor → Constructor) : Step Unit := fun w =>
  ((), { w with constructors := w.constructors.modify k.index f })

def onReference (r : RefId) (f : Reference → Reference) : Step Unit := fun w =>
  ((), { w with references := w.references.modify r.index f })

def onLoader (l : LoaderId) (f : Loader → Loader) : Step Unit := fun w =>
  ((), { w with loaders := w.loaders.modify l.index f })

def onDirectory (d : DirectoryId) (f : Directory → Directory) : Step Unit := fun w =>
  ((), { w with directories := w.directories.modify d.index f })

def log (e : Log.Event) : Step Unit := fun w => ((), { w with log := e :: w.log })

def see (f : World → α) : Step α := fun w => (f w, w)

end Step

end ClassModel
