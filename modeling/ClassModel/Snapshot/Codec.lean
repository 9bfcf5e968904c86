import ClassModel.Document.Json
import ClassModel.Document.JsonText
import ClassModel.Document.Record
import ClassModel.Snapshot.Basic

/-!
# Snapshots as documents

How a snapshot is written and read. All parts are records with entries in a fixed order; unknown
entries are ignored, and what has an empty or false value may be left out. A reference is a record
of its kind and its name: the kind decides how the name is read, so a name in front of its kind is
set aside until then.
-/

namespace ClassModel

open Document

/-! ## Writing -/

def Modifiers.data (m : Modifiers) : Data := .integer m.bits.toNat

def RefSnapshot.data : RefSnapshot → Data
  | .qualified n => .ofEntries [("kind", .string "qualified"), ("name", .string n)]
  | .unqualified n => .ofEntries [("kind", .string "unqualified"), ("name", .string n)]

def ParameterSnapshot.data (p : ParameterSnapshot) : Data :=
  .ofEntries [("name", .string p.name), ("ty", p.type.data)]

def FieldSnapshot.data (f : FieldSnapshot) : Data :=
  .ofEntries [("name", .string f.name), ("modifiers", f.modifiers.data), ("ty", f.type.data)]

def MethodSnapshot.data (m : MethodSnapshot) : Data :=
  .ofEntries [("name", .string m.name), ("modifiers", m.modifiers.data),
    ("return_type", m.returnType.data),
    ("parameters", .ofItems (m.parameters.map ParameterSnapshot.data))]

def ConstructorSnapshot.data (k : ConstructorSnapshot) : Data :=
  .ofEntries [("modifiers", k.modifiers.data),
    ("parameters", .ofItems (k.parameters.map ParameterSnapshot.data))]

def superclassData : Option RefSnapshot → Data
  | none => .null
  | some r => r.data

def ClassSnapshot.data (c : ClassSnapshot) : Data :=
  .ofEntries [
    ("package", .string c.package),
    ("simple_name", .string c.simpleName),
    ("modifiers", c.modifiers.data),
    ("is_interface", .boolean c.isInterface),
    ("is_annotation_type", .boolean c.isAnnotationType),
    ("is_unresolved", .boolean c.isUnresolved),
    ("imports", .ofItems (c.imports.map .string)),
    ("superclass", superclassData c.superclass),
    ("interfaces", .ofItems (c.interfaces.map RefSnapshot.data)),
    ("fields", .ofItems (c.fields.map FieldSnapshot.data)),
    ("methods", .ofItems (c.methods.map MethodSnapshot.data)),
    ("constructors", .ofItems (c.constructors.map ConstructorSnapshot.data))]

def Snapshot.data (s : Snapshot) : Data :=
  .ofEntries [("schema_version", .integer s.schemaVersion),
    ("classes", .ofItems (s.classes.map ClassSnapshot.data))]

def Snapshot.toJson (s : Snapshot) : String := Json.toText s.data

/-! ## Reading -/

namespace Modifiers

def ofNat (n : Nat) : Modifiers := ⟨UInt16.ofNat n⟩

def read (d : Data) : Reading Modifiers := (d.readUnsigned 16).map ofNat

end Modifiers

namespace RefSnapshot

def shape : Shape := .taggedChoice "RefSnapshot"

inductive Kind where
  | qualified
  | unqualified

def Kind.build : Kind → String → RefSnapshot
  | qualified, n => .qualified n
  | unqualified, n => .unqualified n

def kindNames : List String := ["qualified", "unqualified"]

def Kind.ofName (name : String) : Reading Kind :=
  if name = "qualified" then .ok qualified
  else if name = "unqualified" then .ok unqualified
  else .error (.misfit (.unknownVariant name kindNames))

/-- The kind in front of a name in an array, where only its own name stands for it. -/
def Kind.readName : Data → Reading Kind
  | .string name => ofName name
  | d => .error (d.misfit .variantName)

/-- The kind in a map: its name, or a map from its name to nothing. -/
def Kind.read : Data → Reading Kind
  | .string name => ofName name
  | .map ((name, value) :: rest) cut => do
    let kind ← ofName name
    value.readNull
    if rest.isEmpty then Data.uncut cut kind else .error .malformed
  | _ => .error .malformed

/-- What has been read of a reference. A name in front of its kind is kept as it is. -/
inductive Progress where
  | start
  | kind (k : Kind)
  | name (d : Data)
  | done (r : RefSnapshot)

def Progress.addKind (d : Data) : Progress → Reading Progress
  | .start => (Kind.read d).map .kind
  | .name n => do
    let k ← Kind.read d
    let s ← n.readString
    return .done (k.build s)
  | .kind _ | .done _ => .error (.misfit (.duplicateField "kind"))

/-- A name that is set aside is at most `depth` levels deep. -/
def Progress.addName (depth : Nat) (d : Data) : Progress → Reading Progress
  | .start => if d.readable depth then .ok (.name d) else .error .malformed
  | .kind k => d.readString.map fun s => .done (k.build s)
  | .name _ | .done _ => .error (.misfit (.duplicateField "name"))

def Progress.add (depth : Nat) (key : String) (d : Data) (p : Progress) : Reading Progress :=
  if key = "kind" then p.addKind d
  else if key = "name" then p.addName depth d
  else if d.skippable then .ok p
  else .error .malformed

def Progress.finish : Progress → Reading RefSnapshot
  | .done r => .ok r
  | .kind _ => .error (.misfit (.missingField "name"))
  | .start | .name _ => .error (.misfit (.missingField "kind"))

def readEntries (depth : Nat) (p : Progress) : List (String × Data) → Reading Progress
  | [] => .ok p
  | (key, d) :: rest =>
    match p.add depth key d with
    | .error e => .error e
    | .ok p => readEntries depth p rest

/-- Of the 127 levels that a document may have, `above` are around the reference and its own. -/
def read (above : Nat) : Data → Reading RefSnapshot
  | .map entries cut => do
    let p ← readEntries (127 - above) .start entries
    let p ← Data.uncut cut p
    p.finish
  | .array items cut =>
    match items with
    | [] => if cut.isSome then .error .malformed else .error (.misfit (.invalidLength 0 shape))
    | [k] => do
      let _ ← Kind.readName k
      if cut.isSome then .error .malformed else .error (.misfit (.invalidLength 1 shape))
    | k :: n :: rest => do
      let k ← Kind.readName k
      let s ← n.readString
      if rest.isEmpty then Data.uncut cut (k.build s) else .error .malformed
  | d => .error (d.misfit shape)

end RefSnapshot

namespace ParameterSnapshot

inductive Part where
  | name (s : String)
  | type (r : RefSnapshot)

def shape : RecordShape Part where
  name := "ParameterSnapshot"
  fields := [
    ⟨"name", true, fun d => d.readString.map .name⟩,
    ⟨"ty", true, fun d => (RefSnapshot.read 8 d).map .type⟩]
  strict := false
  bounded := true

def ofParts (ps : List Part) : Option ParameterSnapshot := do
  let name ← ps.findSome? fun | .name s => some s | _ => none
  let type ← ps.findSome? fun | .type r => some r | _ => none
  return ⟨name, type⟩

end ParameterSnapshot

def RecordShape.build (r : RecordShape α) (ofParts : List α → Option β) (d : Data) : Reading β :=
  match r.read d with
  | .error e => .error e
  | .ok ps =>
    match ofParts ps with
    | some x => .ok x
    | none => .error .malformed

def ParameterSnapshot.read (d : Data) : Reading ParameterSnapshot :=
  RecordShape.build shape ofParts d

namespace FieldSnapshot

inductive Part where
  | name (s : String)
  | modifiers (m : Modifiers)
  | type (r : RefSnapshot)

def shape : RecordShape Part where
  name := "FieldSnapshot"
  fields := [
    ⟨"name", true, fun d => d.readString.map .name⟩,
    ⟨"modifiers", false, fun d => (Modifiers.read d).map .modifiers⟩,
    ⟨"ty", true, fun d => (RefSnapshot.read 6 d).map .type⟩]
  strict := false
  bounded := true

def ofParts (ps : List Part) : Option FieldSnapshot := do
  let name ← ps.findSome? fun | .name s => some s | _ => none
  let type ← ps.findSome? fun | .type r => some r | _ => none
  let modifiers := ps.findSome? fun | .modifiers m => some m | _ => none
  return ⟨name, modifiers.getD .none, type⟩

def read (d : Data) : Reading FieldSnapshot := RecordShape.build shape ofParts d

end FieldSnapshot

namespace MethodSnapshot

inductive Part where
  | name (s : String)
  | modifiers (m : Modifiers)
  | returnType (r : RefSnapshot)
  | parameters (ps : List ParameterSnapshot)

def shape : RecordShape Part where
  name := "MethodSnapshot"
  fields := [
    ⟨"name", true, fun d => d.readString.map .name⟩,
    ⟨"modifiers", false, fun d => (Modifiers.read d).map .modifiers⟩,
    ⟨"return_type", true, fun d => (RefSnapshot.read 6 d).map .returnType⟩,
    ⟨"parameters", false, fun d => (d.readList ParameterSnapshot.read).map .parameters⟩]
  strict := false
  bounded := true

def ofParts (ps : List Part) : Option MethodSnapshot := do
  let name ← ps.findSome? fun | .name s => some s | _ => none
  let type ← ps.findSome? fun | .returnType r => some r | _ => none
  let modifiers := ps.findSome? fun | .modifiers m => some m | _ => none
  let parameters := ps.findSome? fun | .parameters xs => some xs | _ => none
  return ⟨name, modifiers.getD .none, type, parameters.getD []⟩

def read (d : Data) : Reading MethodSnapshot := RecordShape.build shape ofParts d

end MethodSnapshot

namespace ConstructorSnapshot

inductive Part where
  | modifiers (m : Modifiers)
  | parameters (ps : List ParameterSnapshot)

def shape : RecordShape Part where
  name := "ConstructorSnapshot"
  fields := [
    ⟨"modifiers", false, fun d => (Modifiers.read d).map .modifiers⟩,
    ⟨"parameters", false, fun d => (d.readList ParameterSnapshot.read).map .parameters⟩]
  strict := false
  bounded := true

def ofParts (ps : List Part) : Option ConstructorSnapshot :=
  let modifiers := ps.findSome? fun | .modifiers m => some m | _ => none
  let parameters := ps.findSome? fun | .parameters xs => some xs | _ => none
  some ⟨modifiers.getD .none, parameters.getD []⟩

def read (d : Data) : Reading ConstructorSnapshot := RecordShape.build shape ofParts d

end ConstructorSnapshot

namespace ClassSnapshot

inductive Part where
  | package (s : String)
  | simpleName (s : String)
  | modifiers (m : Modifiers)
  | isInterface (b : Bool)
  | isAnnotationType (b : Bool)
  | isUnresolved (b : Bool)
  | imports (ts : List String)
  | superclass (r : Option RefSnapshot)
  | interfaces (rs : List RefSnapshot)
  | fields (fs : List FieldSnapshot)
  | methods (ms : List MethodSnapshot)
  | constructors (ks : List ConstructorSnapshot)

def shape : RecordShape Part where
  name := "ClassSnapshot"
  fields := [
    ⟨"package", true, fun d => d.readString.map .package⟩,
    ⟨"simple_name", true, fun d => d.readString.map .simpleName⟩,
    ⟨"modifiers", false, fun d => (Modifiers.read d).map .modifiers⟩,
    ⟨"is_interface", false, fun d => d.readBoolean.map .isInterface⟩,
    ⟨"is_annotation_type", false, fun d => d.readBoolean.map .isAnnotationType⟩,
    ⟨"is_unresolved", false, fun d => d.readBoolean.map .isUnresolved⟩,
    ⟨"imports", false, fun d => (d.readList Data.readString).map .imports⟩,
    ⟨"superclass", false, fun d => (d.readOption (RefSnapshot.read 4)).map .superclass⟩,
    ⟨"interfaces", false, fun d => (d.readList (RefSnapshot.read 5)).map .interfaces⟩,
    ⟨"fields", false, fun d => (d.readList FieldSnapshot.read).map .fields⟩,
    ⟨"methods", false, fun d => (d.readList MethodSnapshot.read).map .methods⟩,
    ⟨"constructors", false, fun d => (d.readList ConstructorSnapshot.read).map .constructors⟩]
  strict := false
  bounded := true

def ofParts (ps : List Part) : Option ClassSnapshot := do
  let package ← ps.findSome? fun | .package s => some s | _ => none
  let simpleName ← ps.findSome? fun | .simpleName s => some s | _ => none
  let modifiers := ps.findSome? fun | .modifiers m => some m | _ => none
  let isInterface := ps.findSome? fun | .isInterface b => some b | _ => none
  let isAnnotationType := ps.findSome? fun | .isAnnotationType b => some b | _ => none
  let isUnresolved := ps.findSome? fun | .isUnresolved b => some b | _ => none
  let imports := ps.findSome? fun | .imports ts => some ts | _ => none
  let superclass := ps.findSome? fun | .superclass r => some r | _ => none
  let interfaces := ps.findSome? fun | .interfaces rs => some rs | _ => none
  let fields := ps.findSome? fun | .fields fs => some fs | _ => none
  let methods := ps.findSome? fun | .methods ms => some ms | _ => none
  let constructors := ps.findSome? fun | .constructors ks => some ks | _ => none
  return {
    package := package
    simpleName := simpleName
    modifiers := modifiers.getD .none
    isInterface := isInterface.getD false
    isAnnotationType := isAnnotationType.getD false
    isUnresolved := isUnresolved.getD false
    imports := imports.getD []
    superclass := superclass.getD none
    interfaces := interfaces.getD []
    fields := fields.getD []
    methods := methods.getD []
    constructors := constructors.getD [] }

def read (d : Data) : Reading ClassSnapshot := RecordShape.build shape ofParts d

end ClassSnapshot

inductive SnapshotError where
  | malformed
  | misfit (cause : Misfit)
  | schemaVersion (found : Nat)
  deriving DecidableEq, Repr

def SnapshotError.message? : SnapshotError → Option String
  | malformed => none
  | misfit m => some m.message
  | schemaVersion n =>
    some s!"unsupported snapshot schema version {n} (expected {ClassModel.schemaVersion})"

namespace Snapshot

inductive Part where
  | schemaVersion (n : Nat)
  | classes (cs : List ClassSnapshot)

def shape : RecordShape Part where
  name := "ModelSnapshot"
  fields := [
    ⟨"schema_version", true, fun d => (d.readUnsigned 32).map .schemaVersion⟩,
    ⟨"classes", true, fun d => (d.readList ClassSnapshot.read).map .classes⟩]
  strict := false
  bounded := true

def ofParts (ps : List Part) : Option Snapshot := do
  let version ← ps.findSome? fun | .schemaVersion n => some n | _ => none
  let classes ← ps.findSome? fun | .classes cs => some cs | _ => none
  return ⟨version, classes⟩

def read (d : Data) : Reading Snapshot := RecordShape.build shape ofParts d

def ofJson (text : String) : Except SnapshotError Snapshot :=
  let (d, surplus) := Json.ofText text
  match read d with
  | .error .malformed => .error .malformed
  | .error (.misfit m) => .error (.misfit m)
  | .ok s =>
    if surplus then .error .malformed
    else if s.schemaVersion = ClassModel.schemaVersion then .ok s
    else .error (.schemaVersion s.schemaVersion)

end Snapshot

end ClassModel
