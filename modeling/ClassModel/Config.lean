import ClassModel.Document.Record
import ClassModel.Document.Toml.Text
import ClassModel.Log.Event
import ClassModel.Log.Preferences
import ClassModel.Settings

/-!
# Configuration

A configuration file holds the settings of a model and the logging preferences, both with standard
values for whatever it leaves out, and nothing else. The settings are checked before the
preferences. A configuration without default packages is legal but worth an event.
-/

namespace ClassModel

open Document Log

structure Config where
  model : Settings
  logging : Preferences
  deriving DecidableEq, Repr

inductive FileContents where
  | missing
  | directory
  | bytes (content : ByteArray)

inductive FileFault where
  | missing
  | directory
  | notText
  deriving DecidableEq, Repr

inductive ConfigError where
  | file (path : String) (cause : FileFault)
  | malformed
  | misfit (cause : Misfit)
  | settings (cause : Settings.Fault)
  | logging (cause : PreferenceFault)
  deriving DecidableEq, Repr

def ConfigError.message? : ConfigError → Option String
  | file _ _ => none
  | malformed => none
  | misfit m => some ("failed to parse toml config: " ++ m.message)
  | settings f => some f.message
  | logging f => some f.message

namespace Settings

inductive Part where
  | rootClass (s : String)
  | defaultPackages (ps : List String)
  | defaultMemberPrefix (s : String)
  | defaultFieldType (s : String)
  | defaultReturnType (s : String)

def field (key : Key) (read : Data → Reading Part) : FieldShape Part := ⟨key.text, false, read⟩

def shape : RecordShape Part where
  name := "ModelSettings"
  fields := [
    field .rootClass fun d => d.readString.map .rootClass,
    field .defaultPackages fun d => (d.readList Data.readString).map .defaultPackages,
    field .defaultMemberPrefix fun d => d.readString.map .defaultMemberPrefix,
    field .defaultFieldType fun d => d.readString.map .defaultFieldType,
    field .defaultReturnType fun d => d.readString.map .defaultReturnType]
  strict := true
  bounded := false

def withPart (s : Settings) : Part → Settings
  | .rootClass c => { s with rootClass := c }
  | .defaultPackages ps => { s with defaultPackages := ps }
  | .defaultMemberPrefix p => { s with defaultMemberPrefix := p }
  | .defaultFieldType t => { s with defaultFieldType := t }
  | .defaultReturnType t => { s with defaultReturnType := t }

def read (d : Data) : Reading Settings := (shape.read d).map (·.foldl withPart standard)

end Settings

namespace Log.Preferences

inductive Part where
  | level (s : String)
  | targets (ts : List (String × String))
  | json (b : Bool)

def readTargetEntries : List (String × Data) → Reading (List (String × String))
  | [] => .ok []
  | (t, d) :: rest =>
    match d.readString with
    | .error e => .error e
    | .ok l => (readTargetEntries rest).map ((t, l) :: ·)

/-- Targets in ascending order; of two equal ones the later counts. -/
def ofEntries (entries : List (String × String)) : List (String × String) :=
  entries.foldl (fun ts (t, l) => insertTarget t l ts) []

def readTargets : Data → Reading (List (String × String))
  | .map entries cut => ((readTargetEntries entries).map ofEntries).bind (Data.uncut cut)
  | d => .error (d.misfit .mapping)

def shape : RecordShape Part where
  name := "LoggingConfig"
  fields := [
    ⟨"level", false, fun d => d.readString.map .level⟩,
    ⟨"targets", false, fun d => (readTargets d).map .targets⟩,
    ⟨"json", false, fun d => d.readBoolean.map .json⟩]
  strict := true
  bounded := false

def withPart (p : Preferences) : Part → Preferences
  | .level l => { p with level := l }
  | .targets ts => { p with targets := ts }
  | .json b => { p with json := b }

def read (d : Data) : Reading Preferences := (shape.read d).map (·.foldl withPart standard)

end Log.Preferences

namespace Config

def standard : Config := ⟨.standard, .standard⟩

inductive Part where
  | model (s : Settings)
  | logging (p : Preferences)

def shape : RecordShape Part where
  name := "Config"
  fields := [
    ⟨"model", false, fun d => (Settings.read d).map .model⟩,
    ⟨"logging", false, fun d => (Preferences.read d).map .logging⟩]
  strict := true
  bounded := false

def withPart (c : Config) : Part → Config
  | .model s => { c with model := s }
  | .logging p => { c with logging := p }

def read (d : Data) : Reading Config := (shape.read d).map (·.foldl withPart standard)

def check (c : Config) : Except ConfigError (List Event) :=
  match c.model.check with
  | .error f => .error (.settings f)
  | .ok () =>
    match c.logging.directives with
    | .error f => .error (.logging f)
    | .ok _ => .ok (if c.model.defaultPackages.isEmpty then [.noDefaultPackages] else [])

def ofText (text : String) : Except ConfigError (Config × List Event) :=
  match Toml.ofText? text with
  | none => .error .malformed
  | some d =>
    match read d with
    | .error .malformed => .error .malformed
    | .error (.misfit m) => .error (.misfit m)
    | .ok c => c.check.map (c, ·)

def ofFile (path : String) : FileContents → Except ConfigError (Config × List Event)
  | .missing => .error (.file path .missing)
  | .directory => .error (.file path .directory)
  | .bytes content =>
    match String.fromUTF8? content with
    | none => .error (.file path .notText)
    | some text => ofText text

end Config

end ClassModel
