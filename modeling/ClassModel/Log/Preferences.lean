import ClassModel.Log.Filter
import ClassModel.Text.Blank

/-!
# Logging preferences

The logging part of a configuration: a level, levels of single targets, and the output form. A
plain level is about this library's own targets, everything else stays at warnings; any other text
is taken for a filter as it stands. The levels of single targets are put behind it in the order of
the targets. A filter from the environment comes last, so it wins where it says something. Without
one, preferences that come to no directive at all let errors through.
-/

namespace ClassModel.Log

structure Preferences where
  level : String
  /-- In ascending order of the targets, each target once. -/
  targets : List (String × String)
  json : Bool
  deriving DecidableEq, Repr

inductive PreferenceFault where
  | unknownLevel (target level : String)
  | malformedFilter
  deriving DecidableEq, Repr

def PreferenceFault.message : PreferenceFault → String
  | .unknownLevel t l => s!"invalid config: logging.targets.{t}: unknown level `{l}`"
  | .malformedFilter => "invalid config: logging.level"

/-- A level as preferences spell it: blanks around it are ignored, and warnings have two words. -/
def plainLevel? (text : String) : Option Level :=
  let word := (Text.trim text).map Char.toLower
  if word = "warning" then some .warn else Level.ofWord? word

namespace Preferences

def standard : Preferences where
  level := "info"
  targets := []
  json := false

instance : Inhabited Preferences := ⟨standard⟩

def insertTarget (target level : String) : List (String × String) → List (String × String)
  | [] => [(target, level)]
  | (t, l) :: rest =>
    if target = t then (target, level) :: rest
    else if target < t then (target, level) :: (t, l) :: rest
    else (t, l) :: insertTarget target level rest

def baseText (p : Preferences) : String :=
  let text := Text.trim p.level
  match plainLevel? text with
  | some l => "warn,keystone=" ++ l.word
  | none => if text.isEmpty then "warn,keystone=info" else text

def targetTexts : List (String × String) → Except PreferenceFault (List String)
  | [] => .ok []
  | (t, l) :: rest =>
    match plainLevel? l with
    | none => .error (.unknownLevel t l)
    | some level => (targetTexts rest).map (("," ++ t ++ "=" ++ level.word) :: ·)

def directives (p : Preferences) : Except PreferenceFault String :=
  match targetTexts p.targets with
  | .error e => .error e
  | .ok texts =>
    let text := p.baseText ++ String.join texts
    match Filter.parse? text with
    | none => .error .malformedFilter
    | some _ => .ok text

/-- The text in force: malformed preferences count as none. -/
def configuredText (p : Preferences) : String :=
  match p.directives with
  | .ok text => text
  | .error _ => "warn,keystone=info"

def configuredFilter (p : Preferences) : Filter :=
  match (Filter.parse? p.configuredText).getD [] with
  | [] => [⟨none, .error⟩]
  | ds => ds

def filter (p : Preferences) (environment : Option String) : Filter :=
  match environment.map Text.trim with
  | none => p.configuredFilter
  | some value =>
    if value.isEmpty then p.configuredFilter
    else (Filter.parse? (p.configuredText ++ "," ++ value)).getD p.configuredFilter

end Preferences

end ClassModel.Log
