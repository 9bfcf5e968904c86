import ClassModel.Settings

/-!
# Errors of the model

Every way in which a change to the model, or a guarded walk over it, is refused. A name that does
not resolve is no error.
-/

namespace ClassModel

inductive ModelError where
  | invalidName (cause : InvalidName)
  /-- A class that the loader itself provides was to be changed. -/
  | builtinFixed (className : String)
  | classNameFixed (className : String)
  | invalidSettings (cause : Settings.Fault)
  | nameOfBuiltin (className : String)
  | alreadyDefined (className : String)
  | emptyInterfaceName
  | noSuchParameter (index length : Nat)
  | cyclicHierarchy (className : String)
  deriving DecidableEq, Repr

namespace ModelError

def message : ModelError → String
  | invalidName e => e.message
  | builtinFixed c => s!"unsupported mutation: builtin type `{c}` cannot be modified"
  | classNameFixed c => s!"unsupported mutation: class names cannot be changed (`{c}`)"
  | invalidSettings f => "illegal argument: " ++ f.message
  | nameOfBuiltin c => s!"illegal argument: `{c}` is a builtin type"
  | alreadyDefined c => s!"illegal argument: class `{c}` is already defined"
  | emptyInterfaceName => "illegal argument: empty interface name"
  | noSuchParameter i n => s!"illegal argument: parameter index {i} out of range (len {n})"
  | cyclicHierarchy c => s!"cyclic supertype hierarchy through `{c}`"

end ModelError

end ClassModel
