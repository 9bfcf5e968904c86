import ClassModel.Graph.Edit

/-!
# Sources

A loader that does not know a name asks its sources for it. What a source does about a name is a
program over its loader: it defines, edits and looks up classes, with every step free to depend on
the answers before it, and ends with a class or without one. Looking up may ask the sources again.

A source may behave differently every time, depending on what the sources of its loader have been
asked before. It says which names its programs may look up, and how far its classes may lengthen a
path of supertypes; these bounds say how deep a walk may go before it cannot be finite any more.
-/

namespace ClassModel

inductive Program where
  | answer (found : Option ClassId)
  | define (package simpleName : String) (imports : List Import)
      (next : Except ModelError ClassId → Program)
  /-- Makes a class that is not registered. -/
  | create (package simpleName : String) (lookup : Option Collaborator) (settings : Settings)
      (next : Except ModelError ClassId → Program)
  | edit (e : Edit) (next : Except ModelError Made → Program)
  | lookup (name : String) (next : Option ClassId → Program)
  | lookupDefault (name : String) (next : Option ClassId → Program)
  | load (name : String) (next : ClassId → Program)
  | placeholder (name : String) (next : ClassId → Program)
  | classes (next : List ClassId → Program)
  /-- Looks at a class as it is. -/
  | inspect (c : ClassId) (next : ClassNode → Program)

structure Source where
  /-- The program for a name, given what has been asked before, the latest first. -/
  program : List (Nat × String) → String → Program
  asks : List String
  height : Nat

end ClassModel
