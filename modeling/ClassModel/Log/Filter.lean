import ClassModel.Log.Level
import ClassModel.Text.Alphanumeric
import ClassModel.Text.Blank

/-!
# Filters

A filter is a list of directives. A directive with a target speaks about every event target that
begins with it, one without speaks about all. For an event the directive with the longest target
that applies decides, of equal ones the last; without any, nothing gets through.

A filter is written as directives between commas. A directive is a level, a target, or a target
and a level joined by an equals sign; a target alone lets everything through. Blanks are part of the word
they stand beside, so that a level beside one is a target; with an equals sign there may be none in
front.

A bracket that is not in a level opens a condition on spans and fields. What a directive with one says
about an event is not settled by the event's target, so texts with a bracket are not read here, and
what is said about filters is about texts without.
-/

namespace ClassModel.Log

structure Directive where
  target : Option String
  level : Level
  deriving DecidableEq, Repr

namespace Directive

def appliesTo (d : Directive) (event : String) : Bool :=
  match d.target with
  | none => true
  | some t => t.toList.isPrefixOf event.toList

def weight (d : Directive) : Nat :=
  match d.target with
  | none => 0
  | some t => t.length + 1

def beginsWell (c : Char) : Bool :=
  c == '-' || c == ':' || c == '_' || Text.isAlphanumeric c

/-- A piece without an equals sign: a level, or else a target. -/
def ofWord (word : String) : Directive :=
  match Level.ofText? word with
  | some l => ⟨none, l⟩
  | none => ⟨some word, .trace⟩

def ofPair? (target : String) (level : List Char) : Option Directive :=
  if level.isEmpty then some ⟨some target, .trace⟩
  else (Level.ofText? (String.ofList level)).map fun l => ⟨some target, l⟩

/-- None also for a piece with a bracket, which is not read. -/
def ofPiece? (cs : List Char) : Option Directive :=
  match cs.dropWhile Text.isBlank with
  | [] => none
  | c :: _ =>
    if !beginsWell c then none
    else
      let head := String.ofList (cs.takeWhile fun c => c != '=' && c != '[')
      match cs.dropWhile fun c => c != '=' && c != '[' with
      | [] => some (ofWord head)
      | '=' :: level => if cs.head? = some c then ofPair? head level else none
      | _ => none

end Directive

abbrev Filter := List Directive

namespace Filter

def pieces : List Char → List (List Char)
  | [] => [[]]
  | c :: cs =>
    match pieces cs with
    | [] => [[c]]
    | p :: ps => if c = ',' then [] :: p :: ps else (c :: p) :: ps

def ofPieces? : List (List Char) → Option Filter
  | [] => some []
  | p :: ps =>
    match Directive.ofPiece? p with
    | none => none
    | some d => (ofPieces? ps).map (d :: ·)

def parse? (text : String) : Option Filter :=
  ofPieces? ((pieces text.toList).filter (!·.isEmpty))

/-- The directive that decides about `event`; the later one of two with equal weight. -/
def deciding? : Filter → String → Option Directive
  | [], _ => none
  | d :: ds, event =>
    match deciding? ds event with
    | some e => if d.appliesTo event && e.weight < d.weight then some d else some e
    | none => if d.appliesTo event then some d else none

def level (f : Filter) (event : String) : Level :=
  match deciding? f event with
  | some d => d.level
  | none => .off

end Filter

end ClassModel.Log
