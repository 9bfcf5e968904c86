import ClassModel.Name
import ClassModel.Text.Blank

/-!
# Imports

An import names one class, `a.b.C`, or everything below a name, `a.b.*`. Its text may stand
between blanks. Reading checks the name, but an import can also be made from any text.
-/

namespace ClassModel

inductive Import where
  | single (path : String)
  | onDemand (path : String)
  deriving DecidableEq, Repr

namespace Import

def beforeStar? (cs : List Char) : Option (List Char) :=
  match cs.reverse with
  | '*' :: '.' :: rest => some rest.reverse
  | _ => none

def parse (text : String) : Except InvalidName Import :=
  let cs := Text.trimChars text.toList
  match beforeStar? cs with
  | some front =>
    let path := String.ofList front
    (Name.checkClassName path).map fun _ => onDemand path
  | none =>
    let path := String.ofList cs
    (Name.checkClassName path).map fun _ => single path

def parseAll : List String → Except InvalidName (List Import)
  | [] => .ok []
  | t :: ts =>
    match parse t with
    | .error e => .error e
    | .ok i => (parseAll ts).map (i :: ·)

def path : Import → String
  | single p => p
  | onDemand p => p

def importedName? : Import → Option String
  | single p => some (Name.simpleNameOf p)
  | onDemand _ => none

def isOnDemand : Import → Bool
  | single _ => false
  | onDemand _ => true

def text : Import → String
  | single p => p
  | onDemand p => p ++ ".*"

end Import

end ClassModel
