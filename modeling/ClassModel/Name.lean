import ClassModel.Text.IdentifierChars
import ClassModel.Text.Quoted

/-!
# Names

A class name is a run of identifier characters and single dots that begins with an identifier
start and does not end in a dot. A segment behind a dot may begin with any identifier character.
Checking stops at the first character after which no name can come about any more; a text that is
only unfinished is reported as empty or as ending in a dot.
-/

namespace ClassModel

inductive NameFault where
  | empty
  | badStart (c : Char)
  | illegal (c : Char)
  | doubleDot
  | trailingDot
  deriving DecidableEq, Repr

structure InvalidName where
  name : String
  fault : NameFault
  deriving DecidableEq, Repr

def NameFault.message : NameFault → String
  | .empty => "name is empty"
  | .badStart c => "invalid first character " ++ Text.quotedChar c
  | .illegal c => "illegal character " ++ Text.quotedChar c
  | .doubleDot => "`..` is not allowed"
  | .trailingDot => "`.` is not allowed at the end"

def InvalidName.message (e : InvalidName) : String :=
  s!"invalid class name `{e.name}`: {e.fault.message}"

namespace Name

open Text

def faultBehind (prev : Char) : List Char → Option NameFault
  | [] => if prev = '.' then some .trailingDot else none
  | c :: cs =>
    if c = '.' then
      if prev = '.' then some .doubleDot else faultBehind c cs
    else if isIdentifierPart c then faultBehind c cs
    else some (.illegal c)

def fault? : List Char → Option NameFault
  | [] => some .empty
  | c :: cs => if isIdentifierStart c then faultBehind c cs else some (.badStart c)

def checkClassName (name : String) : Except InvalidName Unit :=
  match fault? name.toList with
  | none => .ok ()
  | some f => .error ⟨name, f⟩

def checkIdentifier (name : String) : Except InvalidName Unit :=
  match fault? name.toList with
  | none => if '.' ∈ name.toList then .error ⟨name, .illegal '.'⟩ else .ok ()
  | some f => .error ⟨name, f⟩

/-- The empty package name stands for the default package. -/
def checkPackageName (name : String) : Except InvalidName Unit :=
  if name.isEmpty then .ok () else checkClassName name

def splitAtLastDot : List Char → Option (List Char × List Char)
  | [] => none
  | c :: cs =>
    match splitAtLastDot cs with
    | some (front, back) => some (c :: front, back)
    | none => if c = '.' then some ([], cs) else none

/-- A class of the default package goes by its simple name. -/
def qualify (package simpleName : String) : String :=
  if package.isEmpty then simpleName else package ++ "." ++ simpleName

def simpleNameOf (name : String) : String :=
  match splitAtLastDot name.toList with
  | some (_, back) => String.ofList back
  | none => name

def packageOf (name : String) : String :=
  match splitAtLastDot name.toList with
  | some (front, _) => String.ofList front
  | none => ""

end Name

end ClassModel
