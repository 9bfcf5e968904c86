import ClassModel.Document.Shape

/-!
# Records

A record is written as a map from the names of its fields or as an array of its fields in order.
Reading goes through the document in order and stops at the first thing wrong; a field that is
missing is noticed at the end. The result is the list of the fields that were there, each at most
once, from which the record is put together.
-/

namespace ClassModel.Document

structure FieldShape (α : Type) where
  name : String
  required : Bool
  read : Data → Reading α

/-- A strict record refuses unknown names. A bounded one refuses an array with too many items. -/
structure RecordShape (α : Type) where
  name : String
  fields : List (FieldShape α)
  strict : Bool
  bounded : Bool

namespace RecordShape

variable {α : Type}

def fieldNames (r : RecordShape α) : List String := r.fields.map (·.name)

def field? (r : RecordShape α) (name : String) : Option (FieldShape α) :=
  r.fields.find? (·.name == name)

/-- The fields among the entries, given the names that have been there before. A name is looked at
before the value behind it. -/
def readEntries (r : RecordShape α) (seen : List String) : List (String × Data) → Reading (List α)
  | [] => .ok []
  | (key, value) :: rest =>
    match r.field? key with
    | none =>
      if r.strict then .error (.misfit (.unknownField key r.fieldNames))
      else if value.skippable then readEntries r seen rest
      else .error .malformed
    | some f =>
      if key ∈ seen then .error (.misfit (.duplicateField key))
      else
        match f.read value with
        | .error e => .error e
        | .ok x => (readEntries r (key :: seen) rest).map (x :: ·)

def missing? (r : RecordShape α) (entries : List (String × Data)) : Option String :=
  (r.fields.find? fun f => f.required && !entries.any (·.1 == f.name)).map (·.name)

def readItems (r : RecordShape α) (cut : Option Fault) :
    Nat → List (FieldShape α) → List Data → Reading (List α)
  | _, [], rest => if r.bounded && !rest.isEmpty then .error .malformed else Data.uncut cut []
  | i, f :: fs, d :: ds =>
    match f.read d with
    | .error e => .error e
    | .ok x => (readItems r cut (i + 1) fs ds).map (x :: ·)
  | i, f :: fs, [] =>
    if cut.isSome then .error .malformed
    else if f.required then .error (.misfit (.invalidLength i (.fieldsOf r.name r.fields.length)))
    else readItems r cut (i + 1) fs []

def read (r : RecordShape α) : Data → Reading (List α)
  | .map entries cut =>
    match r.readEntries [] entries with
    | .error e => .error e
    | .ok xs =>
      match Data.uncut cut xs with
      | .error e => .error e
      | .ok xs =>
        match r.missing? entries with
        | some name => .error (.misfit (.missingField name))
        | none => .ok xs
  | .array items cut => r.readItems cut 0 r.fields items
  | d => .error (d.misfit (.record r.name))

end RecordShape

end ClassModel.Document
