/-!
# Documents

What a document says, whichever format it is written in: values with the entries of a map in the
order in which they were written, a key as often as it was written. A text may stop being a
document somewhere. That is kept as a fault at its place, so that a reader who goes through the
document in order meets what comes first, a value of the wrong shape or the end of sense.
-/

namespace ClassModel.Document

inductive Fault where
  /-- Nothing that follows makes sense. -/
  | malformed
  /-- What stands here passes for a value when it is skipped, but says nothing when it is read. -/
  | unreadable
  deriving DecidableEq, Repr

/-- A floating-point number is kept as it is shown. Behind its members, an array or a map may be
cut short by a fault. -/
inductive Data where
  | null
  | boolean (b : Bool)
  | integer (n : Int)
  | float (shown : String)
  | string (s : String)
  | array (items : List Data) (cut : Option Fault)
  | map (entries : List (String × Data)) (cut : Option Fault)
  | faulty (fault : Fault)
  deriving Repr, Inhabited

namespace Data

def ofItems (items : List Data) : Data := array items none

def ofEntries (entries : List (String × Data)) : Data := map entries none

mutual

def skippable : Data → Bool
  | null | boolean _ | integer _ | float _ | string _ => true
  | array items cut => skippableItems items && cut != some .malformed
  | map entries cut => skippableEntries entries && cut != some .malformed
  | faulty fault => fault != .malformed

def skippableItems : List Data → Bool
  | [] => true
  | d :: ds => d.skippable && skippableItems ds

def skippableEntries : List (String × Data) → Bool
  | [] => true
  | (_, d) :: es => d.skippable && skippableEntries es

end

mutual

def readable (depth : Nat) : Data → Bool
  | null | boolean _ | integer _ | float _ | string _ => true
  | array items cut =>
    match depth with
    | 0 => false
    | d + 1 => readableItems d items && cut.isNone
  | map entries cut =>
    match depth with
    | 0 => false
    | d + 1 => readableEntries d entries && cut.isNone
  | faulty _ => false

def readableItems (depth : Nat) : List Data → Bool
  | [] => true
  | d :: ds => d.readable depth && readableItems depth ds

def readableEntries (depth : Nat) : List (String × Data) → Bool
  | [] => true
  | (_, d) :: es => d.readable depth && readableEntries depth es

end

end Data

end ClassModel.Document
