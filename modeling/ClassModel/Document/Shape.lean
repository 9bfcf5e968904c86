import ClassModel.Document.Data
import ClassModel.Text.Quoted

/-!
# Shapes and misfits

What a reader may want at a place of a document, and the ways in which the document does not have
it. A value of the wrong kind is named by what it is; a number of the right kind that does not fit
is an invalid value.
-/

namespace ClassModel.Document

inductive Shape where
  | string
  | boolean
  | sequence
  | mapping
  | unit
  | unsigned (bits : Nat)
  | record (name : String)
  /-- A record written as a sequence of its fields. -/
  | fieldsOf (name : String) (count : Nat)
  | taggedChoice (name : String)
  /-- The name of a variant. -/
  | variantName
  deriving DecidableEq, Repr

def Shape.text : Shape → String
  | string => "a string"
  | boolean => "a boolean"
  | sequence => "a sequence"
  | mapping => "a map"
  | unit => "unit"
  | unsigned bits => s!"u{bits}"
  | record name => s!"struct {name}"
  | fieldsOf name count => s!"struct {name} with {count} element" ++ if count = 1 then "" else "s"
  | taggedChoice name => s!"adjacently tagged enum {name}"
  | variantName => "variant identifier"

inductive Found where
  | null
  | boolean (b : Bool)
  | integer (n : Int)
  | float (shown : String)
  | string (s : String)
  | sequence
  | mapping
  deriving DecidableEq, Repr

def Found.text : Found → String
  | null => "null"
  | boolean b => s!"boolean `{b}`"
  | integer n => s!"integer `{n}`"
  | float shown => s!"floating point `{shown}`"
  | string s => "string " ++ Text.quotedString s
  | sequence => "sequence"
  | mapping => "map"

inductive Misfit where
  | unknownField (name : String) (known : List String)
  | unknownVariant (name : String) (known : List String)
  | invalidType (found : Found) (wanted : Shape)
  | invalidValue (found : Found) (wanted : Shape)
  | invalidLength (length : Nat) (wanted : Shape)
  | missingField (name : String)
  | duplicateField (name : String)
  deriving DecidableEq, Repr

namespace Misfit

def inBackticks (s : String) : String := "`" ++ s ++ "`"

def expectation : List String → String
  | [] => "there are no fields"
  | [a] => "expected " ++ inBackticks a
  | [a, b] => "expected " ++ inBackticks a ++ " or " ++ inBackticks b
  | names => "expected one of " ++ ", ".intercalate (names.map inBackticks)

def message : Misfit → String
  | unknownField n known => s!"unknown field `{n}`, " ++ expectation known
  | unknownVariant n known => s!"unknown variant `{n}`, " ++ expectation known
  | invalidType f w => s!"invalid type: {f.text}, expected {w.text}"
  | invalidValue f w => s!"invalid value: {f.text}, expected {w.text}"
  | invalidLength n w => s!"invalid length {n}, expected {w.text}"
  | missingField n => s!"missing field `{n}`"
  | duplicateField n => s!"duplicate field `{n}`"

end Misfit

inductive ReadError where
  | malformed
  | misfit (cause : Misfit)
  deriving DecidableEq, Repr

abbrev Reading := Except ReadError

namespace Data

/-- The error of a reader who wants something else than this value. Of an array or a map only the
opening has been looked at. -/
def misfit (wanted : Shape) : Data → ReadError
  | null => .misfit (.invalidType .null wanted)
  | boolean b => .misfit (.invalidType (.boolean b) wanted)
  | integer n => .misfit (.invalidType (.integer n) wanted)
  | float shown => .misfit (.invalidType (.float shown) wanted)
  | string s => .misfit (.invalidType (.string s) wanted)
  | array _ _ => .misfit (.invalidType .sequence wanted)
  | map _ _ => .misfit (.invalidType .mapping wanted)
  | faulty _ => .malformed

def readString : Data → Reading String
  | string s => .ok s
  | d => .error (d.misfit .string)

def readBoolean : Data → Reading Bool
  | boolean b => .ok b
  | d => .error (d.misfit .boolean)

def readUnsigned (bits : Nat) : Data → Reading Nat
  | integer n =>
    if 0 ≤ n ∧ n.toNat < Nat.pow 2 bits then .ok n.toNat
    else .error (.misfit (.invalidValue (.integer n) (.unsigned bits)))
  | d => .error (d.misfit (.unsigned bits))

def readNull : Data → Reading Unit
  | null => .ok ()
  | d => .error (d.misfit .unit)

def readOption (read : Data → Reading α) : Data → Reading (Option α)
  | null => .ok none
  | d => (read d).map some

def readEach (read : Data → Reading α) : List Data → Reading (List α)
  | [] => .ok []
  | d :: ds =>
    match read d with
    | .error e => .error e
    | .ok x => (readEach read ds).map (x :: ·)

def uncut (cut : Option Fault) (x : α) : Reading α :=
  if cut.isSome then .error .malformed else .ok x

def readList (read : Data → Reading α) : Data → Reading (List α)
  | array items cut =>
    match readEach read items with
    | .error e => .error e
    | .ok xs => uncut cut xs
  | d => .error (d.misfit .sequence)

end Data

end ClassModel.Document
