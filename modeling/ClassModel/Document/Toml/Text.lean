import ClassModel.Document.Toml.Scalar
import ClassModel.Document.Toml.Table

/-!
# TOML texts

Reading a TOML 1.0 text into a document, or finding that it is none. Arrays and inline tables nest
less than 80 levels deep, and a dotted key has fewer than 80 parts. Tables are in the order in
which they came to be.
-/

namespace ClassModel.Document.Toml

def depthLimit : Nat := 80

/-! ## Keys -/

def isKeyChar (c : Char) : Bool := c.isAlphanum || c == '-' || c == '_'

def simpleKey (cs : List Char) : Option (String × List Char) :=
  match cs with
  | '"' :: _ | '\'' :: _ => lineString cs
  | _ =>
    match cs.takeWhile isKeyChar with
    | [] => none
    | ks => some (String.ofList ks, cs.dropWhile isKeyChar)

/-- The parts of a dotted key; `n` bounds their number. -/
def keyParts : Nat → Scan (List String)
  | 0, _ => none
  | n + 1, cs =>
    (simpleKey (skipSpaces cs)).bind fun (key, cs) =>
      match skipSpaces cs with
      | '.' :: rest => (keyParts n rest).map fun (keys, rest) => (key :: keys, rest)
      | rest => some ([key], rest)

def dottedKey (cs : List Char) : Option ((List String × String) × List Char) :=
  (keyParts (depthLimit - 1) cs).bind fun (keys, rest) =>
    keys.getLast?.map fun key => ((keys.dropLast, key), rest)

/-! ## Blanks between the parts of an array -/

def skipComment : List Char → List Char
  | '#' :: rest => rest.dropWhile isPlain
  | cs => cs

def skipGaps : Nat → Scan Unit
  | 0, _ => none
  | n + 1, cs =>
    match skipSpaces cs with
    | '#' :: rest => (newline? (rest.dropWhile isPlain)).bind (skipGaps n)
    | cs =>
      match newline? cs with
      | some rest => skipGaps n rest
      | none => some ((), cs)

/-! ## Values -/

def inlineTable (pairs : List ((List String × String) × Data)) : Option Data :=
  (pairs.foldlM (fun (t : Table) ((path, key), d) => t.insert path key d) Table.empty).map Table.data

mutual

/-- The value at the front, with at most `levels` brackets around another. Every step takes a
character, so the bound `n` is never met if it is larger than the text. -/
def value : Nat → Nat → Scan Data
  | 0, _, _ => none
  | n + 1, levels, cs =>
    match cs with
    | '[' :: rest =>
      match levels with
      | 0 => none
      | inner + 1 => (arrayItems n inner rest).map fun (ds, rest) => (.ofItems ds, rest)
    | '\x7b' :: rest =>
      match levels with
      | 0 => none
      | inner + 1 =>
        match skipSpaces rest with
        | '\x7d' :: rest => some (.ofEntries [], rest)
        | _ =>
          (inlinePairs n inner rest).bind fun (pairs, rest) =>
            (inlineTable pairs).map (·, rest)
    | _ => scalar cs

def arrayItems : Nat → Nat → Scan (List Data)
  | 0, _, _ => none
  | n + 1, levels, cs =>
    match skipGaps (cs.length + 1) cs with
    | none => none
    | some ((), ']' :: rest) => some ([], rest)
    | some ((), cs) =>
      match value n levels cs with
      | none => none
      | some (d, rest) =>
        match skipGaps (rest.length + 1) rest with
        | some ((), ',' :: rest) =>
          (arrayItems n levels rest).map fun (ds, rest) => (d :: ds, rest)
        | some ((), ']' :: rest) => some ([d], rest)
        | _ => none

def inlinePairs : Nat → Nat → Scan (List ((List String × String) × Data))
  | 0, _, _ => none
  | n + 1, levels, cs =>
    match dottedKey cs with
    | some (key, '=' :: rest) =>
      match value n levels (skipSpaces rest) with
      | none => none
      | some (d, rest) =>
        match skipSpaces rest with
        | ',' :: rest => (inlinePairs n levels rest).map fun (es, rest) => ((key, d) :: es, rest)
        | '\x7d' :: rest => some ([(key, d)], rest)
        | _ => none
    | _ => none

end

/-! ## Lines -/

def lineEnd? (cs : List Char) : Option (List Char) :=
  match skipComment (skipSpaces cs) with
  | [] => some []
  | cs => newline? cs

def header? (cs : List Char) : Option ((List String × String × Bool) × List Char) :=
  match cs with
  | '[' :: '[' :: rest =>
    match dottedKey rest with
    | some ((path, key), ']' :: ']' :: rest) => some ((path, key, true), rest)
    | _ => none
  | '[' :: rest =>
    match dottedKey rest with
    | some ((path, key), ']' :: rest) => some ((path, key, false), rest)
    | _ => none
  | _ => none

def addLine (a : Assembly) (cs : List Char) : Option (Assembly × List Char) :=
  match cs with
  | '[' :: _ => do
    let ((path, key, double), rest) ← header? cs
    let a ← a.addHeader path key double
    let rest ← lineEnd? rest
    some (a, rest)
  | c :: _ =>
    if c = '#' ∨ c = '\n' ∨ c = '\r' then (lineEnd? cs).map (a, ·)
    else
      match dottedKey cs with
      | some ((path, key), '=' :: rest) => do
        let rest := skipSpaces rest
        let (d, rest) ← value (2 * rest.length + 2) (depthLimit - 1) rest
        let rest ← lineEnd? rest
        let a ← a.addValue path key d
        some (a, rest)
      | _ => none
  | [] => some (a, [])

def addLines : Nat → Assembly → List Char → Option Assembly
  | 0, _, _ => none
  | n + 1, a, cs =>
    match skipSpaces cs with
    | [] => some a
    | cs => (addLine a cs).bind fun (a, rest) => addLines n a rest

def ofText? (text : String) : Option Data :=
  let cs := match text.toList with
    | '\ufeff' :: rest => rest
    | cs => cs
  ((addLines (cs.length + 1) .start cs).bind Assembly.finish).map Table.data

end ClassModel.Document.Toml
