import ClassModel.Document.Data
import ClassModel.Number.Notation

/-!
# JSON texts

Reading a JSON text into a document. Where the text stops being JSON the document has a fault. A
string with half a surrogate pair, and a number too large for a floating-point number, have the
form of a value but cannot be read.

A whole number that fits into 64 bits is an integer; any other number, minus zero included, is a
floating-point number. Its digits are gathered into 64 bits, as many as fit, and then scaled by the
power of ten, with a rounding at each step.
-/

namespace ClassModel.Document.Json

open Number

def isSpace (c : Char) : Bool := c == ' ' || c == '\n' || c == '\t' || c == '\r'

def skipSpaces (cs : List Char) : List Char := cs.dropWhile isSpace

/-! ## Numbers -/

def digit (c : Char) : Nat := c.toNat - 48

def largestWord : Nat := Nat.pow 2 64 - 1

/-- The leading digits whose value fits into a word, and the digits that are left. -/
def gather (value : Nat) : List Char → Nat × List Char
  | [] => (value, [])
  | c :: cs =>
    let next := 10 * value + digit c
    if next ≤ largestWord then gather next cs else (value, c :: cs)

/-- The digits scaled by a power of ten. A power beyond the range is applied in steps. -/
def scaleDigits (e : Int) : Nat → Double → Option Double
  | 0, x => some x
  | n + 1, x =>
    if e.natAbs ≤ 308 then
      (Double.ofDecimal? 1 e.natAbs).bind fun p => if 0 ≤ e then x.mul? p else x.div? p
    else if x.mantissa = 0 then some x
    else if 0 ≤ e then none
    else
      ((Double.ofDecimal? 1 308).bind x.div?).bind (scaleDigits (e + 308) n)

/-- The parts of a number: its whole digits, the digits behind the point, and the exponent. -/
structure Numeral where
  negative : Bool
  whole : List Char
  fraction : List Char
  exponent : Option (Bool × List Char)

namespace Numeral

def isWhole (n : Numeral) : Bool := n.fraction.isEmpty && n.exponent.isNone

/-- Digits that do not fit count by their places if they are whole, and not at all otherwise. -/
def significand (n : Numeral) : Nat × Int :=
  match gather 0 n.whole with
  | (value, []) =>
    let (v, rest) := gather value n.fraction
    (v, -((n.fraction.length - rest.length : Nat) : Int))
  | (value, rest) =>
    if n.fraction.isEmpty then (value, rest.length)
    else
      -- A point behind digits that did not fit: digits of the fraction are gathered on.
      let (v, left) := gather value n.fraction
      (v, (rest.length : Int) - ((n.fraction.length - left.length : Nat) : Int))

def value (ds : List Char) : Nat := ds.foldl (fun v c => 10 * v + digit c) 0

def double? (n : Numeral) : Option Double :=
  let (v, places) := n.significand
  match n.exponent with
  | none => (Double.round? v 1).bind (scaleDigits places 8)
  | some (down, ds) =>
    let e := value ds
    if Nat.pow 2 31 ≤ e then if v = 0 ∨ down then some Double.zero else none
    else
      let scale := places + (if down then -(e : Int) else (e : Int))
      (Double.round? v 1).bind (scaleDigits scale 8)

def data (n : Numeral) : Data :=
  let v := value n.whole
  if n.isWhole && !n.negative && v ≤ largestWord then .integer v
  else if n.isWhole && n.negative && 0 < v && v ≤ Nat.pow 2 63 then .integer (-(v : Int))
  else
    match n.double? with
    | some x => .float (Style.compact.show n.negative x)
    | none => .faulty .unreadable

end Numeral

def digits? (cs : List Char) : Option (List Char × List Char) :=
  match cs.takeWhile Char.isDigit with
  | [] => none
  | ds => some (ds, cs.dropWhile Char.isDigit)

/-- Whole digits do not begin with a zero, unless that is all. -/
def whole? (cs : List Char) : Option (List Char × List Char) :=
  match digits? cs with
  | some ('0' :: _ :: _, _) => none
  | r => r

def fraction? (cs : List Char) : Option (List Char × List Char) :=
  match cs with
  | '.' :: rest => digits? rest
  | _ => some ([], cs)

def exponent? (cs : List Char) : Option (Option (Bool × List Char) × List Char) :=
  let signed (rest : List Char) : Option (Option (Bool × List Char) × List Char) :=
    match rest with
    | '-' :: r => (digits? r).map fun (ds, r) => (some (true, ds), r)
    | '+' :: r => (digits? r).map fun (ds, r) => (some (false, ds), r)
    | r => (digits? r).map fun (ds, r) => (some (false, ds), r)
  match cs with
  | 'e' :: rest => signed rest
  | 'E' :: rest => signed rest
  | _ => some (none, cs)

def numeral? (cs : List Char) : Option (Numeral × List Char) :=
  let (negative, cs) := match cs with
    | '-' :: rest => (true, rest)
    | _ => (false, cs)
  match whole? cs with
  | none => none
  | some (whole, cs) =>
    match fraction? cs with
    | none => none
    | some (fraction, cs) =>
      (exponent? cs).map fun (exponent, cs) => (⟨negative, whole, fraction, exponent⟩, cs)

/-! ## Strings -/

def hexValue? (c : Char) : Option Nat :=
  if '0' ≤ c ∧ c ≤ '9' then some (c.toNat - 48)
  else if 'a' ≤ c ∧ c ≤ 'f' then some (c.toNat - 87)
  else if 'A' ≤ c ∧ c ≤ 'F' then some (c.toNat - 55)
  else none

def hexQuad? : List Char → Option (Nat × List Char)
  | a :: b :: c :: d :: rest =>
    match hexValue? a, hexValue? b, hexValue? c, hexValue? d with
    | some a, some b, some c, some d => some (((a * 16 + b) * 16 + c) * 16 + d, rest)
    | _, _, _, _ => none
  | _ => none

def simpleEscape? : Char → Option Char
  | '"' => some '"'
  | '\\' => some '\\'
  | '/' => some '/'
  | 'b' => some '\x08'
  | 'f' => some '\x0c'
  | 'n' => some '\n'
  | 'r' => some '\r'
  | 't' => some '\t'
  | _ => none

/-- Something read from the front of a text: it may be there but unreadable. -/
inductive Piece (α : Type) where
  | good (x : α) (rest : List Char)
  | unreadable (rest : List Char)
  | broken

def isHighSurrogate (n : Nat) : Bool := 0xd800 ≤ n && n < 0xdc00

def isLowSurrogate (n : Nat) : Bool := 0xdc00 ≤ n && n < 0xe000

def codeUnits (cs : List Char) : Piece Char :=
  match hexQuad? cs with
  | none => .broken
  | some (n, rest) =>
    if isHighSurrogate n then
      match rest with
      | '\\' :: 'u' :: more =>
        match hexQuad? more with
        | some (m, rest') =>
          if isLowSurrogate m then
            .good (Char.ofNat (0x10000 + (n - 0xd800) * 0x400 + (m - 0xdc00))) rest'
          else .unreadable rest
        | none => .unreadable rest
      | _ => .unreadable rest
    else if isLowSurrogate n then .unreadable rest
    else .good (Char.ofNat n) rest

/-- The rest of a string behind its opening quote. `n` bounds the number of characters. -/
def stringBody : Nat → List Char → Piece (List Char)
  | 0, _ => .broken
  | _ + 1, [] => .broken
  | _ + 1, '"' :: rest => .good [] rest
  | n + 1, '\\' :: 'u' :: rest =>
    match codeUnits rest with
    | .broken => .broken
    | .unreadable rest =>
      match stringBody n rest with
      | .broken => .broken
      | .good _ rest => .unreadable rest
      | .unreadable rest => .unreadable rest
    | .good c rest => prepend c (stringBody n rest)
  | n + 1, '\\' :: c :: rest =>
    match simpleEscape? c with
    | some c => prepend c (stringBody n rest)
    | none => .broken
  | n + 1, c :: rest => if c.toNat < 0x20 then .broken else prepend c (stringBody n rest)
where
  prepend (c : Char) : Piece (List Char) → Piece (List Char)
    | .good s rest => .good (c :: s) rest
    | p => p

def string (cs : List Char) : Piece String :=
  match stringBody (cs.length + 1) cs with
  | .good s rest => .good (String.ofList s) rest
  | .unreadable rest => .unreadable rest
  | .broken => .broken

/-! ## Values -/

abbrev Scan (α : Type) := α × Option (List Char)

def word (w : List Char) (d : Data) (cs : List Char) : Scan Data :=
  if w.isPrefixOf cs then (d, some (cs.drop w.length)) else (.faulty .malformed, none)

def scanNumber (cs : List Char) : Scan Data :=
  match numeral? cs with
  | some (n, rest) => (n.data, some rest)
  | none => (.faulty .malformed, none)

/-- Members, whether something cut them short, and the text behind the closing bracket. -/
structure Members (α : Type) where
  list : List α
  cut : Option Fault
  rest : Option (List Char)

namespace Members

def stop : Members α := ⟨[], some .malformed, none⟩

def cons (x : α) (m : Members α) : Members α := ⟨x :: m.list, m.cut, m.rest⟩

end Members

mutual

/-- The value at the front. Every step takes a character, so the bound `n` is never met if it is
larger than the text. -/
def value : Nat → List Char → Scan Data
  | 0, _ => (.faulty .malformed, none)
  | n + 1, cs =>
    match skipSpaces cs with
    | [] => (.faulty .malformed, none)
    | '"' :: rest =>
      match string rest with
      | .good s rest => (.string s, some rest)
      | .unreadable rest => (.faulty .unreadable, some rest)
      | .broken => (.faulty .malformed, none)
    | '[' :: rest =>
      match skipSpaces rest with
      | ']' :: rest => (.array [] none, some rest)
      | rest =>
        let m := items n rest
        (.array m.list m.cut, m.rest)
    | '\x7b' :: rest =>
      match skipSpaces rest with
      | '\x7d' :: rest => (.map [] none, some rest)
      | rest =>
        let m := entries n rest
        (.map m.list m.cut, m.rest)
    | c :: rest =>
      if c = 'n' then word ['n', 'u', 'l', 'l'] .null (c :: rest)
      else if c = 't' then word ['t', 'r', 'u', 'e'] (.boolean true) (c :: rest)
      else if c = 'f' then word ['f', 'a', 'l', 's', 'e'] (.boolean false) (c :: rest)
      else scanNumber (c :: rest)

def items : Nat → List Char → Members Data
  | 0, _ => .stop
  | n + 1, cs =>
    match skipSpaces cs with
    | ']' :: _ => .stop
    | cs =>
      match value n cs with
      | (d, none) => .cons d .stop
      | (d, some rest) =>
        match skipSpaces rest with
        | ',' :: rest => .cons d (items n rest)
        | ']' :: rest => ⟨[d], none, some rest⟩
        | _ => .cons d .stop

def entries : Nat → List Char → Members (String × Data)
  | 0, _ => .stop
  | n + 1, cs =>
    match skipSpaces cs with
    | '"' :: rest =>
      match string rest with
      | .broken => .stop
      | .unreadable rest =>
        -- Behind a key that cannot be read the entries only count for a reader who skips them.
        let m := entry n "" rest
        if m.cut == some .malformed then .stop
        else ⟨[], some .unreadable, m.rest⟩
      | .good key rest => entry n key rest
    | _ => .stop

def entry : Nat → String → List Char → Members (String × Data)
  | 0, _, _ => .stop
  | n + 1, key, cs =>
    match skipSpaces cs with
    | ':' :: rest =>
      match value n rest with
      | (d, none) => .cons (key, d) .stop
      | (d, some rest) =>
        match skipSpaces rest with
        | ',' :: rest => .cons (key, d) (entries n rest)
        | '\x7d' :: rest => ⟨[(key, d)], none, some rest⟩
        | _ => .cons (key, d) .stop
    | _ => .cons (key, .faulty .malformed) .stop

end

/-- The document that a text holds, and whether anything but blanks stands behind it. -/
def ofText (text : String) : Data × Bool :=
  let cs := text.toList
  match value (2 * cs.length + 2) cs with
  | (d, some rest) => (d, !(skipSpaces rest).isEmpty)
  | (d, none) => (d, true)

end ClassModel.Document.Json
