import ClassModel.Document.Data
import ClassModel.Number.Notation

/-!
# Scalars of TOML

Strings, numbers, truth values and points in time at the front of a text, each with the text
behind it. A point in time reads as a map with one entry, whose key cannot be mistaken for one
that somebody chose, and whose value is the time in its usual form.
-/

namespace ClassModel.Document.Toml

open Number

abbrev Scan (α : Type) := List Char → Option (α × List Char)

def isSpace (c : Char) : Bool := c == ' ' || c == '\t'

def skipSpaces (cs : List Char) : List Char := cs.dropWhile isSpace

def newline? : List Char → Option (List Char)
  | '\n' :: rest => some rest
  | '\r' :: '\n' :: rest => some rest
  | _ => none

/-- Characters of a line: everything but the controls, of which only the tabulator is allowed. -/
def isPlain (c : Char) : Bool := c == '\t' || (0x20 ≤ c.toNat && c.toNat != 0x7f)

/-! ## Strings -/

def hexValue? (c : Char) : Option Nat :=
  if '0' ≤ c ∧ c ≤ '9' then some (c.toNat - 48)
  else if 'a' ≤ c ∧ c ≤ 'f' then some (c.toNat - 87)
  else if 'A' ≤ c ∧ c ≤ 'F' then some (c.toNat - 55)
  else none

/-- The value of exactly `n` hexadecimal digits, added to those before them. -/
def hexRun (value : Nat) : Nat → Scan Nat
  | 0, cs => some (value, cs)
  | _ + 1, [] => none
  | n + 1, c :: cs => (hexValue? c).bind fun d => hexRun (16 * value + d) n cs

def isScalarValue (n : Nat) : Bool := n < 0xd800 || (0xe000 ≤ n && n < 0x110000)

def codePoint (digits : Nat) : Scan Char := fun cs =>
  (hexRun 0 digits cs).bind fun (n, rest) =>
    if isScalarValue n then some (Char.ofNat n, rest) else none

def escape? : Scan Char
  | 'b' :: rest => some ('\x08', rest)
  | 'f' :: rest => some ('\x0c', rest)
  | 'n' :: rest => some ('\n', rest)
  | 'r' :: rest => some ('\r', rest)
  | 't' :: rest => some ('\t', rest)
  | '"' :: rest => some ('"', rest)
  | '\\' :: rest => some ('\\', rest)
  | 'u' :: rest => codePoint 4 rest
  | 'U' :: rest => codePoint 8 rest
  | _ => none

def prepend (c : Char) : Option (List Char × List Char) → Option (List Char × List Char) :=
  Option.map fun (s, rest) => (c :: s, rest)

/-- The rest of a string on one line. The bound on the steps is larger than the text. -/
def basicBody : Nat → Scan (List Char)
  | 0, _ => none
  | _ + 1, '"' :: rest => some ([], rest)
  | n + 1, '\\' :: rest => (escape? rest).bind fun (c, rest) => prepend c (basicBody n rest)
  | n + 1, c :: rest => if isPlain c then prepend c (basicBody n rest) else none
  | _ + 1, [] => none

def literalBody : Scan (List Char)
  | '\'' :: rest => some ([], rest)
  | c :: rest => if isPlain c then prepend c (literalBody rest) else none
  | [] => none

/-- Up to two quotes may stand right before the three that end a string. -/
def closing? (q : Char) : Scan (List Char)
  | a :: b :: c :: rest =>
    if a = q ∧ b = q ∧ c = q then
      match rest with
      | d :: e :: rest' =>
        if d = q ∧ e = q then some ([q, q], rest')
        else if d = q then some ([q], e :: rest') else some ([], rest)
      | [d] => if d = q then some ([q], []) else some ([], rest)
      | [] => some ([], [])
    else none
  | _ => none

def skipBlankLines (cs : List Char) : List Char :=
  match cs with
  | [] => []
  | '\r' :: '\n' :: rest => skipBlankLines rest
  | c :: rest => if c = '\n' ∨ isSpace c then skipBlankLines rest else c :: rest

/-- What follows a backslash at the end of a line: the next text on a later line. -/
def continuation? (cs : List Char) : Option (List Char) :=
  (newline? (skipSpaces cs)).map skipBlankLines

def multilineBasicBody : Nat → Scan (List Char)
  | 0, _ => none
  | n + 1, cs =>
    match closing? '"' cs with
    | some r => some r
    | none =>
      match cs with
      | [] => none
      | '\\' :: rest =>
        match continuation? rest with
        | some rest => multilineBasicBody n rest
        | none => (escape? rest).bind fun (c, rest) => prepend c (multilineBasicBody n rest)
      | c :: rest =>
        match newline? cs with
        | some rest => prepend '\n' (multilineBasicBody n rest)
        | none => if isPlain c then prepend c (multilineBasicBody n rest) else none

def multilineLiteralBody : Nat → Scan (List Char)
  | 0, _ => none
  | n + 1, cs =>
    match closing? '\'' cs with
    | some r => some r
    | none =>
      match cs with
      | [] => none
      | c :: rest =>
        match newline? cs with
        | some rest => prepend '\n' (multilineLiteralBody n rest)
        | none => if isPlain c then prepend c (multilineLiteralBody n rest) else none

def afterNewline (cs : List Char) : List Char := (newline? cs).getD cs

def finished : Option (List Char × List Char) → Option (String × List Char) :=
  Option.map fun (s, rest) => (String.ofList s, rest)

def lineString : Scan String
  | '"' :: rest => finished (basicBody (rest.length + 1) rest)
  | '\'' :: rest => finished (literalBody rest)
  | _ => none

def anyString (cs : List Char) : Option (String × List Char) :=
  match cs with
  | '"' :: '"' :: '"' :: rest =>
    finished (multilineBasicBody (rest.length + 1) (afterNewline rest))
  | '\'' :: '\'' :: '\'' :: rest =>
    finished (multilineLiteralBody (rest.length + 1) (afterNewline rest))
  | _ => lineString cs

/-! ## Numbers -/

def digitRun (isDigit : Char → Bool) : Scan (List Char)
  | [] => none
  | c :: cs => if isDigit c then some (more c cs) else none
where
  more (c : Char) : List Char → List Char × List Char
    | '_' :: d :: rest =>
      if isDigit d then
        let (ds, rest) := more d rest
        (c :: ds, rest)
      else ([c], '_' :: d :: rest)
    | d :: rest =>
      if isDigit d then
        let (ds, rest) := more d rest
        (c :: ds, rest)
      else ([c], d :: rest)
    | [] => ([c], [])

def sign (cs : List Char) : Bool × List Char :=
  match cs with
  | '-' :: rest => (true, rest)
  | '+' :: rest => (false, rest)
  | _ => (false, cs)

/-- A run of digits that does not begin with a zero, or a zero alone. -/
def wholeDigits : Scan (List Char)
  | '0' :: rest => some (['0'], rest)
  | cs => digitRun Char.isDigit cs

def valueIn (base : Nat) (ds : List Char) : Nat :=
  ds.foldl (fun v c => base * v + (hexValue? c).getD 0) 0

def integerData (n : Int) : Option Data :=
  let half : Int := Nat.pow 2 63
  if -half ≤ n ∧ n < half then some (.integer n) else none

def basedInteger (base : Nat) (cs : List Char) : Option (Data × List Char) :=
  (digitRun (fun c => (hexValue? c).any (· < base)) cs).bind fun (ds, rest) =>
    (integerData (valueIn base ds)).map (·, rest)

def integer (cs : List Char) : Option (Data × List Char) :=
  match cs with
  | '0' :: 'x' :: rest => basedInteger 16 rest
  | '0' :: 'o' :: rest => basedInteger 8 rest
  | '0' :: 'b' :: rest => basedInteger 2 rest
  | _ =>
    let (negative, cs) := sign cs
    (wholeDigits cs).bind fun (ds, rest) =>
      let n : Int := valueIn 10 ds
      (integerData (if negative then -n else n)).map (·, rest)

def fraction : Scan (List Char)
  | '.' :: rest => digitRun Char.isDigit rest
  | _ => none

def exponent (cs : List Char) : Option (Int × List Char) :=
  let run (rest : List Char) : Option (Int × List Char) :=
    let (negative, rest) := sign rest
    (digitRun Char.isDigit rest).map fun (ds, rest) =>
      let e : Int := valueIn 10 ds
      (if negative then -e else e, rest)
  match cs with
  | 'e' :: rest => run rest
  | 'E' :: rest => run rest
  | _ => none

/-- A number too large for the type is refused if it is positive, and infinite otherwise. -/
def floatData (negative : Bool) (digits : Nat) (e : Int) : Option Data :=
  match Double.ofDecimal? digits e with
  | some x => some (.float (Style.writtenOut.show negative x))
  | none => if negative then some (.float "-inf") else none

def specialFloat (negative : Bool) : Scan Data
  | 'i' :: 'n' :: 'f' :: rest => some (.float (if negative then "-inf" else "inf"), rest)
  | 'n' :: 'a' :: 'n' :: rest => some (.float "NaN", rest)
  | _ => none

def float (cs : List Char) : Option (Data × List Char) :=
  let (negative, cs) := sign cs
  match wholeDigits cs with
  | none => specialFloat negative cs
  | some (whole, cs) =>
    match fraction cs with
    | some (frac, cs) =>
      let digits := valueIn 10 (whole ++ frac)
      let (e, cs) := (exponent cs).getD (0, cs)
      (floatData negative digits (e - frac.length)).map (·, cs)
    | none =>
      (exponent cs).bind fun (e, cs) => (floatData negative (valueIn 10 whole) e).map (·, cs)

/-! ## Points in time -/

def twoDigits : Scan Nat
  | a :: b :: rest =>
    if a.isDigit && b.isDigit then some (10 * (a.toNat - 48) + (b.toNat - 48), rest) else none
  | _ => none

def fourDigits (cs : List Char) : Option (Nat × List Char) :=
  (twoDigits cs).bind fun (a, cs) => (twoDigits cs).map fun (b, cs) => (100 * a + b, cs)

def literal (c : Char) : List Char → Option (List Char)
  | d :: rest => if c = d then some rest else none
  | [] => none

def isLeapYear (y : Nat) : Bool := y % 4 = 0 && (y % 100 != 0 || y % 400 = 0)

def daysIn (year month : Nat) : Nat :=
  if month = 2 then if isLeapYear year then 29 else 28
  else if month = 4 ∨ month = 6 ∨ month = 9 ∨ month = 11 then 30
  else 31

def padded (width n : Nat) : List Char :=
  let ds := (toString n).toList
  List.replicate (width - ds.length) '0' ++ ds

def date (cs : List Char) : Option (List Char × List Char) := do
  let (year, cs) ← fourDigits cs
  let cs ← literal '-' cs
  let (month, cs) ← twoDigits cs
  let cs ← literal '-' cs
  let (day, cs) ← twoDigits cs
  if 1 ≤ month ∧ month ≤ 12 ∧ 1 ≤ day ∧ day ≤ daysIn year month then
    some (padded 4 year ++ '-' :: padded 2 month ++ '-' :: padded 2 day, cs)
  else none

/-- The digits of a second's fraction count to the ninth; zeros at the end are not shown. -/
def secondFraction (cs : List Char) : List Char × List Char :=
  match cs with
  | '.' :: rest =>
    match rest.takeWhile Char.isDigit with
    | [] => ([], cs)
    | ds =>
      let shown := ((ds.take 9).reverse.dropWhile (· == '0')).reverse
      (if shown.isEmpty then [] else '.' :: shown, rest.dropWhile Char.isDigit)
  | _ => ([], cs)

def time (cs : List Char) : Option (List Char × List Char) := do
  let (hour, cs) ← twoDigits cs
  let cs ← literal ':' cs
  let (minute, cs) ← twoDigits cs
  let cs ← literal ':' cs
  let (second, cs) ← twoDigits cs
  let (frac, cs) := secondFraction cs
  if hour < 24 ∧ minute < 60 ∧ second ≤ 60 then
    some (padded 2 hour ++ ':' :: padded 2 minute ++ ':' :: padded 2 second ++ frac, cs)
  else none

def offset (cs : List Char) : Option (List Char × List Char) :=
  match cs with
  | 'Z' :: rest | 'z' :: rest => some (['Z'], rest)
  | c :: rest =>
    if c = '+' ∨ c = '-' then do
      let (hour, rest) ← twoDigits rest
      let rest ← literal ':' rest
      let (minute, rest) ← twoDigits rest
      if hour < 24 ∧ minute < 60 then
        let shown := if hour = 0 ∧ minute = 0 then '+' else c
        some (shown :: padded 2 hour ++ ':' :: padded 2 minute, rest)
      else none
    else none
  | [] => none

def timeBehindDate (cs : List Char) : Option (List Char × List Char) :=
  match cs with
  | c :: rest =>
    if c = 'T' ∨ c = 't' ∨ c = ' ' then do
      let (t, rest) ← time rest
      let (o, rest) := (offset rest).getD ([], rest)
      some ('T' :: t ++ o, rest)
    else none
  | [] => none

def timeKey : String := "$__toml_private_datetime"

def pointInTime (cs : List Char) : Option (Data × List Char) :=
  let shown :=
    match date cs with
    | some (d, cs) =>
      let (t, cs) := (timeBehindDate cs).getD ([], cs)
      some (d ++ t, cs)
    | none => time cs
  shown.map fun (s, rest) => (.ofEntries [(timeKey, .string (String.ofList s))], rest)

/-! ## All together -/

def word (w : List Char) (d : Data) (cs : List Char) : Option (Data × List Char) :=
  if w.isPrefixOf cs then some (d, cs.drop w.length) else none

def scalar (cs : List Char) : Option (Data × List Char) :=
  match cs with
  | [] => none
  | c :: _ =>
    if c = '"' ∨ c = '\'' then (anyString cs).map fun (s, rest) => (.string s, rest)
    else if c = 't' then word ['t', 'r', 'u', 'e'] (.boolean true) cs
    else if c = 'f' then word ['f', 'a', 'l', 's', 'e'] (.boolean false) cs
    else ((pointInTime cs).or (float cs)).or (integer cs)

end ClassModel.Document.Toml
