/-!
# Levels

How much an event matters, and how much a filter lets through. A level is spelled by its word, in
any case, or by its number.
-/

namespace ClassModel.Log

/-- The most that is let through, from nothing to everything. -/
inductive Level where
  | off
  | error
  | warn
  | info
  | debug
  | trace
  deriving DecidableEq, Repr, Inhabited

namespace Level

def word : Level → String
  | off => "off"
  | error => "error"
  | warn => "warn"
  | info => "info"
  | debug => "debug"
  | trace => "trace"

def all : List Level := [off, error, warn, info, debug, trace]

def ofWord? (s : String) : Option Level :=
  all.find? fun l => l.word == s.map Char.toLower

def digitsValue? (cs : List Char) : Option Nat :=
  if cs.isEmpty || !cs.all Char.isDigit then none
  else some (cs.foldl (fun n c => 10 * n + (c.toNat - 48)) 0)

/-- A number counts the levels from `off`; a plus sign may stand before it. -/
def ofNumber? (s : String) : Option Level :=
  let ds := match s.toList with
    | '+' :: rest => rest
    | cs => cs
  (digitsValue? ds).bind fun n => all[n]?

def ofText? (s : String) : Option Level :=
  (ofNumber? s).or (ofWord? s)

theorem ofText?_word (l : Level) : ofText? l.word = some l := by
  cases l <;> decide +kernel

end Level

end ClassModel.Log
