import ClassModel.Log.Level

/-!
# Events

What the library reports about its work: which candidates a name was looked for under, which
classes came to be, where a stand-in had to do.
-/

namespace ClassModel.Log

inductive Event where
  | probingQualified (candidate : String)
  | probing (candidate : String)
  | fallingBack (name : String)
  | unresolved (name context : String)
  | defined (className : String)
  | notFound (name : String)
  | reentered (name : String)
  | loaded (requested className : String)
  | restored (classes : Nat)
  | noDefaultPackages
  deriving DecidableEq, Repr

inductive FieldValue where
  | text (s : String)
  | count (n : Nat)
  deriving DecidableEq, Repr

namespace Event

def level : Event → Level
  | probingQualified _ | probing _ | fallingBack _ | reentered _ => .trace
  | unresolved _ _ | defined _ | notFound _ | loaded _ _ | restored _ => .debug
  | noDefaultPackages => .warn

def target : Event → String
  | probingQualified _ | probing _ | fallingBack _ | unresolved _ _ => "keystone.resolve"
  | defined _ | notFound _ | reentered _ | loaded _ _ | restored _ => "keystone.loader"
  | noDefaultPackages => "keystone.config"

def message : Event → String
  | probingQualified _ => "probing qualified name"
  | probing _ => "probing"
  | fallingBack _ => "falling back to default resolution"
  | unresolved _ _ => "class reference did not resolve; using placeholder"
  | defined _ => "defined class"
  | notFound _ => "class not found; using placeholder"
  | reentered _ => "re-entrant load; giving up"
  | loaded _ _ => "loaded class on demand"
  | restored _ => "restored model from snapshot"
  | noDefaultPackages => "no default packages configured; bare names only resolve verbatim"

def fields : Event → List (String × FieldValue)
  | probingQualified c => [("candidate", .text c)]
  | probing c => [("candidate", .text c)]
  | fallingBack n => [("name", .text n)]
  | unresolved n c => [("name", .text n), ("from", .text c)]
  | defined c => [("class", .text c)]
  | notFound n => [("name", .text n)]
  | reentered n => [("name", .text n)]
  | loaded r c => [("requested", .text r), ("class", .text c)]
  | restored n => [("classes", .count n)]
  | noDefaultPackages => []

end Event

end ClassModel.Log
