import ClassModel.Text.Ranges
import ClassModel.Text.IdentifierTable

/-!
# Identifier characters

What may begin an identifier and what may stand in it. A character that begins one may also stand
in it, which is the first half of `isIdentifierPart`.
-/

namespace ClassModel.Text

def isIdentifierStart (c : Char) : Bool :=
  c == '_' || c == '$' || covers identifierStarts c.toNat

def isIdentifierPart (c : Char) : Bool :=
  isIdentifierStart c || covers identifierContinuations c.toNat

/-- A property of characters as one of code points; a number that is no character has none. -/
def atCodePoint (p : Char → Bool) (n : Nat) : Bool :=
  if n.isValidChar then p (Char.ofNat n) else false

theorem isIdentifierPart_of_start {c : Char} (h : isIdentifierStart c = true) :
    isIdentifierPart c = true := by
  simp [isIdentifierPart, h]

theorem isIdentifierPart_dot : isIdentifierPart '.' = false := by decide +kernel

end ClassModel.Text
