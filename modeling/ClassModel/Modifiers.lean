import ClassModel.Text.Quoted

/-!
# Modifiers

The access flags of a class or a member, kept as the bits that class files give them. Bits without
a meaning here are kept too. The words are printed in the order in which they are written in
source code, which is not the order of the bits.
-/

namespace ClassModel

structure Modifiers where
  bits : UInt16
  deriving DecidableEq, Repr, Inhabited

namespace Modifiers

def none : Modifiers := ⟨0⟩
def publicFlag : Modifiers := ⟨0x0001⟩
def privateFlag : Modifiers := ⟨0x0002⟩
def protectedFlag : Modifiers := ⟨0x0004⟩
def staticFlag : Modifiers := ⟨0x0008⟩
def finalFlag : Modifiers := ⟨0x0010⟩
def abstractFlag : Modifiers := ⟨0x0400⟩

def union (a b : Modifiers) : Modifiers := ⟨a.bits ||| b.bits⟩

def contains (a b : Modifiers) : Bool := a.bits &&& b.bits == b.bits

def isPublic (m : Modifiers) : Bool := m.contains publicFlag
def isPrivate (m : Modifiers) : Bool := m.contains privateFlag
def isProtected (m : Modifiers) : Bool := m.contains protectedFlag
def isStatic (m : Modifiers) : Bool := m.contains staticFlag
def isFinal (m : Modifiers) : Bool := m.contains finalFlag
def isAbstract (m : Modifiers) : Bool := m.contains abstractFlag

def words (m : Modifiers) : List String :=
  [(publicFlag, "public"), (protectedFlag, "protected"), (privateFlag, "private"),
    (abstractFlag, "abstract"), (staticFlag, "static"), (finalFlag, "final")].filterMap
    fun (flag, word) => if m.contains flag then some word else Option.none

def text (m : Modifiers) : String := " ".intercalate m.words

/-- The bits in hexadecimal, at least four digits. -/
def debugText (m : Modifiers) : String :=
  "Modifiers(0x" ++ String.ofList (Text.paddedHex 4 m.bits.toNat) ++ ")"

theorem contains_self (m : Modifiers) : m.contains m = true := by simp [contains]

theorem contains_none (m : Modifiers) : m.contains none = true := by simp [contains, none]

end Modifiers

end ClassModel
