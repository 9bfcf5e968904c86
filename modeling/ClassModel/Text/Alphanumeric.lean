import ClassModel.Text.Ranges
import ClassModel.Text.AlphanumericTable

/-!
# Letters and digits

A character is alphanumeric when it is a letter, or has a letter's role, or is a number of any
script.
-/

namespace ClassModel.Text

def isAlphanumeric (c : Char) : Bool :=
  covers alphanumerics c.toNat

end ClassModel.Text
