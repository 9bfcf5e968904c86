import ClassModel.Document.Data
import ClassModel.Text.Quoted

/-!
# Written JSON

A document as JSON text, with every member on a line of its own, two blanks to a level. Only the
quote, the backslash and controls are escaped in strings.
-/

namespace ClassModel.Document.Json

def escape (c : Char) : List Char :=
  if c = '"' then ['\\', '"']
  else if c = '\\' then ['\\', '\\']
  else if c = '\x08' then ['\\', 'b']
  else if c = '\x0c' then ['\\', 'f']
  else if c = '\n' then ['\\', 'n']
  else if c = '\r' then ['\\', 'r']
  else if c = '\t' then ['\\', 't']
  else if c.toNat < 0x20 then '\\' :: 'u' :: Text.paddedHex 4 c.toNat
  else [c]

def writeString (s : String) : List Char := '"' :: (s.toList.flatMap escape ++ ['"'])

def newline (level : Nat) : List Char := '\n' :: List.replicate (2 * level) ' '

mutual

def write (level : Nat) : Data → List Char
  | .null => ['n', 'u', 'l', 'l']
  | .boolean true => ['t', 'r', 'u', 'e']
  | .boolean false => ['f', 'a', 'l', 's', 'e']
  | .integer n => (toString n).toList
  | .float shown => shown.toList
  | .string s => writeString s
  | .array [] _ => ['[', ']']
  | .array (d :: ds) _ =>
    '[' :: (newline (level + 1) ++ write (level + 1) d ++ writeItems (level + 1) ds
      ++ newline level ++ [']'])
  | .map [] _ => ['\x7b', '\x7d']
  | .map ((k, d) :: es) _ =>
    '\x7b' :: (newline (level + 1) ++ writeString k ++ [':', ' '] ++ write (level + 1) d
      ++ writeEntries (level + 1) es ++ newline level ++ ['\x7d'])
  | .faulty _ => []

def writeItems (level : Nat) : List Data → List Char
  | [] => []
  | d :: ds => ',' :: (newline level ++ write level d ++ writeItems level ds)

def writeEntries (level : Nat) : List (String × Data) → List Char
  | [] => []
  | (k, d) :: es =>
    ',' :: (newline level ++ writeString k ++ [':', ' '] ++ write level d ++ writeEntries level es)

end

def toText (d : Data) : String := String.ofList (write 0 d)

end ClassModel.Document.Json
