import VideoCatalog.Json.Quoted
import VideoCatalog.Value

/-!
# Writing documents

Documents are written with one member or item to a line, two spaces to a level, and no line
breaks inside what is empty.

* `write`: the text of a value at a depth of nesting.
* `document`: the whole text.
-/

namespace VideoCatalog.Json

/-- A line break and the spaces of a depth. -/
def newline (depth : Nat) : List Char := '\n' :: List.replicate (2 * depth) ' '

/-- The text of a value that has no parts. -/
def writeLeaf (alphabet : Alphabet) : Value → List Char
  | .null => "null".toList
  | .bool b => (if b then "true" else "false").toList
  | .number q => q.text.toList
  | v => quoted alphabet v.plain.toList

mutual

/-- The text of a value at a depth of nesting. -/
def write (alphabet : Alphabet) (depth : Nat) : Value → List Char
  | .list [] => ['[', ']']
  | .list (v :: rest) =>
    '[' :: newline (depth + 1) ++ write alphabet (depth + 1) v ++
      writeItems alphabet (depth + 1) rest ++ newline depth ++ [']']
  | .map [] => ['\x7b', '\x7d']
  | .map ((k, v) :: rest) =>
    '\x7b' :: newline (depth + 1) ++ quoted alphabet k.plain.toList ++ [':', ' '] ++
      write alphabet (depth + 1) v ++ writeMembers alphabet (depth + 1) rest ++
      newline depth ++ ['\x7d']
  | v => writeLeaf alphabet v

/-- The items of a list after the first. -/
def writeItems (alphabet : Alphabet) (depth : Nat) : List Value → List Char
  | [] => []
  | v :: rest =>
    ',' :: newline depth ++ write alphabet depth v ++ writeItems alphabet depth rest

/-- The members of a mapping after the first. -/
def writeMembers (alphabet : Alphabet) (depth : Nat) : List (Value × Value) → List Char
  | [] => []
  | (k, v) :: rest =>
    ',' :: newline depth ++ quoted alphabet k.plain.toList ++ [':', ' '] ++
      write alphabet depth v ++ writeMembers alphabet depth rest

end

/-- The text of a document. -/
def document (alphabet : Alphabet) (v : Value) : String := String.ofList (write alphabet 0 v)

end VideoCatalog.Json
