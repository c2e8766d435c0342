/-!
# Searching texts

* `contains needle text`: whether a text has another one as a contiguous piece.
* `splitAt? sep text`: a text before and after the first occurrence of a character.
* `replaceAll`: every occurrence of a piece, from the left, replaced by another one;
  `replacePiece_singleton` says what becomes of a piece of one character.
-/

namespace VideoCatalog.Text

/-- Whether some tail of a list starts with another list. -/
def hasPiece (needle : List Char) : List Char → Bool
  | [] => needle.isEmpty
  | c :: rest => needle.isPrefixOf (c :: rest) || hasPiece needle rest

/-- Whether a text has another one as a contiguous piece. -/
def contains (needle text : String) : Bool := hasPiece needle.toList text.toList

/-- Whether a text ends with another one. -/
def endsWith (ending text : String) : Bool := ending.toList.isSuffixOf text.toList

/-- Whether a text starts with another one. -/
def startsWith (start text : String) : Bool := start.toList.isPrefixOf text.toList

/-- A text before and after the first occurrence of a character; `none` if it has none. -/
def splitAt? (sep : Char) (text : String) : Option (String × String) :=
  let cs := text.toList
  if cs.contains sep then
    some (String.ofList (cs.takeWhile (· != sep)),
      String.ofList ((cs.dropWhile (· != sep)).drop 1))
  else none

/-- Replaces a non-empty piece wherever it occurs, from the left. -/
def replacePiece (piece substitute : List Char) (fuel : Nat) (text : List Char) : List Char :=
  match fuel, text with
  | 0, text => text
  | _, [] => []
  | fuel + 1, c :: rest =>
    if piece.isPrefixOf (c :: rest) then
      substitute ++ replacePiece piece substitute fuel ((c :: rest).drop piece.length)
    else c :: replacePiece piece substitute fuel rest

/-- A text with every occurrence of a non-empty piece replaced. -/
def replaceAll (piece substitute text : String) : String :=
  String.ofList (replacePiece piece.toList substitute.toList text.length text.toList)

/-- A piece of a list is what stands between a start and an end of it. -/
theorem hasPiece_iff (needle text : List Char) :
    hasPiece needle text = true ↔ needle <:+: text := by
  induction text with
  | nil => simp [hasPiece]
  | cons c rest ih =>
    rw [hasPiece, Bool.or_eq_true, ih, List.isPrefixOf_iff_prefix, List.infix_cons_iff]

/-- A piece of one character is replaced character by character. -/
theorem replacePiece_singleton (c : Char) (substitute : List Char) {fuel : Nat} {text : List Char}
    (enough : text.length ≤ fuel) : replacePiece [c] substitute fuel text =
      text.flatMap fun d => if d = c then substitute else [d] := by
  induction text generalizing fuel with
  | nil => cases fuel <;> rfl
  | cons d rest ih =>
    cases fuel with
    | zero => cases enough
    | succ fuel =>
      have enough : rest.length ≤ fuel := Nat.le_of_succ_le_succ enough
      by_cases same : d = c
      · subst same
        simp [replacePiece, ih enough]
      · simp [replacePiece, ih enough, same, Ne.symm same]

end VideoCatalog.Text
