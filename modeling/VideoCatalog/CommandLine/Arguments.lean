import VideoCatalog.Text.Search
import VideoCatalog.Value

/-!
# Arguments

A grammar of arguments has options, which start with a dash and may be abbreviated, and
positions, which are filled in order. Behind a lone `--` nothing is an option.

* `Arity`, `Argument`, `Grammar`: what may be given.
* `Exit`: why a program ends without doing its work.
* `Grammar.markOf`, `Grammar.wordsOf`: which words are options.
* `Grammar.parse`: the values of all arguments, and the words that fit nowhere.
-/

namespace VideoCatalog.CommandLine

/-- A program ends at once with a code. -/
structure Exit where
  code : Nat
deriving DecidableEq, Repr

namespace Exit

/-- The end after help was asked for. -/
def help : Exit := ⟨0⟩

/-- The end after arguments that do not fit. -/
def misuse : Exit := ⟨2⟩

end Exit

/-- How many words an argument takes; a command takes all the rest. -/
inductive Arity where
  | help
  | one
  | optional
  | many
  | command
deriving DecidableEq, Repr

/-- An argument: the name of its value, the value of a word, and the value without a word. -/
structure Argument where
  dest : String
  arity : Arity
  read : String → Option Value
  default : Value := .null

/-- The arguments of a program or of one of its commands. -/
structure Grammar where
  options : List (String × Argument)
  positions : List Argument

/-- What a word is. -/
inductive Mark where
  | separator
  | plain
  | option (target : Option (String × Argument)) (attached : Option String)

/-- A word with what it is. -/
structure Word where
  text : String
  mark : Mark

namespace Word

/-- Whether a word is an option. -/
def isOption (w : Word) : Bool :=
  match w.mark with
  | .option .. => true
  | _ => false

/-- Whether a word is plain. -/
def isPlain (w : Word) : Bool :=
  match w.mark with
  | .plain => true
  | _ => false

/-- Whether a word separates options from the words behind them. -/
def isSeparator (w : Word) : Bool :=
  match w.mark with
  | .separator => true
  | _ => false

end Word

/-- The word that separates options from the words behind them. -/
def separatorText : String := "--"

/-- Whether a text is a negative number without an exponent, which is no option. -/
def isNegativeNumber (text : String) : Bool :=
  match text.toList with
  | '-' :: rest =>
    let body := if rest.getLast? = some '\n' then rest.dropLast else rest
    let whole := body.takeWhile Text.isDigit
    match body.drop whole.length with
    | [] => !whole.isEmpty
    | '.' :: digits => !digits.isEmpty && digits.all Text.isDigit
    | _ => false
  | _ => false

namespace Grammar

variable (g : Grammar)

/-- The options that a word abbreviates, each with the text that is attached to it. -/
def abbreviated (text : String) : List Mark :=
  if Text.startsWith separatorText text then
    let (name, attached) := match Text.splitAt? '=' text with
      | some (name, rest) => (name, some rest)
      | none => (text, none)
    (g.options.filter fun o => Text.startsWith name o.1).map fun o => .option (some o) attached
  else
    g.options.filterMap fun o =>
      if o.1.toList = text.toList.take 2 then
        some (.option (some o) (some (String.ofList (text.toList.drop 2))))
      else if Text.startsWith text o.1 then some (.option (some o) none)
      else none

/-- The option whose full name stands before an equals sign. -/
def attached? (text : String) : Option Mark :=
  match Text.splitAt? '=' text with
  | some (name, rest) => (g.options.lookup name).map fun a => .option (some (name, a)) (some rest)
  | none => none

/-- What a word before the separator is. A word that fits several options is refused. -/
def markOf (text : String) : Except Exit Mark :=
  match text.toList with
  | [] | ['-'] => .ok .plain
  | '-' :: _ =>
    match g.options.lookup text with
    | some a => .ok (.option (some (text, a)) none)
    | none =>
      match g.attached? text with
      | some m => .ok m
      | none =>
        match g.abbreviated text with
        | [m] => .ok m
        | _ :: _ => .error .misuse
        | [] =>
          if isNegativeNumber text || text.toList.contains ' ' then .ok .plain
          else .ok (.option none none)
  | _ => .ok .plain

/-- The words with what they are. -/
def wordsOf : List String → Except Exit (List Word)
  | [] => .ok []
  | text :: rest =>
    if text = separatorText then
      .ok (⟨text, .separator⟩ :: rest.map fun t => ⟨t, .plain⟩)
    else
      match g.markOf text with
      | .error e => .error e
      | .ok m => (wordsOf rest).map (⟨text, m⟩ :: ·)

end Grammar

/-- What has been read so far. The latest value of a name stands first. -/
structure Parsed where
  positions : List Argument
  values : List (String × Value) := []
  extras : List String := []

namespace Argument

/-- The values of some texts, or the end of the program if one does not fit. -/
def readAll (a : Argument) : List String → Except Exit (List Value)
  | [] => .ok []
  | t :: rest =>
    match a.read t with
    | none => .error .misuse
    | some v => (readAll a rest).map (v :: ·)

/-- The value of the words of an argument. A separator among them is dropped, except for a
command, which reads all behind its name itself. -/
def valueOf (a : Argument) (texts : List String) : Except Exit Value :=
  match a.arity with
  | .command =>
    match a.readAll (texts.take 1) with
    | .error e => .error e
    | .ok _ => .ok (.list (texts.map .text))
  | arity =>
    match arity, texts.erase separatorText with
    | .optional, [] => .ok a.default
    | .many, texts => (a.readAll texts).map .list
    | _, [t] => (a.readAll [t]).map fun vs => vs.headD .null
    | _, texts => (a.readAll texts).map .list

/-- How many words a position takes; `none` if a word is missing. -/
def count? (a : Argument) (words : List Word) : Option Nat :=
  let before := (words.takeWhile Word.isSeparator).length
  let rest := words.drop before
  let taken := if (rest.head?.map Word.isPlain).getD false then 1 else 0
  let after := ((rest.drop taken).takeWhile Word.isSeparator).length
  match a.arity with
  | .command => if taken = 0 then none else some words.length
  | .optional => some (before + taken + after)
  | _ => if taken = 0 then none else some (before + taken + after)

/-- How many plain words an option takes. -/
def optionCount? (a : Argument) (words : List Word) : Option Nat :=
  let plain := (words.takeWhile Word.isPlain).length
  match a.arity with
  | .help => some 0
  | .many => some plain
  | _ => if plain = 0 then none else some 1

/-- Whether the program cannot do without an argument. -/
def isRequired (a : Argument) : Bool := a.arity = .one || a.arity = .command

end Argument

namespace Parsed

/-- Takes the value of an argument. -/
def put (s : Parsed) (a : Argument) (texts : List String) : Except Exit Parsed :=
  match a.arity with
  | .help => .error .help
  | _ => (a.valueOf texts).map fun v => { s with values := (a.dest, v) :: s.values }

/-- Fills as many positions as the words in front allow. -/
def fill (s : Parsed) (words : List Word) : List Argument → Except Exit (Parsed × List Word)
  | [] => .ok ({ s with positions := [] }, words)
  | a :: rest =>
    match a.count? words with
    | none => .ok ({ s with positions := a :: rest }, words)
    | some n =>
      match s.put a ((words.take n).map (·.text)) with
      | .error e => .error e
      | .ok s => fill s (words.drop n) rest

/-- The end of a program after short options that are written together. -/
def together (g : Grammar) (name attached : String) : Exit :=
  let isHelp (c : Char) : Bool :=
    match g.options.lookup (String.ofList ['-', c]) with
    | some a => a.arity = .help
    | none => false
  if Text.startsWith separatorText name || attached.isEmpty then .misuse
  else if attached.toList.all isHelp then .help
  else .misuse

/-- Takes an option with its words. -/
def option (s : Parsed) (g : Grammar) (text : String) (target : Option (String × Argument))
    (attached : Option String) (rest : List Word) : Except Exit (Parsed × List Word) :=
  match target, attached with
  | none, _ => .ok ({ s with extras := s.extras ++ [text] }, rest)
  | some (name, a), some given =>
    if a.arity = .help then .error (together g name given)
    else (s.put a [given]).map fun s => (s, rest)
  | some (_, a), none =>
    match a.optionCount? rest with
    | none => .error .misuse
    | some n => (s.put a ((rest.take n).map (·.text))).map fun s => (s, rest.drop n)

/-- Takes all words. Words that no position takes are left over up to the next option. -/
def run (g : Grammar) : Nat → List Word → Parsed → Except Exit Parsed
  | 0, _, s => .ok s
  | fuel + 1, words, s =>
    match words with
    | ⟨text, .option target attached⟩ :: rest =>
      match s.option g text target attached rest with
      | .error e => .error e
      | .ok (s, rest) => run g fuel rest s
    | _ =>
      match s.fill words s.positions with
      | .error e => .error e
      | .ok (s, rest) =>
        if !words.any Word.isOption then
          .ok { s with extras := s.extras ++ rest.map (·.text) }
        else if rest.length < words.length then run g fuel rest s
        else
          let skipped := rest.takeWhile fun w => !w.isOption
          run g fuel (rest.drop skipped.length)
            { s with extras := s.extras ++ skipped.map (·.text) }

end Parsed

namespace Grammar

/-- The values of all arguments, and the words that fit nowhere. -/
def parse (g : Grammar) (args : List String) : Except Exit Parsed :=
  match g.wordsOf args with
  | .error e => .error e
  | .ok words =>
    match Parsed.run g (2 * words.length + 2) words { positions := g.positions } with
    | .error e => .error e
    | .ok s => if s.positions.any Argument.isRequired then .error .misuse else .ok s

/-- The value of a name, or its default. -/
def value (g : Grammar) (s : Parsed) (dest : String) : Value :=
  match s.values.lookup dest with
  | some v => v
  | none =>
    match (g.options.map (·.2) ++ g.positions).find? (·.dest == dest) with
    | some a => a.default
    | none => .null

end Grammar

end VideoCatalog.CommandLine
