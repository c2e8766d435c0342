import VideoCatalog.Value

/-!
# Failures

Every way in which an operation is refused, one constructor per cause. The wording stands in
`Failure.message` alone.

* `FileFault`: what the file system objects to.
* `DecodeFault`: why a decode session gives no metadata or no frame.
* `Family.named`: the family of what a collaborator reports under a name.
* `Failure`: all causes; `raised` carries what a collaborator reports.
* `Failure.isSystem`, `Failure.isDecode`, `Failure.isRoot`: the families that are handled apart.
* `Failure.report`: a failure inside a log text; a failed look-up shows its key quoted.
-/

namespace VideoCatalog

/-- What the file system objects to. -/
inductive FileFault where
  | missing
  | denied
  | alreadyThere
  | notDirectory
  | isDirectory
  | badArgument
  | nameTooLong
  | notEmpty
  | linkLoop
deriving DecidableEq, Repr

namespace FileFault

/-- The number of a fault. -/
def number : FileFault → Nat
  | missing => 2
  | denied => 13
  | alreadyThere => 17
  | notDirectory => 20
  | isDirectory => 21
  | badArgument => 22
  | nameTooLong => 36
  | notEmpty => 39
  | linkLoop => 40

/-- The description of a fault. -/
def description : FileFault → String
  | missing => "No such file or directory"
  | denied => "Permission denied"
  | alreadyThere => "File exists"
  | notDirectory => "Not a directory"
  | isDirectory => "Is a directory"
  | badArgument => "Invalid argument"
  | nameTooLong => "File name too long"
  | notEmpty => "Directory not empty"
  | linkLoop => "Too many levels of symbolic links"

end FileFault

/-- Why a decode session gives no metadata or no frame. -/
inductive DecodeFault where
  | sessionClosed
  | contentReleased
  | releasedBeforeOpening (path : String)
  | programMissing (program : String)
  | programFailed (report : String)
  | programExited (name : String) (code : Int)
  | invalidProbe (detail : String)
  | noFrame (position : String)
  | unreadableFrame (detail : String)
deriving DecidableEq, Repr

namespace DecodeFault

/-- The wording of a decode fault. -/
def message : DecodeFault → String
  | sessionClosed => "decode session closed"
  | contentReleased => "content handle released"
  | releasedBeforeOpening path => "content handle released: " ++ path
  | programMissing program => program ++ " not found"
  | programFailed report => report
  | programExited name code => name ++ " exited with " ++ Quantity.intText code
  | invalidProbe detail => "invalid ffprobe output: " ++ detail
  | noFrame position => "no frame decoded at " ++ position ++ "s"
  | unreadableFrame detail => "unreadable frame: " ++ detail

end DecodeFault

/-- The family of a failure that a collaborator reports. -/
inductive Family where
  | decode
  | system (name : String)
  | lookup
  | other (name : String)
deriving DecidableEq, Repr

namespace Family

/-- The names under which an operating system reports failures. -/
def systemNames : List String := [
  "OSError", "FileNotFoundError", "FileExistsError", "NotADirectoryError", "IsADirectoryError",
  "PermissionError", "TimeoutError", "InterruptedError", "BlockingIOError", "ChildProcessError",
  "ProcessLookupError", "ConnectionError", "ConnectionAbortedError", "ConnectionRefusedError",
  "ConnectionResetError", "BrokenPipeError", "EnumerationError"]

/-- The family of the failures that are reported under a name. -/
def named (name : String) : Family :=
  if name = "DecodeError" then decode
  else if name = "KeyError" then lookup
  else if systemNames.contains name then system name
  else other name

end Family

/-- Why an operation is refused. -/
inductive Failure where
  | notANumber (kind : String)
  | unsuitable (kind : String) (purpose : String)
  | noMember (kind : String) (member : String)
  | malformedNumber
  | tooManyDigits (count : Nat)
  | numberTooLarge
  | outsideRoot (path : String) (root : String)
  | zeroCharacter
  | closedStream
  | badMoment
  | wrongCount (expected : Nat) (given : Nat)
  | zeroStep
  | unknownLevel (name : String)
  | indexOutOfRange
  | nothingOpen
  | file (fault : FileFault) (path : String)
  | noHome (user : String)
  | linkLoop (path : String)
  | notText
  | malformedSettings
  | nestedTooDeeply
  | unencodable
  | unknownSortKey (shown : String)
  | unknownDirection (shown : String)
  | duplicatePaths
  | unknownItem (path : String)
  | noCatalog (path : String)
  | noSettingsPath (keys : String)
  | settingsMissing (path : String)
  | settingsNotMapping (path : String)
  | tooFewWorkers (shown : String)
  | leaked (handles : List (String × Nat))
  | rootMissing (path : String)
  | rootNotDirectory (path : String)
  | rootUnreadable (path : String) (reason : String)
  | decode (fault : DecodeFault)
  | raised (family : Family) (text : String)
deriving DecidableEq, Repr

namespace Failure

/-- How many leaked handles a message names. -/
def namedLeaks : Nat := 10

/-- The wording of a failure. -/
def message : Failure → String
  | notANumber kind => "must be real number, not " ++ kind
  | unsuitable kind purpose => "a " ++ kind ++ " value cannot be " ++ purpose
  | noMember kind member => "'" ++ kind ++ "' object has no attribute '" ++ member ++ "'"
  | malformedNumber => "not a number"
  | tooManyDigits count =>
    "Exceeds the limit (4300 digits) for integer string conversion: value has " ++
      Quantity.intText count ++ " digits; use sys.set_int_max_str_digits() to increase the limit"
  | numberTooLarge => "int too large to convert to float"
  | outsideRoot path root =>
    Text.quoted path ++ " is not in the subpath of " ++ Text.quoted root
  | zeroCharacter => "embedded null character"
  | closedStream => "I/O operation on closed file"
  | badMoment => "the moment is not on the calendar"
  | wrongCount expected given =>
    "expected " ++ Quantity.intText expected ++ " values, got " ++ Quantity.intText given
  | zeroStep => "slice step cannot be zero"
  | unknownLevel name => "Unknown level: " ++ Text.quoted name
  | indexOutOfRange => "index out of range"
  | nothingOpen => "nothing is open"
  | file fault path =>
    "[Errno " ++ Quantity.intText fault.number ++ "] " ++ fault.description ++ ": " ++
      Text.quoted path
  | noHome _ => "Could not determine home directory."
  | linkLoop path => "Symlink loop from " ++ Text.quoted path
  | notText => "the bytes are not UTF-8"
  | malformedSettings => "the settings are not well-formed"
  | nestedTooDeeply => "the document is nested too deeply"
  | unencodable => "encoder error -2 when writing image file"
  | unknownSortKey shown =>
    "Unknown sort key: " ++ shown ++ " (expected one of name, date, size, dur)"
  | unknownDirection shown => "Unknown sort direction: " ++ shown
  | duplicatePaths => "Catalog items must have unique relative paths"
  | unknownItem path => "No catalog item for path: " ++ path
  | noCatalog path => "No catalog loaded; cannot find " ++ path
  | noSettingsPath keys => "Missing config path for " ++ keys
  | settingsMissing path => "Config file not found: " ++ path
  | settingsNotMapping path => "Config root must be a mapping: " ++ path
  | tooFewWorkers shown => "workers must be at least 1, got " ++ shown
  | leaked handles =>
    Quantity.intText handles.length ++ " handles still registered: " ++
      String.intercalate ", "
        ((handles.take namedLeaks).map fun h => h.1 ++ "#" ++ Quantity.intText h.2)
  | rootMissing path => "Root not found: " ++ path
  | rootNotDirectory path => "Root is not a directory: " ++ path
  | rootUnreadable path reason => "Root not readable: " ++ path ++ " (" ++ reason ++ ")"
  | decode fault => fault.message
  | raised _ text => text

/-- Whether a failure is about a root that cannot be enumerated. -/
def isRoot : Failure → Bool
  | rootMissing _ | rootNotDirectory _ | rootUnreadable .. => true
  | raised (.system name) _ => name == "EnumerationError"
  | _ => false

/-- Whether a failure comes from the operating system. -/
def isSystem : Failure → Bool
  | file .. | unencodable | settingsMissing _ => true
  | rootMissing _ | rootNotDirectory _ | rootUnreadable .. => true
  | raised (.system _) _ => true
  | _ => false

/-- Whether a failure is the decoder's own. -/
def isDecode : Failure → Bool
  | decode _ | raised .decode _ => true
  | _ => false

/-- Whether a failure is a failed look-up. -/
def isLookup : Failure → Bool
  | nothingOpen | unknownItem _ | noCatalog _ | noSettingsPath _ | raised .lookup _ => true
  | _ => false

/-- A failure inside another text. -/
def report (f : Failure) : String :=
  if f.isLookup then Text.quoted f.message else f.message

end Failure

/-- The failure behind a numeral that is not read. -/
def Numeral.Fault.failure : Numeral.Fault → Failure
  | .malformed => .malformedNumber
  | .tooManyDigits n => .tooManyDigits n

namespace Value

/-- The binary64 number of a value that has to be a number already. -/
def real (v : Value) : Except Failure Binary64 :=
  match v.quantity? with
  | some q =>
    match q.toReal? with
    | some x => .ok x
    | none => .error .numberTooLarge
  | none => .error (.notANumber v.kind)

/-- A quantity in range is taken as the nearest number. -/
theorem real_of_quantity {v : Value} {q : Quantity} {x : Binary64}
    (quantity : v.quantity? = some q) (range : q.toReal? = some x) : v.real = .ok x := by
  unfold real
  rw [quantity]
  dsimp only
  rw [range]

/-- The binary64 number that a value can be turned into; texts are read as numerals. -/
def toReal (v : Value) : Except Failure Binary64 :=
  match v with
  | text s =>
    match Numeral.real s with
    | .ok x => .ok x
    | .error fault => .error fault.failure
  | v => real v

/-- The whole number that a value can be turned into; fractions are dropped and texts are read
as numerals. -/
def toInt (v : Value) : Except Failure Int :=
  match v with
  | text s =>
    match Numeral.int s with
    | .ok n => .ok n
    | .error fault => .error fault.failure
  | v =>
    match v.quantity? with
    | some (.whole n) => .ok n
    | some (.real .notANumber) => .error .malformedNumber
    | some (.real x) =>
      match x.truncate? with
      | some n => .ok n
      | none => .error .numberTooLarge
    | none => .error (.unsuitable v.kind "a whole number")

end Value

end VideoCatalog
