import VideoCatalog.Settings.Configuration
import VideoCatalog.Yaml.Document

/-!
# Loading a configuration

* `Configuration.chosen`: which file is asked for, and whether it has to be there.
* `Configuration.ofBytes`: the configuration in a file.
* `Configuration.load`: the configuration that a program starts with.
-/

namespace VideoCatalog.Configuration

/-- The name of the file that is read if none is asked for. -/
def standardName : String := "config.yaml"

/-- The file that is asked for, and whether it has to be there. An explicit path wins over the
one from the surroundings; the standard file may be missing. -/
def chosen (around : Surroundings) (explicit : Option Path) : Path × Bool :=
  match explicit with
  | some p => (p, true)
  | none =>
    match around.settings with
    | some text => if text.isEmpty then (.ofText standardName, false) else (.ofText text, true)
    | none => (.ofText standardName, false)

/-- The configuration in the bytes of a file, whose directory relative paths start from. What
does not count as set is an empty configuration. -/
def ofBytes (file : Path) (bytes : List UInt8) : Except Failure Configuration :=
  match Yaml.decodeDocument bytes with
  | .error f => .error f
  | .ok v =>
    if v.truthy then
      match v with
      | .map entries => .ok ⟨file.parent, .map entries⟩
      | _ => .error (.settingsNotMapping file.text)
    else .ok ⟨file.parent, .map []⟩

/-- A path made absolute: home directories are expanded, and relative paths start from the
current directory and are cleared of links. -/
def located (around : Surroundings) (tree : FileTree) (p : Path) : Except Failure Path :=
  match around.expandHome p with
  | .error f => .error f
  | .ok p => if p.isAbsolute then .ok p else tree.realPath (around.absolute p)

/-- The configuration that a program starts with. Without a standard file it is empty and
relative paths start from the current directory. -/
def load (around : Surroundings) (tree : FileTree) (explicit : Option Path) :
    Except Failure Configuration :=
  let (wanted, required) := chosen around explicit
  match located around tree wanted with
  | .error f => .error f
  | .ok file =>
    match tree.exists? file with
    | .error f => .error f
    | .ok false =>
      if required then .error (.settingsMissing file.text)
      else .ok ⟨around.directory, .map []⟩
    | .ok true =>
      match tree.read file with
      | .error f => .error f
      | .ok bytes => ofBytes file bytes

end VideoCatalog.Configuration
