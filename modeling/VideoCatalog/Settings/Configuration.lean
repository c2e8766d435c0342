import VideoCatalog.Files.Tree

/-!
# Configurations

A configuration is a nested mapping of settings, and the directory that its relative paths
start from.

* `Configuration.get`: the setting under some keys, with a default.
* `Configuration.setting`: the same under two names.
* `Configuration.resolvePath`: a setting that is a path, made absolute.
-/

namespace VideoCatalog

/-- Settings, and the directory that relative paths start from. -/
structure Configuration where
  root : Path
  raw : Value
deriving Inhabited

namespace Configuration

/-- The setting under some keys. What is no mapping has no members, and what cannot be a key
is refused where a mapping would be asked for it. -/
def lookIn (default : Value) : List Value → Value → Except Failure Value
  | [], node => .ok node
  | key :: rest, node =>
    match node with
    | .map entries =>
      if key.isKey then
        match Value.lookup key entries with
        | some inner => lookIn default rest inner
        | none => .ok default
      else .error (.unsuitable key.kind "a key")
    | _ => .ok default

/-- The setting under some keys, or a default. -/
def get (config : Configuration) (keys : List Value) (default : Value) : Except Failure Value :=
  lookIn default keys config.raw

/-- The setting of a name in a section, or a default. -/
def setting (config : Configuration) (group name : String) (default : Value) : Value :=
  match (config.raw.member? group).bind (·.member? name) with
  | some v => v
  | none => default

/-- The texts of keys, which all have to be texts. -/
def keyTexts : List Value → Except Failure (List String)
  | [] => .ok []
  | .text s :: rest => (keyTexts rest).map (s :: ·)
  | v :: _ => .error (.unsuitable v.kind "joined")

/-- The path that a value names. -/
def pathOf : Value → Except Failure Path
  | .text s => .ok (.ofText s)
  | v => .error (.unsuitable v.kind "a path")

/-- A path made absolute: home directories are expanded, and relative paths start from the
root of the configuration and are cleared of links. -/
def absolutePath (config : Configuration) (around : Surroundings) (tree : FileTree)
    (p : Path) : Except Failure Path :=
  match around.expandHome p with
  | .error f => .error f
  | .ok p =>
    if p.isAbsolute then .ok p else tree.realPath (around.absolute (config.root.join p))

/-- The path under some keys, made absolute. -/
def resolvePath (config : Configuration) (around : Surroundings) (tree : FileTree)
    (keys : List Value) (default : Value) : Except Failure Path :=
  match config.get keys default with
  | .error f => .error f
  | .ok .null =>
    match keyTexts keys with
    | .error f => .error f
    | .ok names => .error (.noSettingsPath (String.intercalate "." names))
  | .ok v =>
    match pathOf v with
    | .error f => .error f
    | .ok p => config.absolutePath around tree p

end Configuration

/-- The setting of a name in a section; the default also without a configuration. -/
def settingOr (config : Option Configuration) (group name : String) (default : Value) :
    Value :=
  match config with
  | some c => c.setting group name default
  | none => default

end VideoCatalog
