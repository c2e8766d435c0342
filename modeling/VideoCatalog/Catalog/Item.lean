import VideoCatalog.Files.Path

/-!
# Items

* `Descriptor`: what a scan finds out about a file.
* `Thumbnail`: an encoded picture with its size.
* `Item`: a described file with what is learned about it later. Duration and thumbnail are
  written once: `recordDuration`, `recordDurationOf` and `recordThumbnail` refuse a second write.
* `Content`: a lease on the content of a file, open until it is closed.
-/

namespace VideoCatalog

/-- What a scan finds out about a file. -/
structure Descriptor where
  name : String
  relativePath : String
  size : Option Quantity
  modified : Option Quantity
  mime : String
  source : Path
deriving DecidableEq, Repr, Inhabited

/-- The type of encoded thumbnails. -/
def Thumbnail.defaultMime : String := "image/jpeg"

/-- An encoded picture with its size. -/
structure Thumbnail where
  data : List UInt8
  width : Nat
  height : Nat
  mime : String := Thumbnail.defaultMime
deriving DecidableEq, Repr, Inhabited

/-- A described file with what is learned about it later. `content` is the number of the
handle on its content. -/
structure Item where
  name : String
  relativePath : String
  size : Option Quantity
  modified : Option Quantity
  mime : String
  source : Path
  content : Option Nat := none
  duration : Option Quantity := none
  thumbnail : Option Thumbnail := none
  tags : List String := []
deriving DecidableEq, Repr, Inhabited

namespace Item

/-- The item of a descriptor, with nothing learned yet. -/
def ofDescriptor (d : Descriptor) : Item where
  name := d.name
  relativePath := d.relativePath
  size := d.size
  modified := d.modified
  mime := d.mime
  source := d.source

/-- Records a duration unless there is one. The flag says whether it was written. -/
def recordDuration (item : Item) (seconds : Binary64) : Bool × Item :=
  match item.duration with
  | some _ => (false, item)
  | none => (true, { item with duration := some (.real seconds) })

/-- Records a duration that a value stands for. The value is only looked at if there is no
duration yet. -/
def recordDurationOf (item : Item) (v : Value) : Except Failure (Bool × Item) :=
  match item.duration with
  | some _ => .ok (false, item)
  | none => v.toReal.map item.recordDuration

/-- Records a thumbnail unless there is one. The flag says whether it was written. -/
def recordThumbnail (item : Item) (thumbnail : Thumbnail) : Bool × Item :=
  match item.thumbnail with
  | some _ => (false, item)
  | none => (true, { item with thumbnail := some thumbnail })

end Item

/-- A lease on the content of a file. -/
structure Content where
  path : Path
  closed : Bool := false
deriving DecidableEq, Repr

namespace Content

/-- Ends a lease. -/
def close (c : Content) : Content := { c with closed := true }

/-- How a lease is shown. -/
def text (c : Content) : String :=
  "<ContentHandle " ++ c.path.text ++ " (" ++ (if c.closed then "closed" else "open") ++ ")>"

@[simp] theorem close_close (c : Content) : c.close.close = c.close := rfl

end Content

end VideoCatalog
