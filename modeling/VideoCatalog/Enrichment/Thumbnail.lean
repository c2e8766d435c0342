import VideoCatalog.Catalog.Item

/-!
# Thumbnails

* `seekTarget`: the time of the frame that is captured.
* `thumbnailSize`: the size of a thumbnail: no wider than asked for, never enlarged, at least
  one pixel each way.
* `Encoder`: what encodes pictures, with the sides and the qualities that it takes.
* `renderThumbnail`: the thumbnail of a picture.
-/

namespace VideoCatalog

/-- The size of a captured frame. -/
structure Frame where
  width : Nat
  height : Nat
deriving DecidableEq, Repr, Inhabited

/-- A captured frame: its size, and what it shows. -/
structure Picture extends Frame where
  content : List UInt8 := []
deriving DecidableEq, Repr, Inhabited

/-- A frame of which only the size is known. -/
instance : Coe Frame Picture := ⟨fun frame => { frame with }⟩

/-- The size that stands in for a frame without one. -/
def fallbackFrame : Frame := ⟨320, 180⟩

/-- One tenth. -/
def tenth : Binary64 := .ofRatio false 1 10

/-- A tenth of the duration, but at least a tenth of a second and at most one second. An
unknown duration counts as one second. -/
def seekTarget (duration : Value) : Except Failure Binary64 :=
  let target (base : Binary64) : Binary64 :=
    let part := base.mul tenth
    let part := if tenth.less part then part else tenth
    if Binary64.one.less part then .one else part
  match duration with
  | .null => .ok (target .one)
  | v => (v.real).map fun x =>
    if x.isFinite && Binary64.zero.less x then target x else target .one

/-- A number that has to be in range. -/
def Binary64.inRange : Binary64 → Except Failure Binary64
  | .infinite _ => .error .numberTooLarge
  | x => .ok x

/-- The width that is asked for, divided by the width that is there. -/
def widthRatio (maxWidth : Quantity) (width : Nat) : Except Failure Binary64 :=
  match maxWidth with
  | .whole n => (Binary64.ofRatio (n < 0) n.natAbs width).inRange
  | .real x => .ok (x.div (Binary64.ofNat width))

/-- The scale that makes a width as wide as asked for, at most one. -/
def thumbnailScale (maxWidth : Quantity) (width : Nat) : Except Failure Binary64 :=
  (widthRatio maxWidth width).map fun x => if x.less .one then x else .one

/-- A scaled side, rounded, and at least one. -/
def scaledSide (side : Nat) (scale : Binary64) : Except Failure Nat :=
  match ((Binary64.ofNat side).mul scale).round? with
  | some n => .ok (max 1 n).toNat
  | none => .error .numberTooLarge

/-- Both sides of a frame, scaled. -/
def scaledSides (frame : Frame) (scale : Binary64) : Except Failure (Nat × Nat) :=
  match scaledSide frame.width scale, scaledSide frame.height scale with
  | .ok w, .ok h => .ok (w, h)
  | .error f, _ => .error f
  | _, .error f => .error f

/-- The size of the thumbnail of a frame. -/
def thumbnailSize (frame : Frame) (maxWidth : Quantity) : Except Failure (Nat × Nat) :=
  let frame := if frame.width = 0 ∨ frame.height = 0 then fallbackFrame else frame
  (thumbnailScale maxWidth frame.width).bind (scaledSides frame)

/-- The usual names of qualities. -/
def namedQualities : List String := [
  "web_low", "web_medium", "web_high", "web_very_high", "web_maximum", "low", "medium", "high",
  "maximum"]

/-- Refuses a quality that is neither a whole number nor one of the usual names. -/
def checkQuality (quality : Value) : Except Failure Unit :=
  match quality with
  | .bool _ | .number (.whole _) => .ok ()
  | .text s => if namedQualities.contains s then .ok () else .error .malformedNumber
  | v => if v.isKey then .error .malformedNumber else .error (.unsuitable v.kind "a quality")

/-- What encodes pictures, which is no part of the program: the bytes of a picture with a width, a
height and a quality, the largest side that is encoded, and the qualities that are taken. -/
structure Encoder where
  bytes : Picture → Nat → Nat → Value → List UInt8
  limit : Nat := 65500
  check : Value → Except Failure Unit := checkQuality

/-- An encoder without an output. -/
instance : Inhabited Encoder := ⟨{ bytes := fun _ _ _ _ => [] }⟩

/-- An encoder with the usual bounds that does not look at the picture. -/
instance : Coe (Nat → Nat → Value → List UInt8) Encoder :=
  ⟨fun bytes => { bytes := fun _ => bytes }⟩

/-- The thumbnail of a picture. -/
def renderThumbnail (encoder : Encoder) (picture : Picture) (maxWidth quality : Value) :
    Except Failure Thumbnail :=
  match maxWidth.quantity? with
  | none => .error (.unsuitable maxWidth.kind "a width")
  | some q =>
    match thumbnailSize picture.toFrame q with
    | .error f => .error f
    | .ok (w, h) =>
      match encoder.check quality with
      | .error f => .error f
      | .ok () =>
        if encoder.limit < w ∨ encoder.limit < h then .error .unencodable
        else .ok { data := encoder.bytes picture w h quality, width := w, height := h }

end VideoCatalog
