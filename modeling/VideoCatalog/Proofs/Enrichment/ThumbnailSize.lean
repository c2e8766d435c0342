import Mathlib.Tactic.Linarith
import Mathlib.Tactic.NormNum
import VideoCatalog.Enrichment.Thumbnail
import VideoCatalog.Proofs.Number.Nearest

/-!
# The size of a thumbnail

The scale of a thumbnail is a rounded quotient, and each side is a rounded product that is rounded
again to a whole number. The errors of the first two roundings are far below the last one.

* `scale_near`: the scale is close to the exact quotient and at most one.
* `scaledSide_near`: a scaled side is less than one pixel from the exact product and never greater
  than the side.
* `thumbnail_keeps_ratio`: the width is exact, and the height is less than one pixel from what the
  ratio of the frame asks for.
-/

namespace VideoCatalog

-- The count of units is never evaluated here.
attribute [local irreducible] Binary64.unitsPerOne

namespace Binary64

theorem two_pow_le_unitsPerOne {k : ℕ} (le : k ≤ 1074) : 2 ^ k ≤ unitsPerOne := by
  rw [unitsPerOne_eq]
  generalize 1074 = e at le ⊢
  exact Nat.pow_le_pow_right Nat.two_pos le

/-- Whole numbers of 53 bits have exact counts. -/
theorem isExact_whole {n : ℕ} (small : n < 2 ^ 53) : IsExact (n * unitsPerOne) :=
  ⟨n, 1074, small, by rw [unitsPerOne_eq]⟩

theorem isExact_unitsPerOne : IsExact unitsPerOne :=
  Nat.one_mul unitsPerOne ▸ isExact_whole (n := 1) (by decide)

/-- A quotient below a whole number of 53 bits has a count below that of the number. -/
theorem ofUnits_of_le {n d : ℕ} (bound : ℕ) (small : bound < 2 ^ 53) (positive : 0 < d)
    (le : n ≤ bound * unitsPerOne * d) :
    ofUnits false n d = .finite false (nearestUnits n d) ∧
      nearestUnits n d ≤ bound * unitsPerOne := by
  have below := nearestUnits_le (isExact_whole small) positive le
  have range : nearestUnits n d < unitsLimit :=
    (below.trans (Nat.mul_le_mul_right _ (le_greatest small))).trans_lt greatest_lt_unitsLimit
  refine ⟨?_, below⟩
  unfold ofUnits
  dsimp only
  rw [if_pos range]

/-- A distance may be measured in units. -/
theorem abs_div_units_sub_le (a b c : ℚ) :
    |a / unitsPerOne - b| ≤ c ↔ |a - b * unitsPerOne| ≤ c * unitsPerOne := by
  have units : (0 : ℚ) < unitsPerOne := mod_cast pos_unitsPerOne
  have move : a / unitsPerOne - b = (a - b * unitsPerOne) / unitsPerOne := by
    rw [sub_div, mul_div_cancel_right₀ _ units.ne']
  rw [move, abs_div, abs_of_pos units, div_le_iff₀ units]

end Binary64

open Binary64

/-! ### The scale -/

section Scale

variable {w m : ℕ}

/-- The quotient of two sizes, as a count of units. -/
def scaleUnits (m w : ℕ) : ℕ := nearestUnits (m * unitsPerOne) w

theorem ofRatio_sizes (wide : 0 < w) (small : m < 2 ^ 31) :
    ofRatio false m w = .finite false (scaleUnits m w) := by
  refine (ofUnits_of_le m (small.trans (by decide)) wide ?_).1
  exact Nat.le_mul_of_pos_right _ wide

theorem widthRatio_whole (wide : 0 < w) (small : m < 2 ^ 31) :
    widthRatio (.whole m) w = .ok (.finite false (scaleUnits m w)) := by
  have sign : decide ((m : ℤ) < 0) = false := decide_eq_false (by omega)
  have opened : widthRatio (.whole m) w =
      (ofRatio (decide ((m : ℤ) < 0)) (m : ℤ).natAbs w).inRange := rfl
  rw [opened, sign, Int.natAbs_natCast, ofRatio_sizes wide small]
  rfl

/-- The scale is the quotient, but at most one. -/
theorem thumbnailScale_whole (wide : 0 < w) (small : m < 2 ^ 31) :
    thumbnailScale (.whole m) w = .ok (.finite false (min (scaleUnits m w) unitsPerOne)) := by
  unfold thumbnailScale
  rw [widthRatio_whole wide small, Except.map]
  split
  case isTrue less => rw [min_eq_left ((less_finite _ _).1 less).le]
  case isFalse not =>
    rw [min_eq_right (Nat.le_of_not_lt fun less => not ((less_finite _ _).2 less))]
    rfl

/-- The quotient has all 53 bits. -/
theorem large_ratio (some : 0 < m) (narrow : w < 2 ^ 31) : 2 ^ 52 * w ≤ m * unitsPerOne := by
  calc 2 ^ 52 * w ≤ 2 ^ 52 * 2 ^ 31 := Nat.mul_le_mul_left _ narrow.le
    _ = 2 ^ 83 := by norm_num
    _ ≤ unitsPerOne := two_pow_le_unitsPerOne (by decide)
    _ ≤ m * unitsPerOne := Nat.le_mul_of_pos_left _ some

/-- The scale is close to the exact quotient, but at most one, and has all 53 bits. -/
theorem scale_near (wide : 0 < w) (narrow : w < 2 ^ 31) (some : 0 < m) :
    2 ^ 52 ≤ min (scaleUnits m w) unitsPerOne ∧
      |(min (scaleUnits m w) unitsPerOne : ℕ) / unitsPerOne - (min w m : ℕ) / (w : ℚ)| ≤
        (min w m : ℕ) / (w : ℚ) / 2 ^ 53 := by
  have units : (0 : ℚ) < unitsPerOne := mod_cast pos_unitsPerOne
  have width : (0 : ℚ) < w := mod_cast wide
  have large := large_ratio some narrow
  have bits : 2 ^ 52 ≤ scaleUnits m w :=
    le_nearestUnits ⟨1, 52, by decide, by decide⟩ wide large
  refine ⟨le_min bits (two_pow_le_unitsPerOne (by decide)), ?_⟩
  rcases le_total w m with le | le
  · -- Nothing is scaled, and the scale is one.
    have full : unitsPerOne ≤ scaleUnits m w := by
      refine le_nearestUnits ?_ wide ?_
      · exact isExact_unitsPerOne
      · rw [Nat.mul_comm]
        exact Nat.mul_le_mul_right _ le
    rw [min_eq_right full, min_eq_left le, div_self units.ne', div_self width.ne', sub_self,
      abs_zero]
    positivity
  · have part : scaleUnits m w ≤ unitsPerOne := by
      refine nearestUnits_le ?_ wide ?_
      · exact isExact_unitsPerOne
      · rw [Nat.mul_comm]
        exact Nat.mul_le_mul_left _ le
    have near := nearestUnits_near wide large
    have exact : ((m * unitsPerOne : ℕ) / w : ℚ) = m / w * unitsPerOne := by
      rw [Nat.cast_mul, mul_div_right_comm]
    rw [exact, mul_div_right_comm] at near
    rw [min_eq_left part, min_eq_right le]
    exact (abs_div_units_sub_le _ _ _).2 near

end Scale

/-! ### A scaled side -/

section Side

variable {side s : ℕ}

/-- A side times the scale, as a count of units. -/
def productUnits (side s : ℕ) : ℕ := nearestUnits (side * unitsPerOne * s) unitsPerOne

/-- The pixels of a scaled side, before it is made one at least. -/
def scaledPixels (side s : ℕ) : ℕ := roundHalfEven (productUnits side s) unitsPerOne

theorem product_finite (short : side < 2 ^ 31) (part : s ≤ unitsPerOne) :
    (Binary64.ofNat side).mul (.finite false s) = .finite false (productUnits side s) ∧
      productUnits side s ≤ side * unitsPerOne := by
  rw [ofNat_eq (short.trans (by decide)), mul, bne_self_eq_false]
  exact ofUnits_of_le side (short.trans (by decide)) pos_unitsPerOne (Nat.mul_le_mul_left _ part)

theorem scaledSide_of_round {scale : Binary64} {n : ℤ}
    (rounded : ((Binary64.ofNat side).mul scale).round? = some n) :
    scaledSide side scale = .ok (max 1 n).toNat := by
  -- Opened under its binders: applied to a side, the match would be evaluated on the product.
  suffices opened : ∀ f : ℕ → Binary64 → Except Failure ℕ, f = scaledSide →
      f side scale = .ok (max 1 n).toNat from opened _ rfl
  delta scaledSide
  rintro f rfl
  dsimp only
  rw [rounded]

theorem scaledSide_eq (short : side < 2 ^ 31) (part : s ≤ unitsPerOne) :
    scaledSide side (.finite false s) = .ok (max 1 (scaledPixels side s)) := by
  have rounded : ((Binary64.ofNat side).mul (.finite false s)).round? =
      some (scaledPixels side s : ℤ) := by
    rw [(product_finite short part).1]
    rfl
  have pixels : (max 1 (scaledPixels side s : ℤ)).toNat = max 1 (scaledPixels side s) := by omega
  rw [scaledSide_of_round rounded, pixels]

/-- A side is never enlarged. -/
theorem scaledPixels_le (short : side < 2 ^ 31) (part : s ≤ unitsPerOne) :
    scaledPixels side s ≤ side := by
  calc scaledPixels side s
      ≤ roundHalfEven (side * unitsPerOne) unitsPerOne :=
        roundHalfEven_mono (product_finite short part).2 pos_unitsPerOne
    _ = side := roundHalfEven_mul side pos_unitsPerOne

/-- The product is rounded to 53 bits. -/
theorem product_near (some : 0 < side) (bits : 2 ^ 52 ≤ s) :
    |(productUnits side s : ℚ) / unitsPerOne - side * (s / unitsPerOne)| ≤
      side * (s / unitsPerOne) / 2 ^ 53 := by
  have large : 2 ^ 52 * unitsPerOne ≤ side * unitsPerOne * s := by
    calc 2 ^ 52 * unitsPerOne ≤ s * unitsPerOne := Nat.mul_le_mul_right _ bits
      _ ≤ side * (s * unitsPerOne) := Nat.le_mul_of_pos_left _ some
      _ = side * unitsPerOne * s := by rw [Nat.mul_comm s, Nat.mul_assoc]
  have near := nearestUnits_near pos_unitsPerOne large
  have exact : ((side * unitsPerOne * s : ℕ) / unitsPerOne : ℚ) =
      side * (s / unitsPerOne) * unitsPerOne := by
    rw [Nat.cast_mul, Nat.cast_mul, mul_div_assoc, mul_right_comm]
  rw [exact, mul_div_right_comm] at near
  exact (abs_div_units_sub_le _ _ _).2 near

/-- The product is rounded to whole pixels. -/
theorem scaledPixels_near (side s : ℕ) :
    |(scaledPixels side s : ℚ) - productUnits side s / unitsPerOne| ≤ 1 / 2 := by
  obtain ⟨below, above⟩ := roundHalfEven_near (productUnits side s) pos_unitsPerOne
  have below' : (2 * productUnits side s : ℚ) ≤
      2 * (scaledPixels side s * unitsPerOne) + unitsPerOne := mod_cast below
  have above' : (2 * (scaledPixels side s * unitsPerOne) : ℚ) ≤
      2 * productUnits side s + unitsPerOne := mod_cast above
  rw [abs_sub_comm, abs_div_units_sub_le, abs_le]
  constructor <;> linarith

/-- Altogether a scaled side is less than three quarters of a pixel from the exact product. -/
theorem scaledSide_near {ratio : ℚ} (some : 0 < side) (short : side < 2 ^ 31)
    (part : s ≤ unitsPerOne) (bits : 2 ^ 52 ≤ s)
    (near : |s / unitsPerOne - ratio| ≤ ratio / 2 ^ 53) (le_one : ratio ≤ 1) :
    |scaledPixels side s - side * ratio| < 3 / 4 := by
  have units : (0 : ℚ) < unitsPerOne := mod_cast pos_unitsPerOne
  have scale : (s / unitsPerOne : ℚ) ≤ 1 := (div_le_one units).2 (mod_cast part)
  have length : (side : ℚ) < 2 ^ 31 := mod_cast short
  have positive : (0 : ℚ) < side := mod_cast some
  have whole := scaledPixels_near side s
  have product := product_near some bits
  have quotient : |(side * (s / unitsPerOne) - side * ratio : ℚ)| ≤ side * (ratio / 2 ^ 53) := by
    rw [← mul_sub, abs_mul, abs_of_pos positive]
    exact mul_le_mul_of_nonneg_left near positive.le
  have scaled : (side * (s / unitsPerOne) : ℚ) ≤ side := mul_le_of_le_one_right positive.le scale
  have exact : side * ratio ≤ side := mul_le_of_le_one_right positive.le le_one
  rw [abs_le] at whole product quotient
  rw [abs_lt]
  constructor <;> linarith

end Side

/-! ### Both sides -/

/-- The frame that is scaled: a frame that reports no width or no height counts as 320 by 180. -/
def Frame.sized (frame : Frame) : Frame :=
  if frame.width = 0 ∨ frame.height = 0 then ⟨320, 180⟩ else frame

theorem scaledSides_of_sides {frame : Frame} {scale : Binary64} {width height : ℕ}
    (wide : scaledSide frame.width scale = .ok width)
    (high : scaledSide frame.height scale = .ok height) :
    scaledSides frame scale = .ok (width, height) := by
  suffices opened : ∀ f : Frame → Binary64 → Except Failure (ℕ × ℕ), f = scaledSides →
      f frame scale = .ok (width, height) from opened _ rfl
  delta scaledSides
  rintro f rfl
  dsimp only
  rw [wide, high]

theorem thumbnailSize_of_scale {frame : Frame} {maxWidth : Quantity} {scale : Binary64}
    (scaled : thumbnailScale maxWidth frame.sized.width = .ok scale) :
    thumbnailSize frame maxWidth = scaledSides frame.sized scale := by
  have next (f : Binary64 → Except Failure (ℕ × ℕ)) : (Except.ok scale).bind f = f scale := rfl
  have opened : thumbnailSize frame maxWidth =
      (thumbnailScale maxWidth frame.sized.width).bind (scaledSides frame.sized) := rfl
  rw [opened, scaled, next]

/-- The encoder gets the size that has been chosen, unless a side is too long for it. -/
theorem renderThumbnail_of_size {encoder : Encoder} {picture : Picture}
    {maxWidth quality : Value} {q : Quantity} {width height : ℕ}
    (quantity : maxWidth.quantity? = some q)
    (size : thumbnailSize picture.toFrame q = .ok (width, height))
    (accepted : encoder.check quality = .ok ()) :
    renderThumbnail encoder picture maxWidth quality =
      if encoder.limit < width ∨ encoder.limit < height then .error .unencodable
      else .ok {
        data := encoder.bytes picture width height quality, width := width, height := height } := by
  unfold renderThumbnail
  rw [quantity]
  dsimp only
  rw [size]
  dsimp only
  rw [accepted]

/-- Both sides of the frame that is scaled are positive and in range. -/
theorem sized_bounds {frame : Frame} (narrow : frame.width < 2 ^ 31)
    (low : frame.height < 2 ^ 31) :
    (0 < frame.sized.width ∧ frame.sized.width < 2 ^ 31) ∧
      0 < frame.sized.height ∧ frame.sized.height < 2 ^ 31 := by
  unfold Frame.sized
  split
  · exact ⟨by decide, by decide⟩
  · omega

/-- A width that is asked for is exact. -/
theorem scaled_width {w m : ℕ} {pixels : ℕ} (wide : 0 < w) (some : 0 < m)
    (near : |(pixels : ℚ) - w * ((min w m : ℕ) / w)| < 3 / 4) : max 1 pixels = min w m := by
  have width : (w : ℚ) ≠ 0 := by exact_mod_cast wide.ne'
  rw [mul_div_cancel₀ _ width, abs_lt] at near
  have below : (min w m : ℕ) < (pixels : ℚ) + 1 := by linarith [near.1]
  have above : (pixels : ℚ) < (min w m : ℕ) + 1 := by linarith [near.2]
  have below' : min w m < pixels + 1 := by exact_mod_cast below
  have above' : pixels < min w m + 1 := by exact_mod_cast above
  omega

/-- A height that has been made one at least is still less than one pixel away. -/
theorem scaled_height {pixels : ℕ} {exact : ℚ} (positive : 0 < exact)
    (near : |(pixels : ℚ) - exact| < 3 / 4) : |((max 1 pixels : ℕ) : ℚ) - exact| < 1 := by
  rw [abs_lt] at near ⊢
  rcases Nat.eq_zero_or_pos pixels with rfl | some
  · norm_num at near ⊢
    constructor <;> linarith
  · rw [max_eq_right some]
    constructor <;> linarith

/-- A thumbnail is as wide as asked for, but no wider than the frame. Its height is at least one
pixel, no greater than that of the frame, and less than one pixel from what the ratio of the frame
asks for. An encoder gets the picture and this size, unless that is too large for it. -/
theorem thumbnail_keeps_ratio {frame : Frame} {maxWidth : ℕ} (narrow : frame.width < 2 ^ 31)
    (low : frame.height < 2 ^ 31) (some : 1 ≤ maxWidth) (small : maxWidth < 2 ^ 31) :
    ∃ height, thumbnailSize frame (.whole maxWidth) =
        .ok (min frame.sized.width maxWidth, height) ∧
      1 ≤ height ∧ height ≤ frame.sized.height ∧
      |(height : ℚ) - frame.sized.height * (min frame.sized.width maxWidth : ℕ) /
        frame.sized.width| < 1 ∧
      ∀ (encoder : Encoder) content quality, encoder.check quality = .ok () →
        renderThumbnail encoder ⟨frame, content⟩ (.int maxWidth) quality =
          if encoder.limit < min frame.sized.width maxWidth ∨ encoder.limit < height then
            .error .unencodable
          else .ok {
            data := encoder.bytes ⟨frame, content⟩ (min frame.sized.width maxWidth) height quality
            width := min frame.sized.width maxWidth
            height := height } := by
  obtain ⟨⟨wide, narrow'⟩, high, low'⟩ := sized_bounds narrow low
  obtain ⟨bits, near⟩ := scale_near wide narrow' some
  have part := min_le_right (scaleUnits maxWidth frame.sized.width) unitsPerOne
  have scaled := thumbnailSize_of_scale (thumbnailScale_whole wide small)
  generalize min (scaleUnits maxWidth frame.sized.width) unitsPerOne = s at bits near part scaled
  have width : (0 : ℚ) < frame.sized.width := mod_cast wide
  have positive : (0 : ℚ) < (min frame.sized.width maxWidth : ℕ) / frame.sized.width :=
    div_pos (mod_cast lt_min wide some) width
  have le_one : ((min frame.sized.width maxWidth : ℕ) / frame.sized.width : ℚ) ≤ 1 :=
    (div_le_one width).2 (mod_cast min_le_left _ _)
  have across := scaledSide_near wide narrow' part bits near le_one
  have down := scaledSide_near high low' part bits near le_one
  have size : thumbnailSize frame (.whole maxWidth) =
      .ok (min frame.sized.width maxWidth, max 1 (scaledPixels frame.sized.height s)) := by
    rw [scaled, ← scaled_width wide some across]
    exact scaledSides_of_sides (scaledSide_eq narrow' part) (scaledSide_eq low' part)
  refine ⟨_, size, le_max_left _ _, max_le high (scaledPixels_le low' part), ?_, ?_⟩
  · rw [mul_div_assoc]
    exact scaled_height (mul_pos (mod_cast high) positive) down
  · intro encoder content quality accepted
    exact renderThumbnail_of_size rfl size accepted

/-- A frame one pixel wider than what is asked for, and one pixel high. -/
theorem thumbnail_keeps_ratio_of_line :
    (Frame.mk 2147483647 1).width < 2 ^ 31 ∧ (Frame.mk 2147483647 1).height < 2 ^ 31 ∧
      1 ≤ 2147483646 ∧ 2147483646 < 2 ^ 31 ∧
      thumbnailSize ⟨2147483647, 1⟩ (.whole (2147483646 : ℕ)) = .ok (2147483646, 1) ∧
      |(1 : ℚ) - 1 * 2147483646 / 2147483647| < 1 := by
  refine ⟨by decide, by decide, by decide, by decide, ?_⟩
  obtain ⟨height, size, least, most, near, -⟩ :=
    @thumbnail_keeps_ratio ⟨2147483647, 1⟩ 2147483646 (by decide) (by decide) (by decide)
      (by decide)
  obtain rfl : height = 1 := le_antisymm most least
  exact ⟨size, by simpa [Frame.sized] using near⟩

-- The fallback is scaled like any other frame.
example : thumbnailSize ⟨0, 500⟩ (.whole 100) = .ok (100, 56) := by decide +kernel

end VideoCatalog
