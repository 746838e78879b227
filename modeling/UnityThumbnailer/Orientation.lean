import Mathlib.Tactic.IntervalCases
import UnityThumbnailer.OrientedSize
import UnityThumbnailer.Raster

/-! The pixels of rotated images: what `load()` does to the decoded raster undoes the orientation
in which it was stored. -/
namespace UnityThumbnailer

namespace Orientation

variable {Pixel : Type*}

/-! ### The EXIF definition -/

/-- A side of the picture as it is seen. -/
inductive Side
  | top | bottom | left | right
  deriving DecidableEq

/-- Count rows or columns from this side on. -/
def Side.count {n : ℕ} : Side → Fin n → Fin n
  | .top | .left => id
  | .bottom | .right => Fin.rev

/-- The sides of the picture that the 0th row and the 0th column of the stored raster are. -/
def exifSides : ℕ → Option (Side × Side)
  | 1 => some (.top,.left)
  | 2 => some (.top,.right)
  | 3 => some (.bottom,.right)
  | 4 => some (.bottom,.left)
  | 5 => some (.left,.top)
  | 6 => some (.right,.top)
  | 7 => some (.right,.bottom)
  | 8 => some (.left,.bottom)
  | _ => none

/-- The raster that is stored for an upright picture; when its 0th row is the left or right
side of the picture, its rows are the columns of the picture. -/
def storedBy (sides : Side × Side) (upright : Raster Pixel) : Raster Pixel :=
  match sides.1 with
  | .top | .bottom => ⟨upright.width,upright.height,fun i j =>
      upright.pixel (sides.1.count i) (sides.2.count j)⟩
  | .left | .right => ⟨upright.height,upright.width,fun i j =>
      upright.pixel (sides.2.count j) (sides.1.count i)⟩

/-! ### The correction -/

inductive PixbufRotation
  | counterclockwise | upsidedown | clockwise

/-- `gdk_pixbuf_rotate_simple` -/
def rotateSimple (r : Raster Pixel) : PixbufRotation → Raster Pixel
  | .counterclockwise => r.rotateCounterclockwise
  | .upsidedown => r.rotateHalf
  | .clockwise => r.rotateClockwise

/-- `gdk_pixbuf_flip` -/
def flip (r : Raster Pixel) (horizontal : Bool) : Raster Pixel :=
  if horizontal then r.mirrorColumns else r.mirrorRows

/-- Correct the image orientation, if needed. -/
def correctOrientation (orientation : ℕ) (pixbuf : Raster Pixel) : Raster Pixel :=
  match orientation with
  | 1 => pixbuf
  | 2 => flip pixbuf true
  | 3 => rotateSimple pixbuf .upsidedown
  | 4 => flip pixbuf false
  | 5 => flip (rotateSimple pixbuf .clockwise) true
  | 6 => rotateSimple pixbuf .clockwise
  | 7 => flip (rotateSimple pixbuf .counterclockwise) true
  | 8 => rotateSimple pixbuf .counterclockwise
  -- impossible according to the specification
  | _ => pixbuf

section Undone

variable (upright : Raster Pixel)

/-- The stored rasters as turned and mirrored ones. -/
theorem storedBy_eq :
    storedBy (.top,.left) upright = upright ∧
    storedBy (.top,.right) upright = upright.mirrorColumns ∧
    storedBy (.bottom,.right) upright = upright.mirrorRows.mirrorColumns ∧
    storedBy (.bottom,.left) upright = upright.mirrorRows ∧
    storedBy (.left,.top) upright = upright.transpose ∧
    storedBy (.right,.top) upright = upright.transpose.mirrorRows ∧
    storedBy (.right,.bottom) upright = upright.transpose.mirrorRows.mirrorColumns ∧
    storedBy (.left,.bottom) upright = upright.transpose.mirrorColumns :=
  ⟨rfl,rfl,rfl,rfl,rfl,rfl,rfl,rfl⟩

theorem correctOrientation_storedBy {orientation : ℕ} {sides : Side × Side}
    (h : exifSides orientation = some sides) :
    correctOrientation orientation (storedBy sides upright) = upright := by
  obtain ⟨-,h2,h3,h4,h5,h6,h7,h8⟩ := storedBy_eq upright
  unfold exifSides at h
  split at h <;> cases h
  case h_1 => rfl
  case h_2 =>
    rw [h2]
    exact Raster.mirrorColumns_mirrorColumns upright
  case h_3 =>
    rw [h3,correctOrientation,rotateSimple,Raster.rotateHalf_eq,Raster.mirrorColumns_mirrorRows,
      Raster.mirrorRows_mirrorRows,Raster.mirrorColumns_mirrorColumns]
  case h_4 =>
    rw [h4]
    exact Raster.mirrorRows_mirrorRows upright
  case h_5 =>
    rw [h5,correctOrientation,rotateSimple,Raster.rotateClockwise_eq,Raster.transpose_transpose]
    exact Raster.mirrorColumns_mirrorColumns upright
  case h_6 =>
    rw [h6,correctOrientation,rotateSimple,Raster.rotateClockwise_eq,Raster.transpose_mirrorRows,
      Raster.transpose_transpose,Raster.mirrorColumns_mirrorColumns]
  case h_7 =>
    -- the counterclockwise turn undoes the reversed columns, and the flip the reversed rows
    rw [h7,correctOrientation,rotateSimple,Raster.rotateCounterclockwise_eq,
      Raster.transpose_mirrorColumns,Raster.transpose_mirrorRows,Raster.transpose_transpose,
      Raster.mirrorRows_mirrorRows]
    exact Raster.mirrorColumns_mirrorColumns upright
  case h_8 =>
    rw [h8,correctOrientation,rotateSimple,Raster.rotateCounterclockwise_eq,
      Raster.transpose_mirrorColumns,Raster.transpose_transpose,Raster.mirrorRows_mirrorRows]

end Undone

/-! ### The sizes -/

/-- What the model without pixels keeps of a raster. -/
def size (r : Raster Pixel) : QSize := ⟨r.width,r.height⟩

section Size

variable {r : Raster Pixel} {p : Pixbuf}

/-- The orientations that the specification leaves out are upright. -/
theorem correctOrientation_turned (orientation : ℕ) (r : Raster Pixel) :
    size (correctOrientation orientation r) = ExifThumbnail.turned orientation (size r) := by
  match orientation with
  | 0 | 1 | 2 | 3 | 4 | 5 | 6 | 7 | 8 => rfl
  | n+9 =>
    have hupright : sideways (n+9) = false := by
      simp only [sideways,Bool.and_eq_false_iff,decide_eq_false_iff_not]
      omega
    rw [ExifThumbnail.turned,hupright]
    rfl

/-- `applyOrientation` is the correction without the pixels. -/
theorem correctOrientation_size (orientation : ℕ) (h : size r = p.size) :
    size (correctOrientation orientation r) = (applyOrientation orientation p).size := by
  rw [correctOrientation_turned,h,ExifThumbnail.applyOrientation_size]

/-- A stored raster has the size that the file has without the pixels. -/
theorem storedBy_size {orientation : ℕ} {sides : Side × Side} {file : ImageFile}
    (hsides : exifSides orientation = some sides) (h : size r = file.picture.size) :
    size (storedBy sides r) = (OrientedSize.storedIn orientation file).picture.size := by
  change size (storedBy sides r) = (applyOrientation orientation file.picture).size
  rw [ExifThumbnail.applyOrientation_size,← h]
  unfold exifSides at hsides
  split at hsides <;> cases hsides <;> rfl

end Size

/-- In each of the eight orientations, what `load()` does to the raster that is stored for an
upright picture gives back that picture, with its width, its height and every pixel. -/
theorem orientation_undone (upright : Raster Pixel) (orientation : ℕ) (h1 : 1 ≤ orientation)
    (h8 : orientation ≤ 8) : ∃ sides, exifSides orientation = some sides ∧
      correctOrientation orientation (storedBy sides upright) = upright := by
  have hdefined : ∃ sides, exifSides orientation = some sides := by
    interval_cases orientation <;> exact ⟨_,rfl⟩
  obtain ⟨sides,hsides⟩ := hdefined
  exact ⟨sides,hsides,correctOrientation_storedBy upright hsides⟩

/-- Three by two numbered pixels. -/
def numbered : Raster ℕ := ⟨3,2,fun y x => 3*y+x⟩

theorem orientation_undone_numbered : ∃ sides, exifSides 7 = some sides ∧
    correctOrientation 7 (storedBy sides numbered) = numbered :=
  orientation_undone numbered 7 (by decide) (by decide)

end Orientation
end UnityThumbnailer
