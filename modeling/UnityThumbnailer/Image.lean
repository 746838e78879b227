import UnityThumbnailer.QSize

/-! Loading, scaling and saving images. Pixels are left out: an image is known by its
size, its alpha channel and the flag that `Image` keeps about it. -/
namespace UnityThumbnailer

/-- A decoded raster; gdk-pixbuf never holds one with an empty side. -/
structure Pixbuf where
  width : ℤ
  height : ℤ
  hasAlpha : Bool
  width_pos : 0 < width
  height_pos : 0 < height
  deriving DecidableEq

namespace Pixbuf

def size (p : Pixbuf) : QSize := ⟨p.width,p.height⟩

/-- The same picture at another size, refused when a side is empty. -/
def resized (p : Pixbuf) (width height : ℤ) : Option Pixbuf :=
  if h : 0 < width ∧ 0 < height then some ⟨width,height,p.hasAlpha,h.1,h.2⟩ else none

/-- A quarter turn in either direction. -/
def rotateQuarter (p : Pixbuf) : Pixbuf :=
  ⟨p.height,p.width,p.hasAlpha,p.height_pos,p.width_pos⟩

/-- The box that a request leaves for an image of this size. -/
def boxFor (p : Pixbuf) (requestedSize : QSize) : QSize :=
  requestedSize.fillMissing p.width p.height

theorem boxFor_pos (p : Pixbuf) {r : QSize} (hr : r.isValid = true) :
    0 < (p.boxFor r).width ∧ 0 < (p.boxFor r).height :=
  QSize.fillMissing_pos hr p.width_pos p.height_pos

@[simp] theorem rotateQuarter_hasAlpha (p : Pixbuf) : p.rotateQuarter.hasAlpha = p.hasAlpha := rfl

theorem resized_some {p q : Pixbuf} {w h : ℤ} (hq : p.resized w h = some q) :
    q.width = w ∧ q.height = h ∧ q.hasAlpha = p.hasAlpha := by
  simp only [resized,Option.dite_none_right_eq_some,Option.some.injEq] at hq
  obtain ⟨_,rfl⟩ := hq
  exact ⟨rfl,rfl,rfl⟩

theorem resized_of_pos (p : Pixbuf) {w h : ℤ} (hw : 0 < w) (hh : 0 < h) :
    p.resized w h = some ⟨w,h,p.hasAlpha,hw,hh⟩ := dif_pos ⟨hw,hh⟩

theorem resized_of_not_pos (p : Pixbuf) {w h : ℤ} (hwh : ¬ (0 < w ∧ 0 < h)) :
    p.resized w h = none := dif_neg hwh

end Pixbuf

inductive Format
  | jpeg | png | other
  deriving DecidableEq

/-- The metadata that `load()` reads; a thumbnail that does not decode counts as none. -/
structure Exif where
  orientation : ℕ
  thumbnail : Option Pixbuf
  deriving DecidableEq

/-- The contents of an image file as the decoders see it. -/
structure ImageFile where
  format : Format
  picture : Pixbuf
  exif : Option Exif
  deriving DecidableEq

namespace ImageFile

def orientation (f : ImageFile) : ℕ := (f.exif.map Exif.orientation).getD 1

def thumbnail (f : ImageFile) : Option Pixbuf := f.exif.bind Exif.thumbnail

def hasAlpha (f : ImageFile) : Bool := f.picture.hasAlpha

end ImageFile

structure Image where
  pixbuf : Pixbuf
  hasAlpha : Bool
  deriving DecidableEq

/-- The size set by a callback, or none to keep the size of the image. -/
abbrev SizePrepared := ℤ → ℤ → Option QSize

def loadImage (source : Pixbuf) (sizePrepared : SizePrepared) : Except String Pixbuf :=
  match sizePrepared source.width source.height with
  | none => .ok source
  | some size =>
    match source.resized size.width size.height with
    | some p => .ok p
    | none => .error "load_image(): cannot create pixbuf"

def maybeScaleThumbnail (requestedSize : QSize) : SizePrepared := fun width height =>
  if (requestedSize.width = 0 ∨ width < requestedSize.width) ∧
      (requestedSize.height = 0 ∨ height < requestedSize.height) then
    -- smaller than the requested size, so it is not loaded
    some ⟨0,0⟩
  else
    let imageSize := (QSize.mk width height).scale (requestedSize.fillMissing width height)
    if imageSize.width ≠ width ∨ imageSize.height ≠ height then some imageSize else none

def maybeScaleImage (requestedSize : QSize) : SizePrepared := fun width height =>
  if !requestedSize.isValid then none
  else
    let box := requestedSize.fillMissing width height
    if QSize.fits width height box then none else some ((QSize.mk width height).scale box)

/-- Orientations 5 to 8 are stored on their side. -/
def sideways (orientation : ℕ) : Bool := 5 ≤ orientation && orientation ≤ 8

/-- Correct the image orientation; flips and half turns keep the size. -/
def applyOrientation (orientation : ℕ) (p : Pixbuf) : Pixbuf :=
  if sideways orientation then p.rotateQuarter else p

/-- The embedded thumbnail, when a size is requested and it is usable for it. -/
def loadThumbnail (file : ImageFile) (requestedSize unrotatedRequestedSize : QSize) :
    Option Pixbuf :=
  if requestedSize.isValid then
    file.thumbnail.bind fun t => (loadImage t (maybeScaleThumbnail unrotatedRequestedSize)).toOption
  else none

namespace Image

def load (file : ImageFile) (requestedSize : QSize) : Except String Image := do
  let unrotated := if sideways file.orientation then requestedSize.transpose else requestedSize
  let pixbuf ← match loadThumbnail file requestedSize unrotated with
    | some p => .ok p
    | none => loadImage file.picture (maybeScaleImage unrotated)
  return ⟨applyOrientation file.orientation pixbuf,pixbuf.hasAlpha⟩

def size (i : Image) : QSize := i.pixbuf.size

def clampToOne (n : ℤ) : ℤ := if n = 0 then 1 else n

/-- The scaled image is a new object: its flag keeps the default. -/
def scale (i : Image) (requestedSize : QSize) : Except String Image :=
  if !requestedSize.isValid then .ok i
  else
    let box := requestedSize.fillMissing i.pixbuf.width i.pixbuf.height
    if QSize.fits i.pixbuf.width i.pixbuf.height box then .ok i
    else
      let scaled := i.size.scale box
      match i.pixbuf.resized (clampToOne scaled.width) (clampToOne scaled.height) with
      | some p => .ok ⟨p,false⟩
      | none => .error "Image::scale(): could not create scaled image"

/-- JPEG has no alpha channel to save. -/
def jpegData (i : Image) (quality : ℤ) : Except String ImageFile :=
  if quality < 0 ∨ 100 < quality then
    .error s!"Image::jpeg_data(): quality out of range [0..100]: {quality}"
  else .ok ⟨.jpeg,{ i.pixbuf with hasAlpha := false },none⟩

def pngData (i : Image) : ImageFile := ⟨.png,i.pixbuf,none⟩

def jpegOrPngData (i : Image) (quality : ℤ) : Except String ImageFile :=
  if !i.hasAlpha then i.jpegData quality else .ok i.pngData

end Image

/-! ### Scaling -/

theorem clampToOne_pos {n : ℤ} (h : 0 ≤ n) : 0 < Image.clampToOne n := by
  unfold Image.clampToOne
  split_ifs <;> omega

theorem clampToOne_of_pos {n : ℤ} (h : 0 < n) : Image.clampToOne n = n := if_neg h.ne'

theorem scale_of_fits {i : Image} {size : QSize}
    (h : QSize.fits i.pixbuf.width i.pixbuf.height (i.pixbuf.boxFor size) = true) :
    i.scale size = .ok i := by
  simp only [Pixbuf.boxFor] at h
  simp only [Image.scale,h,if_true,ite_self]

/-- A valid request always yields an image: the clamp keeps both sides positive. -/
theorem scale_of_not_fits {i : Image} {size : QSize} (hs : size.isValid = true)
    (h : ¬ QSize.fits i.pixbuf.width i.pixbuf.height (i.pixbuf.boxFor size) = true) :
    ∃ p : Pixbuf, i.scale size = .ok ⟨p,false⟩ ∧ p.hasAlpha = i.pixbuf.hasAlpha ∧
      p.size = ⟨Image.clampToOne (i.pixbuf.size.scale (i.pixbuf.boxFor size)).width,
        Image.clampToOne (i.pixbuf.size.scale (i.pixbuf.boxFor size)).height⟩ := by
  have hw := i.pixbuf.width_pos
  have hh := i.pixbuf.height_pos
  obtain ⟨hW,hH⟩ := i.pixbuf.boxFor_pos hs
  have hscale := QSize.scale_eq (s:=i.pixbuf.size) (i.pixbuf.boxFor size) hw hh
  have hfit := BoxFit.fit_nonneg hw hh hW.le hH.le
  have h1 : 0 < Image.clampToOne (i.pixbuf.size.scale (i.pixbuf.boxFor size)).width := by
    rw [hscale]
    exact clampToOne_pos hfit.1
  have h2 : 0 < Image.clampToOne (i.pixbuf.size.scale (i.pixbuf.boxFor size)).height := by
    rw [hscale]
    exact clampToOne_pos hfit.2
  refine ⟨⟨_,_,i.pixbuf.hasAlpha,h1,h2⟩,?_,rfl,rfl⟩
  have hsome := i.pixbuf.resized_of_pos h1 h2
  simp only [Pixbuf.boxFor] at h hsome
  simp only [Image.scale,Image.size,hs,Bool.not_true,Bool.false_eq_true,if_false,h,hsome]
  rfl

/-- The loader is told the unclamped size. -/
theorem maybeScaleImage_of_not_fits {p : Pixbuf} {r : QSize} (hr : r.isValid = true)
    (h : ¬ QSize.fits p.width p.height (p.boxFor r) = true) :
    maybeScaleImage r p.width p.height = some (p.size.scale (p.boxFor r)) := by
  have h' : ¬ QSize.fits p.width p.height (r.fillMissing p.width p.height) = true := h
  simp only [maybeScaleImage,hr,Bool.not_true,Bool.false_eq_true,if_false,h']
  rfl

end UnityThumbnailer
