import UnityThumbnailer.ExifThumbnail

/-! The size of thumbnails of rotated images. An image that is stored on its side is scaled to
the request on its side, and the result is turned back. -/
namespace UnityThumbnailer

namespace OrientedSize

open ExifThumbnail

/-- The file as it is stored in an orientation. Without pixels this turns an image the way
that corrects it. -/
def storedIn (orientation : ℕ) (file : ImageFile) : ImageFile :=
  ⟨file.format,applyOrientation orientation file.picture,
    some ⟨orientation,file.thumbnail.map (applyOrientation orientation)⟩⟩

/-- Stored in the orientation, the image gets the size that it gets when it is stored upright. -/
def SameSize (file : ImageFile) (orientation : ℕ) (requestedSize : QSize) : Prop :=
  (Image.load (storedIn orientation file) requestedSize).map Image.size =
    (Image.load (storedIn 1 file) requestedSize).map Image.size

instance (file : ImageFile) (o : ℕ) (r : QSize) : Decidable (SameSize file o r) :=
  inferInstanceAs (Decidable (_ = _))

/-- The image fits the request, or its box has the ratio of the image or is off it by a unit. -/
def TurnsInto (p : Pixbuf) (requestedSize : QSize) : Prop :=
  QSize.fits p.width p.height (p.boxFor requestedSize) = true ∨
    BoxFit.Turns p.width p.height (p.boxFor requestedSize).width (p.boxFor requestedSize).height

instance (p : Pixbuf) (r : QSize) : Decidable (TurnsInto p r) :=
  inferInstanceAs (Decidable (_ ∨ _))

section Picture

variable {p : Pixbuf} {r : QSize}

theorem fits_turned (p : Pixbuf) (r : QSize) :
    QSize.fits p.rotateQuarter.width p.rotateQuarter.height
        (p.rotateQuarter.boxFor r.transpose) =
      QSize.fits p.width p.height (p.boxFor r) := Bool.and_comm _ _

/-- What the loader makes of an image that does not fit. -/
theorem loadImage_size_eq (hr : r.isValid = true)
    (hfits : ¬ QSize.fits p.width p.height (p.boxFor r) = true) :
    (loadImage p (maybeScaleImage r)).map Pixbuf.size =
      if 0 < (p.size.scale (p.boxFor r)).width ∧ 0 < (p.size.scale (p.boxFor r)).height then
        .ok (p.size.scale (p.boxFor r))
      else .error "load_image(): cannot create pixbuf" := by
  split_ifs with hpos
  · obtain ⟨q,hq,hsize,-⟩ := loadImage_scaled hr hfits hpos
    rw [hq,← hsize]
    rfl
  · rw [loadImage_refused hr hfits hpos]
    rfl

theorem scale_turned (ht : BoxFit.Turns p.width p.height (p.boxFor r).width (p.boxFor r).height) :
    p.rotateQuarter.size.scale (p.rotateQuarter.boxFor r.transpose) =
      (p.size.scale (p.boxFor r)).transpose := by
  have hturn := (BoxFit.fit_turned_iff p.width_pos p.height_pos).mpr ht
  rw [QSize.scale_eq (s:=p.size) _ p.width_pos p.height_pos]
  exact QSize.scale_of_fit p.height_pos p.width_pos hturn

/-- The picture on its side is loaded with the turned size. -/
def Turned (p : Pixbuf) (r : QSize) : Prop :=
  ((loadImage p.rotateQuarter (maybeScaleImage r.transpose)).map Pixbuf.size).map QSize.transpose =
    (loadImage p (maybeScaleImage r)).map Pixbuf.size

theorem turned_of_fits (hfits : QSize.fits p.width p.height (p.boxFor r) = true) :
    Turned p r := by
  have hside := hfits
  rw [← fits_turned] at hside
  rw [Turned,loadImage_of_fits hfits,loadImage_of_fits hside]
  rfl

theorem turned_of_turns (hr : r.isValid = true)
    (hfits : ¬ QSize.fits p.width p.height (p.boxFor r) = true)
    (ht : BoxFit.Turns p.width p.height (p.boxFor r).width (p.boxFor r).height) :
    Turned p r := by
  have hside := hfits
  rw [← fits_turned] at hside
  rw [Turned,loadImage_size_eq hr hfits,
    loadImage_size_eq ((QSize.transpose_isValid r).trans hr) hside,scale_turned ht]
  have hswap : 0 < (p.size.scale (p.boxFor r)).transpose.width ∧
      0 < (p.size.scale (p.boxFor r)).transpose.height ↔
      0 < (p.size.scale (p.boxFor r)).width ∧ 0 < (p.size.scale (p.boxFor r)).height :=
    And.comm
  simp only [hswap]
  split_ifs <;> rfl

/-- Between the boxes that turn, each way fills a different side. -/
theorem turns_of_turned (hr : r.isValid = true)
    (hfits : ¬ QSize.fits p.width p.height (p.boxFor r) = true) (h : Turned p r) :
    BoxFit.Turns p.width p.height (p.boxFor r).width (p.boxFor r).height := by
  by_contra hno
  have hside := hfits
  rw [← fits_turned] at hside
  obtain ⟨hW,hH⟩ := p.boxFor_pos hr
  obtain ⟨hfirst,hsecond,hlt⟩ := BoxFit.fit_of_not_turns p.width_pos p.height_pos hno
  have hup : p.size.scale (p.boxFor r) =
      ⟨BoxFit.proportional (p.boxFor r).height p.width p.height,(p.boxFor r).height⟩ :=
    QSize.scale_of_fit p.width_pos p.height_pos hfirst
  have hdown : p.rotateQuarter.size.scale (p.rotateQuarter.boxFor r.transpose) =
      ⟨BoxFit.proportional (p.boxFor r).width p.height p.width,(p.boxFor r).width⟩ :=
    QSize.scale_of_fit p.height_pos p.width_pos hsecond
  rw [Turned,loadImage_size_eq hr hfits,
    loadImage_size_eq ((QSize.transpose_isValid r).trans hr) hside,hup,hdown] at h
  simp only [hW,hH,and_true] at h
  have hpos := BoxFit.proportional_pos_or p.width_pos p.height_pos hW hH
  split_ifs at h with hlow hwide hwide
  · obtain ⟨hwidth,hheight⟩ := QSize.mk.inj (Except.ok.inj h)
    rcases hlt with hlt | hlt
    · exact hlt.ne hwidth.symm
    · exact hlt.ne hheight
  · cases h
  · cases h
  · exact hpos.elim hwide hlow

theorem turned_iff (hr : r.isValid = true) : Turned p r ↔ TurnsInto p r := by
  by_cases hfits : QSize.fits p.width p.height (p.boxFor r) = true
  · exact iff_of_true (turned_of_fits hfits) (Or.inl hfits)
  · rw [TurnsInto,or_iff_right hfits]
    exact ⟨turns_of_turned hr hfits,turned_of_turns hr hfits⟩

end Picture

/-! ### The whole file -/

section File

variable {file : ImageFile} {r : QSize}

theorem SmallerCopy.turned {t p : QSize} (orientation : ℕ) (h : SmallerCopy t p) :
    SmallerCopy (ExifThumbnail.turned orientation t) (ExifThumbnail.turned orientation p) := by
  unfold ExifThumbnail.turned
  split
  · exact ⟨h.height_pos,h.width_pos,h.height_lt,h.width_lt,by
      change p.height*t.width = t.height*p.width
      rw [mul_comm,← h.ratio,mul_comm]⟩
  · exact h

/-- The size of a stored file is that of its picture alone. -/
theorem load_storedIn (orientation : ℕ) (hr : r.isValid = true)
    (hcopy : ∀ t ∈ file.thumbnail, SmallerCopy t.size file.picture.size) :
    (Image.load (storedIn orientation file) r).map Image.size =
      ((loadImage (applyOrientation orientation file.picture)
        (maybeScaleImage (turned orientation r))).map Pixbuf.size).map (turned orientation) := by
  have hstored : ∀ t ∈ (storedIn orientation file).thumbnail,
      SmallerCopy t.size (storedIn orientation file).picture.size := by
    intro t ht
    obtain ⟨t',ht',rfl⟩ := Option.mem_map.mp ht
    rw [applyOrientation_size]
    change SmallerCopy _ (applyOrientation orientation file.picture).size
    rw [applyOrientation_size]
    exact SmallerCopy.turned orientation (hcopy t' ht')
  rw [load_withoutThumbnail hr hstored,load_size,decoded_main (withoutThumbnail_thumbnail _)]
  rfl

end File

/-- The orientation in which an image is stored does not change the size that it is given for a
request exactly when it is not stored on its side, or turns into the box. -/
theorem sameSize_iff (file : ImageFile) (orientation : ℕ) (r : QSize) (hr : r.isValid = true)
    (hcopy : ∀ t ∈ file.thumbnail, SmallerCopy t.size file.picture.size) :
    SameSize file orientation r ↔ (sideways orientation = true → TurnsInto file.picture r) := by
  rw [SameSize,load_storedIn orientation hr hcopy,load_storedIn 1 hr hcopy]
  have hone : turned 1 = id := rfl
  have hupright : (loadImage (applyOrientation 1 file.picture)
      (maybeScaleImage (turned 1 r))).map Pixbuf.size =
      (loadImage file.picture (maybeScaleImage r)).map Pixbuf.size := rfl
  rw [hupright,hone,Except.map_id,id]
  cases hside : sideways orientation with
  | false =>
    have hid : turned orientation = id := by
      funext s
      simp [turned,hside]
    rw [hid,Except.map_id,id,id]
    simp [applyOrientation,hside]
  | true =>
    have hturn : turned orientation = QSize.transpose := by
      funext s
      simp [turned,hside]
    rw [hturn,applyOrientation,if_pos hside]
    exact (turned_iff hr).trans ⟨fun h _ => h,fun h => h rfl⟩

/-- A picture of 400 by 300 pixels that is stored without a thumbnail. -/
def classic : ImageFile := ⟨.jpeg,⟨400,300,false,by decide,by decide⟩,none⟩

theorem sameSize_iff_classic : (QSize.mk 200 200).isValid = true ∧
    (∀ t ∈ classic.thumbnail, SmallerCopy t.size classic.picture.size) ∧
      (SameSize classic 6 ⟨200,200⟩ ↔ (sideways 6 = true → TurnsInto classic.picture ⟨200,200⟩)) := by
  have hnone : ∀ t ∈ classic.thumbnail, SmallerCopy t.size classic.picture.size :=
    fun t ht => by cases ht
  exact ⟨rfl,hnone,sameSize_iff classic 6 ⟨200,200⟩ rfl hnone⟩

/-- A strip of 90 by 2700 pixels, in portrait format. -/
def strip : ImageFile := ⟨.jpeg,⟨90,2700,false,by decide,by decide⟩,none⟩

/-- Asked for 43 by 1305, the strip becomes 43 by 1305 when it is stored upright, and 43 by
1290 when it is stored on its side. -/
theorem strip_differs : (QSize.mk 43 1305).isValid = true ∧ ¬ SameSize strip 6 ⟨43,1305⟩ :=
  ⟨rfl,by decide⟩

end OrientedSize
end UnityThumbnailer
