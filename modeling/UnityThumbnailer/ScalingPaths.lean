import UnityThumbnailer.Image

/-! The two ways to a requested size: told to the loader while the image is read, or
applied by `Image::scale` to the image at full size. -/
namespace UnityThumbnailer

/-- The image fits the request, or scaling it rounds no side down to nothing. -/
def StaysLegible (p : Pixbuf) (requestedSize : QSize) : Prop :=
  QSize.fits p.width p.height (p.boxFor requestedSize) = true ∨
    BoxFit.Legible p.width p.height (p.boxFor requestedSize).width
      (p.boxFor requestedSize).height

theorem loadImage_of_fits {p : Pixbuf} {r : QSize}
    (h : QSize.fits p.width p.height (p.boxFor r) = true) :
    loadImage p (maybeScaleImage r) = .ok p := by
  have h' : QSize.fits p.width p.height (r.fillMissing p.width p.height) = true := h
  simp only [loadImage,maybeScaleImage,h',if_true,ite_self]

/-- The loader scales to the proposed size when neither side of it is empty. -/
theorem loadImage_scaled {p : Pixbuf} {r : QSize} (hr : r.isValid = true)
    (h : ¬ QSize.fits p.width p.height (p.boxFor r) = true)
    (hp : 0 < (p.size.scale (p.boxFor r)).width ∧
      0 < (p.size.scale (p.boxFor r)).height) :
    ∃ q : Pixbuf, loadImage p (maybeScaleImage r) = .ok q ∧
      q.size = p.size.scale (p.boxFor r) ∧ q.hasAlpha = p.hasAlpha := by
  refine ⟨⟨_,_,p.hasAlpha,hp.1,hp.2⟩,?_,rfl,rfl⟩
  simp only [loadImage,maybeScaleImage_of_not_fits hr h,p.resized_of_pos hp.1 hp.2]

/-- Told to use an empty side, the loader refuses the image. -/
theorem loadImage_refused {p : Pixbuf} {r : QSize} (hr : r.isValid = true)
    (h : ¬ QSize.fits p.width p.height (p.boxFor r) = true)
    (hp : ¬ (0 < (p.size.scale (p.boxFor r)).width ∧
      0 < (p.size.scale (p.boxFor r)).height)) :
    loadImage p (maybeScaleImage r) = .error "load_image(): cannot create pixbuf" := by
  simp only [loadImage,maybeScaleImage_of_not_fits hr h,p.resized_of_not_pos hp]

/-- The size that `QSize::scale` proposes is empty on one side exactly when it is illegible. -/
theorem scale_pos_iff {p : Pixbuf} {r : QSize} (hr : r.isValid = true) :
    0 < (p.size.scale (p.boxFor r)).width ∧ 0 < (p.size.scale (p.boxFor r)).height ↔
      BoxFit.Legible p.width p.height (p.boxFor r).width (p.boxFor r).height := by
  obtain ⟨hW,hH⟩ := p.boxFor_pos hr
  rw [QSize.scale_eq (s:=p.size) _ p.width_pos p.height_pos]
  exact BoxFit.fit_pos_iff p.width_pos p.height_pos hW hH

/-- An image without a usable thumbnail is loaded from its main picture. -/
theorem load_main {file : ImageFile} {size : QSize} (ht : file.thumbnail = none) :
    Image.load file size =
      (loadImage file.picture (maybeScaleImage
        (if sideways file.orientation then size.transpose else size))).map
        fun p => ⟨applyOrientation file.orientation p,p.hasAlpha⟩ := by
  have hnone : loadThumbnail file size
      (if sideways file.orientation then size.transpose else size) = none := by
    simp [loadThumbnail,ht]
  unfold Image.load
  simp only [hnone]
  cases loadImage file.picture (maybeScaleImage
    (if sideways file.orientation then size.transpose else size)) <;> rfl

/-- Without a requested size the main picture is loaded as it is. -/
theorem load_full (file : ImageFile) :
    Image.load file .invalid =
      .ok ⟨applyOrientation file.orientation file.picture,file.hasAlpha⟩ := by
  have hbox : (if sideways file.orientation then QSize.invalid.transpose else QSize.invalid) =
      QSize.invalid := by split <;> rfl
  unfold Image.load
  simp only [loadThumbnail,loadImage,maybeScaleImage,hbox,QSize.invalid_isValid]
  rfl

/-- Both paths yield an image, of the same size. -/
def ScalingPathsAgree (file : ImageFile) (requestedSize : QSize) : Prop :=
  ∃ s : QSize, 1 ≤ s.width ∧ 1 ≤ s.height ∧
    (Image.load file requestedSize).map Image.size = .ok s ∧
    ((Image.load file .invalid).bind fun i => i.scale requestedSize).map Image.size = .ok s

theorem upright_load {file : ImageFile} (ho : file.orientation = 1) (ht : file.thumbnail = none)
    (size : QSize) :
    (Image.load file size).map Image.size =
      (loadImage file.picture (maybeScaleImage size)).map Pixbuf.size := by
  rw [load_main ht,ho]
  change Except.map Image.size (Except.map _ (loadImage file.picture (maybeScaleImage size))) = _
  cases loadImage file.picture (maybeScaleImage size) <;> rfl

theorem upright_scale {file : ImageFile} (ho : file.orientation = 1) (size : QSize) :
    ((Image.load file .invalid).bind fun i => i.scale size).map Image.size =
      (Image.scale ⟨file.picture,file.hasAlpha⟩ size).map Image.size := by
  rw [load_full,ho]
  rfl

theorem agree_of_fits {file : ImageFile} {size : QSize} (ho : file.orientation = 1)
    (ht : file.thumbnail = none)
    (h : QSize.fits file.picture.width file.picture.height
      (file.picture.boxFor size) = true) : ScalingPathsAgree file size := by
  refine ⟨file.picture.size,file.picture.width_pos,file.picture.height_pos,?_,?_⟩
  · rw [upright_load ho ht,loadImage_of_fits h]
    rfl
  · rw [upright_scale ho,scale_of_fits (i:=⟨file.picture,file.hasAlpha⟩) h]
    rfl

/-- For an upright image without an embedded thumbnail, the loader and `Image::scale`
agree exactly on the requests that round no side of the image down to nothing. -/
theorem scalingPathsAgree_iff (file : ImageFile) (size : QSize) (ho : file.orientation = 1)
    (ht : file.thumbnail = none) (hs : size.isValid = true) :
    ScalingPathsAgree file size ↔ StaysLegible file.picture size := by
  by_cases hfits : QSize.fits file.picture.width file.picture.height
      (file.picture.boxFor size) = true
  · exact ⟨fun _ => Or.inl hfits,fun _ => agree_of_fits ho ht hfits⟩
  · have hpos := scale_pos_iff (p:=file.picture) hs
    obtain ⟨q,hq,_,hsize⟩ := scale_of_not_fits (i:=⟨file.picture,file.hasAlpha⟩) hs hfits
    rw [StaysLegible,← hpos]
    constructor
    · rintro ⟨s,_,_,hs1,_⟩
      by_contra hnot
      rw [upright_load ho ht,loadImage_refused hs hfits (not_or.mp hnot).2] at hs1
      cases hs1
    · intro h
      have hp := h.resolve_left hfits
      obtain ⟨l,hl,hlsize,_⟩ := loadImage_scaled hs hfits hp
      refine ⟨file.picture.size.scale (file.picture.boxFor size),hp.1,hp.2,?_,?_⟩
      · rw [upright_load ho ht,hl]
        exact congrArg Except.ok hlsize
      · rw [upright_scale ho,hq]
        refine congrArg Except.ok (hsize.trans ?_)
        change QSize.mk (Image.clampToOne (file.picture.size.scale _).width)
          (Image.clampToOne (file.picture.size.scale _).height) = _
        rw [clampToOne_of_pos hp.1,clampToOne_of_pos hp.2]

/-- A strip of 200 by 10 pixels, stored upright. -/
def horizontalStrip : ImageFile := ⟨.png,⟨200,10,false,by decide,by decide⟩,none⟩

theorem scalingPathsAgree_strip :
    horizontalStrip.orientation = 1 ∧ horizontalStrip.thumbnail = none ∧
      (QSize.mk 100 0).isValid = true ∧
      (ScalingPathsAgree horizontalStrip ⟨100,0⟩ ↔ StaysLegible horizontalStrip.picture ⟨100,0⟩) :=
  ⟨rfl,rfl,rfl,scalingPathsAgree_iff horizontalStrip ⟨100,0⟩ rfl rfl rfl⟩

/-- Asked for 8 pixels in width, the loader refuses what `Image::scale` makes 8 by 1. -/
theorem strip_paths_differ : ¬ ScalingPathsAgree horizontalStrip ⟨8,0⟩ := by
  rintro ⟨s,_,_,hload,_⟩
  have herr : (Image.load horizontalStrip ⟨8,0⟩).map Image.size =
      .error "load_image(): cannot create pixbuf" := by rfl
  rw [herr] at hload
  cases hload

end UnityThumbnailer
