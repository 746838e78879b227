import UnityThumbnailer.ScalingPaths

/-! Embedded thumbnails. The loader asks `maybe_scale_thumbnail` first, and the main image is
read only if that refuses: both have to lead to the same size, and neither may enlarge. -/
namespace UnityThumbnailer

namespace ExifThumbnail

/-- The size with which an image of this size is loaded. -/
def preparedSize (sizePrepared : SizePrepared) (width height : ℤ) : QSize :=
  (sizePrepared width height).getD ⟨width,height⟩

/-- The thumbnail is large enough for the request in a side that the request constrains. -/
def Accepted (requestedSize : QSize) (width height : ℤ) : Prop :=
  ¬ ((requestedSize.width = 0 ∨ width < requestedSize.width) ∧
    (requestedSize.height = 0 ∨ height < requestedSize.height))

instance (r : QSize) (width height : ℤ) : Decidable (Accepted r width height) :=
  inferInstanceAs (Decidable (¬ _))

/-- A strictly smaller copy of exactly the same aspect ratio. -/
structure SmallerCopy (thumbnail image : QSize) : Prop where
  width_pos : 1 ≤ thumbnail.width
  height_pos : 1 ≤ thumbnail.height
  width_lt : thumbnail.width < image.width
  height_lt : thumbnail.height < image.height
  ratio : image.width*thumbnail.height = thumbnail.width*image.height

section Prepared

variable {r : QSize} {w h : ℤ}

/-- An accepted thumbnail is always scaled to the box, also when that changes nothing. -/
theorem preparedSize_thumbnail (ha : Accepted r w h) :
    preparedSize (maybeScaleThumbnail r) w h = (QSize.mk w h).scale (r.fillMissing w h) := by
  simp only [preparedSize,maybeScaleThumbnail]
  rw [if_neg ha]
  split_ifs with hchanged
  · rfl
  · obtain ⟨hw,hh⟩ := not_or.mp hchanged
    exact congrArg₂ QSize.mk (not_ne_iff.mp hw).symm (not_ne_iff.mp hh).symm

theorem preparedSize_image (hr : r.isValid = true)
    (hfits : ¬ QSize.fits w h (r.fillMissing w h) = true) :
    preparedSize (maybeScaleImage r) w h = (QSize.mk w h).scale (r.fillMissing w h) := by
  simp only [preparedSize,maybeScaleImage,hr,hfits,Bool.not_true,Bool.false_eq_true,if_false,
    Option.getD_some]

/-- What is loaded has the size that the callback prepares. -/
theorem loadImage_size {p q : Pixbuf} {c : SizePrepared} (hq : loadImage p c = .ok q) :
    q.size = preparedSize c p.width p.height := by
  unfold loadImage at hq
  unfold preparedSize
  cases hc : c p.width p.height with
  | none =>
    rw [hc] at hq
    obtain rfl := Except.ok.inj hq
    rfl
  | some s =>
    simp only [hc] at hq
    cases hs : p.resized s.width s.height with
    | none =>
      rw [hs] at hq
      cases hq
    | some k =>
      rw [hs] at hq
      obtain rfl := Except.ok.inj hq
      obtain ⟨hw,hh,-⟩ := Pixbuf.resized_some hs
      exact congrArg₂ QSize.mk hw hh

/-- What is prepared with two proper sides is loaded. -/
theorem loadImage_prepared (p : Pixbuf) {c : SizePrepared}
    (hw : 0 < (preparedSize c p.width p.height).width)
    (hh : 0 < (preparedSize c p.width p.height).height) :
    (loadImage p c).map Pixbuf.size = .ok (preparedSize c p.width p.height) := by
  unfold loadImage
  unfold preparedSize at hw hh ⊢
  cases hc : c p.width p.height with
  | none => rfl
  | some s =>
    rw [hc,Option.getD_some] at hw hh
    simp only [p.resized_of_pos hw hh]
    rfl

/-- A thumbnail that is refused is not loaded. -/
theorem loadImage_rejected {t : Pixbuf} (ha : ¬ Accepted r t.width t.height) :
    loadImage t (maybeScaleThumbnail r) = .error "load_image(): cannot create pixbuf" := by
  simp only [loadImage,maybeScaleThumbnail,if_pos (not_not.mp ha),
    t.resized_of_not_pos (by decide : ¬ ((0 : ℤ) < 0 ∧ (0 : ℤ) < 0))]

end Prepared

/-! ### Two ways to one size -/

section Agreement

variable {r t p : QSize}

theorem accepted_iff {w h : ℤ} : Accepted r w h ↔
    r.width ≠ 0 ∧ r.width ≤ w ∨ r.height ≠ 0 ∧ r.height ≤ h := by
  rw [Accepted,not_and_or,not_or,not_or,not_lt,not_lt]

/-- An image larger than a thumbnail that is accepted does not fit the request. -/
theorem SmallerCopy.not_fits (hcopy : SmallerCopy t p) (ha : Accepted r t.width t.height) :
    ¬ QSize.fits p.width p.height (r.fillMissing p.width p.height) = true := by
  rw [QSize.fits_iff]
  rintro ⟨hw,hh⟩
  simp only [QSize.fillMissing] at hw hh
  rcases accepted_iff.mp ha with ⟨hne,hle⟩ | ⟨hne,hle⟩
  · rw [if_neg hne] at hw
    exact absurd (hw.trans hle) (not_le.mpr hcopy.width_lt)
  · rw [if_neg hne] at hh
    exact absurd (hh.trans hle) (not_le.mpr hcopy.height_lt)

/-- The boxes of the two images differ in a side that does not matter. -/
theorem SmallerCopy.fit_eq (hcopy : SmallerCopy t p) (ha : Accepted r t.width t.height) :
    BoxFit.fit t.width t.height (r.fillMissing t.width t.height).width
        (r.fillMissing t.width t.height).height =
      BoxFit.fit t.width t.height (r.fillMissing p.width p.height).width
        (r.fillMissing p.width p.height).height := by
  obtain ⟨hw,hh,hwlt,hhlt,hratio⟩ := hcopy
  have hwpos : 0 < t.width := hw
  have hhpos : 0 < t.height := hh
  simp only [QSize.fillMissing]
  rcases accepted_iff.mp ha with ⟨hne,hle⟩ | ⟨hne,hle⟩
  · rw [if_neg hne,if_neg hne]
    by_cases hzero : r.height = 0
    · rw [if_pos hzero,if_pos hzero,BoxFit.fit_narrower hwpos hhpos hle]
      have hfull : BoxFit.proportional p.height t.width t.height = p.width := by
        rw [BoxFit.proportional,mul_comm p.height,← hratio]
        exact Int.mul_ediv_cancel p.width hhpos.ne'
      exact (BoxFit.fit_of_lt ((hle.trans_lt hwlt).trans_eq hfull.symm)).symm
    · rw [if_neg hzero,if_neg hzero]
  · rw [if_neg hne,if_neg hne]
    by_cases hzero : r.width = 0
    · rw [if_pos hzero,if_pos hzero,BoxFit.fit_lower hwpos hhpos le_rfl hle,
        BoxFit.fit_lower hwpos hhpos hwlt.le hle]
    · rw [if_neg hzero,if_neg hzero]

theorem SmallerCopy.preparedSize_eq (hr : r.isValid = true) (hcopy : SmallerCopy t p)
    (ha : Accepted r t.width t.height) :
    preparedSize (maybeScaleThumbnail r) t.width t.height =
      preparedSize (maybeScaleImage r) p.width p.height := by
  have hw : 0 < t.width := hcopy.width_pos
  have hh : 0 < t.height := hcopy.height_pos
  have hW : 0 < p.width := hw.trans hcopy.width_lt
  have hH : 0 < p.height := hh.trans hcopy.height_lt
  rw [preparedSize_thumbnail ha,preparedSize_image hr (hcopy.not_fits ha),
    QSize.scale_eq (s:=t) _ hw hh,QSize.scale_eq (s:=p) _ hW hH]
  change QSize.mk (BoxFit.fit t.width t.height _ _).1 (BoxFit.fit t.width t.height _ _).2 =
    QSize.mk (BoxFit.fit p.width p.height _ _).1 (BoxFit.fit p.width p.height _ _).2
  rw [hcopy.fit_eq ha,BoxFit.fit_congr hw hh hW hH hcopy.ratio]

/-- A thumbnail that is loaded has the size with which the image would be loaded. -/
theorem loadImage_agree {t p q : Pixbuf} (hr : r.isValid = true)
    (hcopy : SmallerCopy t.size p.size) (hq : loadImage t (maybeScaleThumbnail r) = .ok q) :
    (loadImage p (maybeScaleImage r)).map Pixbuf.size = .ok q.size := by
  have ha : Accepted r t.width t.height := by
    by_contra hno
    rw [loadImage_rejected hno] at hq
    cases hq
  have hsame : q.size = preparedSize (maybeScaleImage r) p.width p.height :=
    (loadImage_size hq).trans (hcopy.preparedSize_eq hr ha)
  rw [hsame]
  apply loadImage_prepared
  · rw [← hsame]
    exact q.width_pos
  · rw [← hsame]
    exact q.height_pos

end Agreement

/-! ### The whole file -/

/-- A size as it is stored on disk, or back again. -/
def turned (orientation : ℕ) (s : QSize) : QSize :=
  if sideways orientation then s.transpose else s

/-- The pixels that `load()` decodes, before it corrects the orientation. -/
def decoded (file : ImageFile) (requestedSize : QSize) : Except String Pixbuf :=
  match loadThumbnail file requestedSize (turned file.orientation requestedSize) with
  | some p => .ok p
  | none => loadImage file.picture (maybeScaleImage (turned file.orientation requestedSize))

/-- The same file without its embedded thumbnail. -/
def withoutThumbnail (file : ImageFile) : ImageFile :=
  { file with exif := file.exif.map fun e => { e with thumbnail := none } }

section File

variable {file : ImageFile} {r : QSize}

theorem turned_isValid (orientation : ℕ) (hr : r.isValid = true) :
    (turned orientation r).isValid = true := by
  unfold turned
  split
  · rw [QSize.transpose_isValid]
    exact hr
  · exact hr

theorem applyOrientation_size (orientation : ℕ) (p : Pixbuf) :
    (applyOrientation orientation p).size = turned orientation p.size := by
  unfold applyOrientation turned
  split <;> rfl

theorem load_size (file : ImageFile) (r : QSize) : (Image.load file r).map Image.size =
    ((decoded file r).map Pixbuf.size).map (turned file.orientation) := by
  have hload : Image.load file r = (decoded file r).map fun p =>
      ⟨applyOrientation file.orientation p,p.hasAlpha⟩ := by
    unfold Image.load decoded turned
    simp only
    cases loadThumbnail file r (if sideways file.orientation then r.transpose else r) with
    | some p => rfl
    | none =>
      cases loadImage file.picture
        (maybeScaleImage (if sideways file.orientation then r.transpose else r)) <;> rfl
  rw [hload]
  cases decoded file r with
  | error what => rfl
  | ok p => exact congrArg Except.ok (applyOrientation_size file.orientation p)

@[simp] theorem withoutThumbnail_orientation (file : ImageFile) :
    (withoutThumbnail file).orientation = file.orientation := by
  unfold withoutThumbnail ImageFile.orientation
  cases file.exif <;> rfl

@[simp] theorem withoutThumbnail_thumbnail (file : ImageFile) :
    (withoutThumbnail file).thumbnail = none := by
  unfold withoutThumbnail ImageFile.thumbnail
  cases file.exif <;> rfl

theorem decoded_main (ht : file.thumbnail = none) (r : QSize) : decoded file r =
    loadImage file.picture (maybeScaleImage (turned file.orientation r)) := by
  simp [decoded,loadThumbnail,ht]

/-- A thumbnail that is a smaller copy does not matter for the size of the result. -/
theorem load_withoutThumbnail (hr : r.isValid = true)
    (hcopy : ∀ t ∈ file.thumbnail, SmallerCopy t.size file.picture.size) :
    (Image.load file r).map Image.size = (Image.load (withoutThumbnail file) r).map Image.size := by
  rw [load_size,load_size,withoutThumbnail_orientation]
  refine congrArg (Except.map (turned file.orientation)) ?_
  have hmain := decoded_main (withoutThumbnail_thumbnail file) r
  rw [withoutThumbnail_orientation] at hmain
  rw [hmain]
  unfold decoded
  cases hthumb : loadThumbnail file r (turned file.orientation r) with
  | none => rfl
  | some q =>
    simp only [loadThumbnail,hr,if_true,Option.bind_eq_some_iff] at hthumb
    obtain ⟨t,ht,hq⟩ := hthumb
    cases hload : loadImage t (maybeScaleThumbnail (turned file.orientation r)) with
    | error what =>
      rw [hload] at hq
      cases hq
    | ok q' =>
      rw [hload] at hq
      obtain rfl := Option.some.inj hq
      exact (loadImage_agree (turned_isValid _ hr) (hcopy t ht) hload).symm

end File

/-- Whatever is requested, a thumbnail that is a smaller copy of the main image and is accepted
is loaded with the size that the main image would get, and so it does not change the size of
what `load()` makes of the file. -/
theorem thumbnail_agrees (w h W H : ℤ) (r : QSize) (hcopy : SmallerCopy ⟨w,h⟩ ⟨W,H⟩)
    (hr : r.isValid = true) :
    (Accepted r w h →
      preparedSize (maybeScaleThumbnail r) w h = preparedSize (maybeScaleImage r) W H) ∧
    ∀ file : ImageFile, file.picture.size = ⟨W,H⟩ → (∀ t ∈ file.thumbnail, t.size = ⟨w,h⟩) →
      (Image.load file r).map Image.size =
        (Image.load (withoutThumbnail file) r).map Image.size := by
  refine ⟨hcopy.preparedSize_eq hr,fun file hpicture hthumb => ?_⟩
  refine load_withoutThumbnail hr fun t ht => ?_
  rw [hthumb t ht,hpicture]
  exact hcopy

/-- A photograph of 640 by 480 pixels with a thumbnail of 160 by 120, asked for 100 in
height. -/
theorem thumbnail_agrees_photograph :
    SmallerCopy ⟨160,120⟩ ⟨640,480⟩ ∧ (QSize.mk 0 100).isValid = true ∧
      Accepted ⟨0,100⟩ 160 120 ∧
      preparedSize (maybeScaleThumbnail ⟨0,100⟩) 160 120 =
        preparedSize (maybeScaleImage ⟨0,100⟩) 640 480 := by
  have hcopy : SmallerCopy ⟨160,120⟩ ⟨640,480⟩ :=
    ⟨by decide,by decide,by decide,by decide,by decide⟩
  exact ⟨hcopy,rfl,by decide,(thumbnail_agrees 160 120 640 480 ⟨0,100⟩ hcopy rfl).1 (by decide)⟩

/-! ### No enlargement -/

/-- The thumbnail is loaded within the requested box, where zero leaves a side unconstrained,
and no larger than it is. -/
def NotEnlarged (requestedSize : QSize) (w h : ℤ) : Prop :=
  let s := preparedSize (maybeScaleThumbnail requestedSize) w h
  ((requestedSize.width ≠ 0 → s.width ≤ requestedSize.width) ∧
    (requestedSize.height ≠ 0 → s.height ≤ requestedSize.height)) ∧ s.width ≤ w ∧ s.height ≤ h

instance (r : QSize) (w h : ℤ) : Decidable (NotEnlarged r w h) :=
  inferInstanceAs (Decidable ((_ ∧ _) ∧ _ ∧ _))

section Enlarged

variable {r : QSize} {w h : ℤ}

/-- An accepted thumbnail is not smaller than the box on one side. -/
theorem Accepted.side (ha : Accepted r w h) :
    (r.fillMissing w h).width ≤ w ∨ (r.fillMissing w h).height ≤ h := by
  simp only [QSize.fillMissing]
  rcases accepted_iff.mp ha with ⟨hne,hle⟩ | ⟨hne,hle⟩
  · exact Or.inl (by rwa [if_neg hne])
  · exact Or.inr (by rwa [if_neg hne])

/-- The sides that are not requested play no part. -/
theorem Accepted.overfills_iff (hh : 0 < h) (ha : Accepted r w h) :
    BoxFit.Overfills w h (r.fillMissing w h).width (r.fillMissing w h).height ↔
      BoxFit.Overfills w h r.width r.height := by
  simp only [QSize.fillMissing,BoxFit.Overfills]
  have hside := accepted_iff.mp ha
  split_ifs <;> omega

theorem notEnlarged_iff_fit (hw : 0 < w) (hh : 0 < h) (ha : Accepted r w h) :
    NotEnlarged r w h ↔
      (BoxFit.fit w h (r.fillMissing w h).width (r.fillMissing w h).height).1 ≤ w ∧
        (BoxFit.fit w h (r.fillMissing w h).width (r.fillMissing w h).height).2 ≤ h := by
  have hbox := @BoxFit.fit_le w h (r.fillMissing w h).width (r.fillMissing w h).height hw hh
  have hsize := preparedSize_thumbnail ha
  rw [QSize.scale_eq (s:=⟨w,h⟩) _ hw hh] at hsize
  unfold NotEnlarged
  rw [hsize]
  refine and_iff_right ⟨fun hne => hbox.1.trans_eq (if_neg hne),
    fun hne => hbox.2.trans_eq (if_neg hne)⟩

end Enlarged

/-- An accepted thumbnail is loaded within the box and not enlarged, unless the request has its
width and a height that is larger by less than the truncation of the width hides. -/
theorem notEnlarged_iff (w h : ℤ) (r : QSize) (hw : 1 ≤ w) (hh : 1 ≤ h) (ha : Accepted r w h) :
    NotEnlarged r w h ↔ ¬ (r.width = w ∧ h < r.height ∧ r.height*w < (w+1)*h) := by
  rw [notEnlarged_iff_fit hw hh ha,BoxFit.fit_le_self_iff hw hh ha.side,ha.overfills_iff hh]
  rfl

theorem notEnlarged_iff_landscape : Accepted ⟨128,128⟩ 160 120 ∧
    (NotEnlarged ⟨128,128⟩ 160 120 ↔
      ¬ ((128 : ℤ) = 160 ∧ (120 : ℤ) < 128 ∧ (128 : ℤ)*160 < (160+1)*120)) :=
  ⟨by decide,notEnlarged_iff 160 120 ⟨128,128⟩ (by decide) (by decide) (by decide)⟩

/-- A thumbnail of 120 by 160 pixels is loaded with 120 by 161 if that is requested. -/
theorem thumbnail_enlarged : (QSize.mk 120 161).isValid = true ∧ Accepted ⟨120,161⟩ 120 160 ∧
    ¬ NotEnlarged ⟨120,161⟩ 120 160 := ⟨rfl,by decide,by decide⟩

end ExifThumbnail
end UnityThumbnailer
