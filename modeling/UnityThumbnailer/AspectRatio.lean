import Mathlib.Algebra.Order.Field.Rat
import UnityThumbnailer.Image

/-! The aspect ratio of a scaled image: how far the sides that `Image::scale` and the
loader produce are from the exact proportional lengths. -/
namespace UnityThumbnailer

/-- The exact scale at which an image just fits the box of a request. -/
def Pixbuf.exactScale (p : Pixbuf) (requestedSize : QSize) : ℚ :=
  BoxFit.ratio ℚ p.width p.height (p.boxFor requestedSize).width (p.boxFor requestedSize).height

/-- A side is less than a pixel from its exact length, or it was clamped from zero to one. -/
def SideKept (exact : ℚ) (unclamped side : ℤ) : Prop :=
  |(side : ℚ)-exact| < 1 ∨ unclamped = 0 ∧ side = 1

/-- Both sides of a scaled image are kept in proportion. -/
structure RatioKept (p : Pixbuf) (requestedSize scaled : QSize) : Prop where
  width : SideKept (p.exactScale requestedSize*p.width)
    (p.size.scale (p.boxFor requestedSize)).width scaled.width
  height : SideKept (p.exactScale requestedSize*p.height)
    (p.size.scale (p.boxFor requestedSize)).height scaled.height

/-- The aspect ratio is preserved by `Image::scale`, and by the size that the loader is
told to use when neither side of it is empty. -/
def AspectRatioPreserved (i : Image) (requestedSize : QSize) : Prop :=
  (∃ j, i.scale requestedSize = .ok j ∧ RatioKept i.pixbuf requestedSize j.size) ∧
    ∀ s, maybeScaleImage requestedSize i.pixbuf.width i.pixbuf.height = some s →
      s.width ≠ 0 → s.height ≠ 0 → RatioKept i.pixbuf requestedSize s

/-- The box of a request lies outside the gap in which filling it distorts the image. -/
def BoxClose (p : Pixbuf) (requestedSize : QSize) : Prop :=
  BoxFit.Close p.width p.height (p.boxFor requestedSize).width (p.boxFor requestedSize).height

instance (p : Pixbuf) (r : QSize) : Decidable (BoxClose p r) :=
  inferInstanceAs (Decidable (BoxFit.Close _ _ _ _))

section Sides

variable {exact : ℚ} {n : ℤ}

theorem SideKept.clamped (h : |(n : ℚ)-exact| < 1) : SideKept exact n (Image.clampToOne n) := by
  by_cases hn : n = 0
  · subst hn
    exact Or.inr ⟨rfl,rfl⟩
  · left
    rwa [Image.clampToOne,if_neg hn]

/-- A side that needed no clamp is kept only by being close. -/
theorem SideKept.close (hn : 0 < n) (h : SideKept exact n (Image.clampToOne n)) :
    |(n : ℚ)-exact| < 1 := by
  rcases h with hclose | ⟨hzero,_⟩
  · rwa [clampToOne_of_pos hn] at hclose
  · exact absurd hzero hn.ne'

end Sides

section Ratio

variable {p : Pixbuf} {r : QSize}

/-- Outside the gap the sides are close before the clamp. -/
theorem unclamped_close (hc : BoxClose p r) :
    |((p.size.scale (p.boxFor r)).width : ℚ)-p.exactScale r*p.width| < 1 ∧
      |((p.size.scale (p.boxFor r)).height : ℚ)-p.exactScale r*p.height| < 1 := by
  rw [QSize.scale_eq (s:=p.size) _ p.width_pos p.height_pos]
  exact (BoxFit.fit_close_iff p.width_pos p.height_pos).mpr hc

theorem ratioKept_clamped (hc : BoxClose p r) :
    RatioKept p r ⟨Image.clampToOne (p.size.scale (p.boxFor r)).width,
      Image.clampToOne (p.size.scale (p.boxFor r)).height⟩ :=
  ⟨.clamped (unclamped_close hc).1,.clamped (unclamped_close hc).2⟩

theorem ratioKept_unclamped (hc : BoxClose p r) : RatioKept p r (p.size.scale (p.boxFor r)) :=
  ⟨Or.inl (unclamped_close hc).1,Or.inl (unclamped_close hc).2⟩

/-- In the gap the clamp has nothing to do, and one of the sides is off. -/
theorem boxClose_of_ratioKept (hr : r.isValid = true)
    (h : RatioKept p r ⟨Image.clampToOne (p.size.scale (p.boxFor r)).width,
      Image.clampToOne (p.size.scale (p.boxFor r)).height⟩) : BoxClose p r := by
  by_contra hgap
  obtain ⟨hW,hH⟩ := p.boxFor_pos hr
  have hbox := BoxFit.fit_of_not_close p.width_pos p.height_pos hgap
  have hscale : p.size.scale (p.boxFor r) = p.boxFor r :=
    QSize.scale_of_fit p.width_pos p.height_pos hbox
  obtain ⟨hwidth,hheight⟩ := h
  rw [hscale] at hwidth hheight
  refine hgap ((BoxFit.fit_close_iff (K:=ℚ) p.width_pos p.height_pos).mp ?_)
  rw [hbox]
  exact ⟨hwidth.close hW,hheight.close hH⟩

end Ratio

theorem boxClose_of_preserved {i : Image} {r : QSize} (hr : r.isValid = true)
    (hfits : ¬ QSize.fits i.pixbuf.width i.pixbuf.height (i.pixbuf.boxFor r) = true)
    (h : AspectRatioPreserved i r) : BoxClose i.pixbuf r := by
  obtain ⟨⟨j,hj,hkept⟩,_⟩ := h
  obtain ⟨p,hp,_,hsize⟩ := scale_of_not_fits hr hfits
  obtain rfl := Except.ok.inj (hj.symm.trans hp)
  refine boxClose_of_ratioKept hr ?_
  rw [← hsize]
  exact hkept

/-- For an image that does not fit the request, the aspect ratio is preserved to less than
a pixel exactly when the box of the request lies outside the gap. -/
theorem aspectRatioPreserved_iff (i : Image) (r : QSize) (hr : r.isValid = true)
    (hfits : ¬ QSize.fits i.pixbuf.width i.pixbuf.height (i.pixbuf.boxFor r) = true) :
    AspectRatioPreserved i r ↔ BoxClose i.pixbuf r := by
  refine ⟨boxClose_of_preserved hr hfits,fun hc => ⟨?_,?_⟩⟩
  · obtain ⟨p,hp,_,hsize⟩ := scale_of_not_fits hr hfits
    refine ⟨⟨p,false⟩,hp,?_⟩
    change RatioKept i.pixbuf r p.size
    rw [hsize]
    exact ratioKept_clamped hc
  · intro s hs _ _
    rw [maybeScaleImage_of_not_fits hr hfits] at hs
    obtain rfl := Option.some.inj hs
    exact ratioKept_unclamped hc

/-- A strip of 100 by 3000 pixels, in portrait format. -/
def portrait : Image := ⟨⟨100,3000,false,by decide,by decide⟩,false⟩

theorem aspectRatioPreserved_portrait :
    (QSize.mk 0 1460).isValid = true ∧
      ¬ QSize.fits portrait.pixbuf.width portrait.pixbuf.height
        (portrait.pixbuf.boxFor ⟨0,1460⟩) = true ∧
      (AspectRatioPreserved portrait ⟨0,1460⟩ ↔ BoxClose portrait.pixbuf ⟨0,1460⟩) :=
  ⟨rfl,by decide,aspectRatioPreserved_iff portrait ⟨0,1460⟩ rfl (by decide)⟩

/-- Asked for 48 by 1460, it fills the box, where 48 by 1440 would be proportional. -/
theorem portrait_distorted : ¬ AspectRatioPreserved portrait ⟨48,1460⟩ := fun h =>
  absurd (boxClose_of_preserved rfl (by decide) h) (by decide)

end UnityThumbnailer
