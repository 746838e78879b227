import UnityThumbnailer.Transparency

/-! The sizes of thumbnails. An image is scaled to the target size at once, or first to
the maximum size for the full-size cache and then from there to the target size. -/
namespace UnityThumbnailer

namespace SizeContract

/-- The largest value of an `int`, and one past that of a 64-bit product. -/
def intMax : ℤ := 2147483647

def int64Bound : ℤ := 9223372036854775808

/-- The products that `QSize::scale` takes stay in 64 bits. -/
def ProductsFit (p : Pixbuf) (box : QSize) : Prop :=
  box.height*p.width < int64Bound ∧ box.width*p.height < int64Bound

/-- One side is that of the box, and the other the truncated proportional length, clamped
to one pixel. -/
def ProportionedTo (p : Pixbuf) (box s : QSize) : Prop :=
  s.width = box.width ∧
      s.height = Image.clampToOne (BoxFit.proportional box.width p.height p.width) ∨
    s.height = box.height ∧
      s.width = Image.clampToOne (BoxFit.proportional box.height p.width p.height)

instance (p : Pixbuf) (box s : QSize) : Decidable (ProportionedTo p box s) :=
  inferInstanceAs (Decidable (_ ∨ _))

def Fits (p : Pixbuf) (box : QSize) : Prop := p.width ≤ box.width ∧ p.height ≤ box.height

instance (p : Pixbuf) (box : QSize) : Decidable (Fits p box) :=
  inferInstanceAs (Decidable (_ ∧ _))

/-- A thumbnail is never empty, never larger than its box and never scaled up, and has the
size of the original exactly when the original fits the box. -/
structure Bounded (p : Pixbuf) (box s : QSize) : Prop where
  one_le_width : 1 ≤ s.width
  one_le_height : 1 ≤ s.height
  width_le_box : s.width ≤ box.width
  height_le_box : s.height ≤ box.height
  width_le : s.width ≤ p.width
  height_le : s.height ≤ p.height
  original_iff : s = p.size ↔ Fits p box

theorem clampToOne_le {n b : ℤ} (hn : n ≤ b) (hb : 1 ≤ b) : Image.clampToOne n ≤ b := by
  unfold Image.clampToOne
  split_ifs <;> assumption

theorem fits_iff_fits {p : Pixbuf} {box : QSize} :
    QSize.fits p.width p.height box = true ↔ Fits p box := QSize.fits_iff

theorem Bounded.of_fits {p : Pixbuf} {box : QSize} (h : Fits p box) : Bounded p box p.size :=
  ⟨p.width_pos,p.height_pos,h.1,h.2,le_rfl,le_rfl,iff_of_true rfl h⟩

section Scale

variable {p : Pixbuf} {box s : QSize}

/-- What `Image::scale` makes of an image that does not fit. -/
theorem clamped_proportioned (hw : 0 < box.width) (hh : 0 < box.height) :
    ProportionedTo p box ⟨Image.clampToOne (p.size.scale box).width,
      Image.clampToOne (p.size.scale box).height⟩ := by
  rcases le_or_gt (BoxFit.proportional box.height p.width p.height) box.width with hle | hlt
  · right
    rw [QSize.scale_of_fit (s:=p.size) p.width_pos p.height_pos (BoxFit.fit_of_le hle)]
    exact ⟨clampToOne_of_pos hh,rfl⟩
  · left
    rw [QSize.scale_of_fit (s:=p.size) p.width_pos p.height_pos (BoxFit.fit_of_lt hlt)]
    exact ⟨clampToOne_of_pos hw,rfl⟩

/-- An image that does not fit its box is reduced in both sides, or in one and not
enlarged in the other. -/
theorem clamped_bounded (hw : 0 < box.width) (hh : 0 < box.height) (hbox : ¬ Fits p box) :
    Bounded p box ⟨Image.clampToOne (p.size.scale box).width,
      Image.clampToOne (p.size.scale box).height⟩ := by
  have hpw := p.width_pos
  have hph := p.height_pos
  rcases le_or_gt (BoxFit.proportional box.height p.width p.height) box.width with hle | hlt
  · have hreduced := BoxFit.height_lt_of_fill hph hpw hbox hle
    have hnarrow := BoxFit.proportional_le_of_le hph hpw hreduced.le
    rw [QSize.scale_of_fit (s:=p.size) hpw hph (BoxFit.fit_of_le hle)]
    have hheight : Image.clampToOne box.height = box.height := clampToOne_of_pos hh
    refine ⟨clampToOne_pos (BoxFit.proportional_nonneg hh.le hpw.le hph),hheight.ge.trans' hh,
      clampToOne_le hle hw,hheight.le,clampToOne_le hnarrow hpw,hheight.le.trans hreduced.le,
      iff_of_false (fun h => ?_) hbox⟩
    exact hreduced.ne (hheight.symm.trans (congrArg QSize.height h))
  · have hreduced := BoxFit.width_lt_of_fill hph hpw hbox hlt
    have hlow := BoxFit.proportional_le_of_le hpw hph hreduced.le
    rw [QSize.scale_of_fit (s:=p.size) hpw hph (BoxFit.fit_of_lt hlt)]
    have hwidth : Image.clampToOne box.width = box.width := clampToOne_of_pos hw
    refine ⟨hwidth.ge.trans' hw,clampToOne_pos (BoxFit.proportional_nonneg hw.le hph.le hpw),
      hwidth.le,clampToOne_le (BoxFit.proportional_le_of_lt hpw hph hlt) hh,
      hwidth.le.trans hreduced.le,clampToOne_le hlow hph,iff_of_false (fun h => ?_) hbox⟩
    exact hreduced.ne (hwidth.symm.trans (congrArg QSize.width h))

/-- `Image::scale` to a proper box. -/
theorem scale_bounded (i : Image) (hw : 0 < box.width) (hh : 0 < box.height) :
    ∃ j, i.scale box = .ok j ∧ Bounded i.pixbuf box j.size ∧
      (Fits i.pixbuf box → j = i) ∧ (¬ Fits i.pixbuf box → ProportionedTo i.pixbuf box j.size) := by
  have hproper : Transparency.Proper box := ⟨hw,hh⟩
  have hfill : i.pixbuf.boxFor box = box := hproper.fillMissing _ _
  by_cases hbox : Fits i.pixbuf box
  · have hfits := fits_iff_fits.mpr hbox
    rw [← hfill] at hfits
    exact ⟨i,scale_of_fits hfits,.of_fits hbox,fun _ => rfl,fun hcon => absurd hbox hcon⟩
  · have hfits := mt fits_iff_fits.mp hbox
    obtain ⟨q,hq,_,hsize⟩ := @scale_of_not_fits i box hproper.isValid (by rwa [hfill])
    rw [hfill] at hsize
    refine ⟨⟨q,false⟩,hq,?_,fun hcon => absurd hcon hbox,fun _ => ?_⟩
    · change Bounded i.pixbuf box q.size
      rw [hsize]
      exact clamped_bounded hw hh hbox
    · change ProportionedTo i.pixbuf box q.size
      rw [hsize]
      exact clamped_proportioned hw hh

end Scale

section Twice

variable {p k : Pixbuf} {box s : QSize} {m : ℤ}

/-- Two reductions are bounded by what they are bounded by one after the other; an image
that fits the smaller box also fits the larger one. -/
theorem Bounded.trans (hw : box.width ≤ m) (hh : box.height ≤ m) (h1 : Bounded p ⟨m,m⟩ k.size)
    (h2 : Bounded k box s) : Bounded p box s where
  one_le_width := h2.one_le_width
  one_le_height := h2.one_le_height
  width_le_box := h2.width_le_box
  height_le_box := h2.height_le_box
  width_le := h2.width_le.trans h1.width_le
  height_le := h2.height_le.trans h1.height_le
  original_iff := by
    constructor
    · intro he
      rw [he] at h2
      exact ⟨h2.width_le_box,h2.height_le_box⟩
    · intro hfits
      have hk : k.size = p.size := h1.original_iff.mpr ⟨hfits.1.trans hw,hfits.2.trans hh⟩
      have hkw : k.width = p.width := congrArg QSize.width hk
      have hkh : k.height = p.height := congrArg QSize.height hk
      refine (h2.original_iff.mpr ?_).trans hk
      exact ⟨hkw.trans_le hfits.1,hkh.trans_le hfits.2⟩

/-- When the reduction to the maximum size already fits the box, the box is as large as
the maximum in the side that was filled. -/
theorem ProportionedTo.of_fits (hw : box.width ≤ m) (hh : box.height ≤ m)
    (h : ProportionedTo p ⟨m,m⟩ k.size) (hk : Fits k box) : ProportionedTo p box k.size := by
  rcases h with ⟨h1,h2⟩ | ⟨h1,h2⟩
  · have hm : box.width = m := hw.antisymm (h1.ge.trans hk.1)
    exact Or.inl ⟨h1.trans hm.symm,h2.trans (by rw [hm])⟩
  · have hm : box.height = m := hh.antisymm (h1.ge.trans hk.2)
    exact Or.inr ⟨h1.trans hm.symm,h2.trans (by rw [hm])⟩

end Twice

theorem productsFit {p : Pixbuf} {box : QSize} (hw : p.width ≤ intMax) (hh : p.height ≤ intMax)
    (hbw : box.width ≤ intMax) (hbh : box.height ≤ intMax) : ProductsFit p box := by
  have hpw := p.width_pos
  have hph := p.height_pos
  have hsquare : intMax*intMax < int64Bound := by decide
  exact ⟨(mul_le_mul hbh hw hpw.le (by decide)).trans_lt hsquare,
    (mul_le_mul hbw hh hph.le (by decide)).trans_lt hsquare⟩

/-- The target size lies between one pixel and the maximum size on both sides. -/
def TargetAdmitted (t : Thumbnailer) (target : QSize) : Prop :=
  (1 ≤ target.width ∧ target.width ≤ t.maxSize) ∧ 1 ≤ target.height ∧ target.height ≤ t.maxSize

/-- Scaled to the target size at once. -/
def ScaledOnce (i : Image) (target : QSize) : Prop :=
  ProductsFit i.pixbuf target ∧ ∃ j, i.scale target = .ok j ∧
    Bounded i.pixbuf target j.size ∧
    (¬ Fits i.pixbuf target → ProportionedTo i.pixbuf target j.size)

/-- Scaled to the maximum size and from there to the target size: the sides are in
proportion to the image that `Image::scale` reduces to the target size, which is the
intermediate one unless that fits already. -/
def ScaledTwice (t : Thumbnailer) (i : Image) (target : QSize) : Prop :=
  ProductsFit i.pixbuf ⟨t.maxSize,t.maxSize⟩ ∧ ∃ k, i.scale ⟨t.maxSize,t.maxSize⟩ = .ok k ∧
    ProductsFit k.pixbuf target ∧ ∃ j, k.scale target = .ok j ∧
      Bounded i.pixbuf target j.size ∧
      (¬ Fits i.pixbuf target →
        (Fits k.pixbuf target → ProportionedTo i.pixbuf target j.size) ∧
        (¬ Fits k.pixbuf target → ProportionedTo k.pixbuf target j.size))

theorem targetAdmitted (t : Thumbnailer) {r : QSize} (hr : r.isValid = true) :
    TargetAdmitted t (t.targetSize r) :=
  ⟨⟨(Transparency.targetSize_proper t hr).1,(Transparency.targetSize_le t r).1⟩,
    (Transparency.targetSize_proper t hr).2,(Transparency.targetSize_le t r).2⟩

section Contract

variable {t : Thumbnailer} {i : Image} {target : QSize} (htarget : TargetAdmitted t target)
  (hw : i.pixbuf.width ≤ intMax) (hh : i.pixbuf.height ≤ intMax) (hmax : t.maxSize ≤ intMax)
include htarget hw hh hmax

theorem scaledOnce : ScaledOnce i target := by
  obtain ⟨⟨hw1,hw2⟩,hh1,hh2⟩ := htarget
  obtain ⟨j,hj,hbounded,_,hprop⟩ := scale_bounded i hw1 hh1
  exact ⟨productsFit hw hh (hw2.trans hmax) (hh2.trans hmax),j,hj,hbounded,hprop⟩

theorem scaledTwice : ScaledTwice t i target := by
  obtain ⟨⟨hw1,hw2⟩,hh1,hh2⟩ := htarget
  obtain ⟨k,hk,hkept,hsame,hfilled⟩ := @scale_bounded ⟨t.maxSize,t.maxSize⟩ i
    t.maxSize_pos t.maxSize_pos
  obtain ⟨j,hj,hbounded,hlast,hprop⟩ := scale_bounded k hw1 hh1
  have hkw : k.pixbuf.width ≤ intMax := hkept.width_le.trans hw
  have hkh : k.pixbuf.height ≤ intMax := hkept.height_le.trans hh
  refine ⟨productsFit hw hh hmax hmax,k,hk,
    productsFit hkw hkh (hw2.trans hmax) (hh2.trans hmax),j,hj,
    hkept.trans hw2 hh2 hbounded,fun hout => ⟨fun hfits => ?_,hprop⟩⟩
  obtain rfl := hlast hfits
  have hlarge : ¬ Fits i.pixbuf ⟨t.maxSize,t.maxSize⟩ := fun hcon => by
    rw [hsame hcon] at hfits
    exact hout hfits
  exact (hfilled hlarge).of_fits hw2 hh2 hfits

end Contract

/-- The image that goes on from the full-size cache is the one scaled to the maximum size,
also when it was not too large and was left as it is. -/
theorem keepFullSize_scaled {t t' : Thumbnailer} {w : World} {key : String} {i k : Image}
    (h : t.keepFullSize w key i = .ok (t',k)) : i.scale ⟨t.maxSize,t.maxSize⟩ = .ok k := by
  obtain ⟨j,hj,_,hsame,_⟩ := @scale_bounded ⟨t.maxSize,t.maxSize⟩ i
    t.maxSize_pos t.maxSize_pos
  have hkept : (j.jpegOrPngData 90).bind
      (fun data => Except.ok (t.putFullSize w key data,j)) = .ok (t',k) := by
    unfold Thumbnailer.keepFullSize at h
    split_ifs at h with hlarge
    · rw [hj] at h
      exact h
    · obtain rfl := hsame (max_le_iff.mp (not_lt.mp hlarge))
      exact h
  cases hdata : j.jpegOrPngData 90 with
  | error what =>
    rw [hdata] at hkept
    cases hkept
  | ok data =>
    rw [hdata] at hkept
    have hjk : j = k := congrArg Prod.snd (Except.ok.inj hkept)
    rwa [hjk] at hj

/-- The size contract of scaled thumbnails: for every valid request the target size is
admitted, and both ways to it keep within it and within the original. -/
theorem size_contract (t : Thumbnailer) (i : Image) (r : QSize) (hr : r.isValid = true)
    (hw : i.pixbuf.width ≤ intMax) (hh : i.pixbuf.height ≤ intMax) (hmax : t.maxSize ≤ intMax) :
    TargetAdmitted t (t.targetSize r) ∧ ScaledOnce i (t.targetSize r) ∧
      ScaledTwice t i (t.targetSize r) :=
  ⟨targetAdmitted t hr,scaledOnce (targetAdmitted t hr) hw hh hmax,
    scaledTwice (targetAdmitted t hr) hw hh hmax⟩

/-- A panorama of 4000 by 104 pixels. -/
def panorama : Image := ⟨⟨4000,104,false,by decide,by decide⟩,false⟩

theorem size_contract_panorama :
    (QSize.mk 1000 1000).isValid = true ∧ panorama.pixbuf.width ≤ intMax ∧
      panorama.pixbuf.height ≤ intMax ∧ Thumbnailer.fresh.maxSize ≤ intMax ∧
      TargetAdmitted .fresh (Thumbnailer.fresh.targetSize ⟨1000,1000⟩) ∧
      ScaledOnce panorama (Thumbnailer.fresh.targetSize ⟨1000,1000⟩) ∧
      ScaledTwice .fresh panorama (Thumbnailer.fresh.targetSize ⟨1000,1000⟩) :=
  ⟨rfl,by decide,by decide,by decide,
    size_contract .fresh panorama ⟨1000,1000⟩ rfl (by decide) (by decide) (by decide)⟩

/-- By way of 1920 by 49 the panorama becomes 1000 by 25, where 26 is the truncated length
proportional to the original. -/
theorem panorama_twice :
    ¬ ∀ k j : Image, panorama.scale ⟨Thumbnailer.fresh.maxSize,Thumbnailer.fresh.maxSize⟩ = .ok k →
      k.scale (Thumbnailer.fresh.targetSize ⟨1000,1000⟩) = .ok j →
      ¬ Fits panorama.pixbuf (Thumbnailer.fresh.targetSize ⟨1000,1000⟩) →
      ProportionedTo panorama.pixbuf (Thumbnailer.fresh.targetSize ⟨1000,1000⟩) j.size := fun h =>
  absurd (h ⟨⟨1920,49,false,by decide,by decide⟩,false⟩ ⟨⟨1000,25,false,by decide,by decide⟩,false⟩
    (by decide) (by decide) (by decide)) (by decide)

end SizeContract
end UnityThumbnailer
