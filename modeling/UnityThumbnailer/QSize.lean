import UnityThumbnailer.BoxFit

/-! Requested and actual sizes. A negative side makes a size invalid, and a zero side
of a request leaves that side unconstrained. -/
namespace UnityThumbnailer

structure QSize where
  width : ℤ
  height : ℤ
  deriving DecidableEq

namespace QSize

/-- The default-constructed size. -/
def invalid : QSize := ⟨-1,-1⟩

def isValid (s : QSize) : Bool := 0 ≤ s.width && 0 ≤ s.height

def transpose (s : QSize) : QSize := ⟨s.height,s.width⟩

/-- `QSize::scale` with `Qt::KeepAspectRatio`; the products are taken in 64 bits. -/
def scale (s box : QSize) : QSize :=
  if s.width = 0 ∨ s.height = 0 then box
  else
    let r := BoxFit.fit s.width s.height box.width box.height
    ⟨r.1,r.2⟩

/-- Fill in missing dimensions from the requested size. -/
def fillMissing (requested : QSize) (width height : ℤ) : QSize :=
  ⟨if requested.width = 0 then width else requested.width,
    if requested.height = 0 then height else requested.height⟩

def fits (width height : ℤ) (box : QSize) : Bool := width ≤ box.width && height ≤ box.height

theorem isValid_iff (s : QSize) : s.isValid = true ↔ 0 ≤ s.width ∧ 0 ≤ s.height := by
  simp [isValid]

@[simp] theorem invalid_isValid : invalid.isValid = false := rfl

@[simp] theorem transpose_isValid (s : QSize) : s.transpose.isValid = s.isValid :=
  Bool.and_comm _ _

theorem fits_iff {w h : ℤ} {box : QSize} : fits w h box = true ↔ w ≤ box.width ∧ h ≤ box.height := by
  simp [fits]

theorem scale_eq {s : QSize} (box : QSize) (hw : 0 < s.width) (hh : 0 < s.height) :
    s.scale box = ⟨(BoxFit.fit s.width s.height box.width box.height).1,
      (BoxFit.fit s.width s.height box.width box.height).2⟩ := by
  simp [scale,hw.ne',hh.ne']

/-- What is known of the fit of two numbers is known of the scaled size. -/
theorem scale_of_fit {s box : QSize} {a b : ℤ} (hw : 0 < s.width) (hh : 0 < s.height)
    (hfit : BoxFit.fit s.width s.height box.width box.height = (a,b)) : s.scale box = ⟨a,b⟩ := by
  rw [scale_eq box hw hh,hfit]

/-- A valid request becomes a proper box once the image fills the missing sides. -/
theorem fillMissing_pos {s : QSize} {w h : ℤ} (hs : s.isValid = true) (hw : 0 < w) (hh : 0 < h) :
    0 < (s.fillMissing w h).width ∧ 0 < (s.fillMissing w h).height := by
  obtain ⟨h1,h2⟩ := (isValid_iff s).mp hs
  simp only [fillMissing]
  split_ifs <;> omega

end QSize
end UnityThumbnailer
