import Mathlib.Order.Fin.Basic

/-! Rasters, and the ways to turn and to mirror them. Every turn is a transposition followed by
mirrors, and these three generate all of them. -/

/-- A rectangle of pixels, addressed by row and column. -/
structure Raster (Pixel : Type*) where
  width : ℕ
  height : ℕ
  pixel : Fin height → Fin width → Pixel

namespace Raster

variable {Pixel : Type*} (r : Raster Pixel)

/-- Exchange rows and columns. -/
def transpose : Raster Pixel := ⟨r.height,r.width,fun y x => r.pixel x y⟩

/-- Reverse the order of the columns. -/
def mirrorColumns : Raster Pixel := ⟨r.width,r.height,fun y x => r.pixel y x.rev⟩

/-- Reverse the order of the rows. -/
def mirrorRows : Raster Pixel := ⟨r.width,r.height,fun y x => r.pixel y.rev x⟩

/-- A quarter turn clockwise: the bottom row becomes the first column, read upwards. -/
def rotateClockwise : Raster Pixel := ⟨r.height,r.width,fun y x => r.pixel x.rev y⟩

/-- A quarter turn counterclockwise: the last column becomes the first row. -/
def rotateCounterclockwise : Raster Pixel := ⟨r.height,r.width,fun y x => r.pixel x y.rev⟩

/-- A half turn. -/
def rotateHalf : Raster Pixel := ⟨r.width,r.height,fun y x => r.pixel y.rev x.rev⟩

@[simp] theorem transpose_transpose : r.transpose.transpose = r := rfl

@[simp] theorem mirrorColumns_mirrorColumns : r.mirrorColumns.mirrorColumns = r := by
  simp only [mirrorColumns,Fin.rev_rev]

@[simp] theorem mirrorRows_mirrorRows : r.mirrorRows.mirrorRows = r := by
  simp only [mirrorRows,Fin.rev_rev]

@[simp] theorem mirrorColumns_mirrorRows :
    r.mirrorColumns.mirrorRows = r.mirrorRows.mirrorColumns := rfl

@[simp] theorem transpose_mirrorColumns :
    r.mirrorColumns.transpose = r.transpose.mirrorRows := rfl

@[simp] theorem transpose_mirrorRows :
    r.mirrorRows.transpose = r.transpose.mirrorColumns := rfl

theorem rotateClockwise_eq : r.rotateClockwise = r.transpose.mirrorColumns := rfl

theorem rotateCounterclockwise_eq : r.rotateCounterclockwise = r.transpose.mirrorRows := rfl

theorem rotateHalf_eq : r.rotateHalf = r.mirrorRows.mirrorColumns := rfl

end Raster
