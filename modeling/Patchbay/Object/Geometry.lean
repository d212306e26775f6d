/-!
# Box geometry

Positions and sizes are 32-bit integers that stick at the ends of their range
instead of wrapping around.
-/

namespace Patchbay

/-- The sum, kept within 32 bits. -/
def saturatingAdd (a b : Int32) : Int32 := Int32.ofIntClamp (a.toInt + b.toInt)

/-- The product, kept within 32 bits. -/
def saturatingMul (a b : Int32) : Int32 := Int32.ofIntClamp (a.toInt * b.toInt)

/-- A rectangle relative to the patch it is in. -/
structure Bounds where
  x : Int32
  y : Int32
  width : Int32
  height : Int32
  deriving DecidableEq, Repr, Inhabited

/-- Font sizes with the width and height of a character cell, ascending. -/
def fontTable : List (Int32 × Int32 × Int32) :=
  [(8, 5, 11), (10, 6, 13), (12, 7, 16), (16, 10, 19), (24, 14, 29), (36, 22, 44)]

/-- The character cell of the largest listed size that is not above `size`. -/
def fontCell (size : Int32) : Int32 × Int32 :=
  match fontTable.reverse.find? fun entry => entry.1 ≤ size with
  | some entry => entry.2
  | none => (5, 11)

/-- Every character cell passes a test that all listed cells pass. -/
theorem test_fontCell (test : Int32 × Int32 → Bool)
    (h : (fontTable.all fun entry => test entry.2) = true) (size : Int32) :
    test (fontCell size) = true := by
  rw [List.all_eq_true] at h
  unfold fontCell
  split
  · rename_i entry hentry
    exact h entry (List.mem_reverse.mp (List.mem_of_find?_eq_some hentry))
  · exact h (8, 5, 11) List.mem_cons_self

/-- The box of a text of `length` characters, at least three columns wide unless
the number of columns is given. -/
def textBounds (fontSize x y : Int32) (length : Nat) (columns : Option Int32) : Bounds :=
  let (cellWidth, cellHeight) := fontCell fontSize
  let columns := columns.getD (max (Int32.ofNat length) 3)
  { x, y
    width := saturatingAdd (saturatingMul columns cellWidth) 4
    height := cellHeight + 5 }

end Patchbay
