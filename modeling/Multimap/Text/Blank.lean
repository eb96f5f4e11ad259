/-!
# Blanks

The blanks of the settings notation and of integer texts: the space and the five
control characters from the horizontal tab to the carriage return, the vertical
tab and the form feed among them.
-/

namespace Multimap.Text

/-- A space, or one of the controls `0x09` to `0x0D`. -/
def isBlank (b : UInt8) : Bool :=
  b == 0x20 || (0x09 ≤ b && b ≤ 0x0D)

end Multimap.Text
