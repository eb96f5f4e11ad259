import Multimap.Text.Ranges

/-!
# Characters that are ignored by default

The code points with the property Default_Ignorable_Code_Point: those that leave no
trace where they are not understood. Besides format controls and marks they are the
four fillers of Hangul, which are letters, and code points kept for later use. The
property is that of Unicode 17.0.

Main definition: `defaultIgnorable`, the set.
-/

namespace Multimap.Text

/-- The code points that are not drawn at all. -/
def defaultIgnorable : Ranges where
  spans :=
    #[ -- the soft hyphen, the joiner of graphemes and the mark of Arabic letters
      (0xAD, 0xAD), (0x34F, 0x34F), (0x61C, 0x61C),
      -- the fillers of Hangul syllables, the inherent vowels of Khmer, Mongolian variants
      (0x115F, 0x1160), (0x17B4, 0x17B5), (0x180B, 0x180F),
      -- blanks without a width, joiners, directions and invisible operators
      (0x200B, 0x200F), (0x202A, 0x202E), (0x2060, 0x206F),
      -- the filler of Hangul letters, variants and the mark of byte order
      (0x3164, 0x3164), (0xFE00, 0xFE0F), (0xFEFF, 0xFEFF), (0xFFA0, 0xFFA0),
      (0xFFF0, 0xFFF8),
      -- the controls of shorthand and of music, tags and more variants
      (0x1BCA0, 0x1BCA3), (0x1D173, 0x1D17A), (0xE0000, 0xE0FFF) ]

end Multimap.Text
