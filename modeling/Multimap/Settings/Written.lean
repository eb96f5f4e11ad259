import Multimap.Settings.Scan

/-!
# Writing settings

All ways in which settings may be written: with any blanks and commas around them,
any blanks around `=`, and a backslash before every quote and every backslash of a
value and, at will, before any other byte of it.

Main definitions:
1. `WrittenValue`, a value and what may stand for it between quotes;
2. `WrittenSetting`, a setting and what may stand for it;
3. `Written`, a list of settings and what may stand for it.
-/

namespace Multimap.Settings

open Multimap.Text (isBlank)

/-- A value, and what may stand for it between quotes. -/
inductive WrittenValue : Bytes → Bytes → Prop where
  | nil : WrittenValue [] []
  | plain {b : UInt8} {value text : Bytes} (quote : b ≠ 0x27) (backslash : b ≠ 0x5C) :
      WrittenValue value text → WrittenValue (b :: value) (b :: text)
  | escaped {b : UInt8} {value text : Bytes} :
      WrittenValue value text → WrittenValue (b :: value) (0x5C :: b :: text)

/-- A setting, and what may stand for it. -/
inductive WrittenSetting : Setting → Bytes → Prop where
  | intro {key value before behind text : Bytes} :
      key ≠ [] → (∀ b ∈ key, isKeyByte b) →
      (∀ b ∈ before, isBlank b) → (∀ b ∈ behind, isBlank b) → WrittenValue value text →
      WrittenSetting { key, value }
        (key ++ before ++ [0x3D] ++ behind ++ [0x27] ++ text ++ [0x27])

/-- Settings, and what may stand for them. -/
inductive Written : List Setting → Bytes → Prop where
  | nil {gap : Bytes} : (∀ b ∈ gap, isSeparator b) → Written [] gap
  | cons {gap first rest : Bytes} {setting : Setting} {settings : List Setting} :
      (∀ b ∈ gap, isSeparator b) → WrittenSetting setting first → Written settings rest →
      Written (setting :: settings) (gap ++ first ++ rest)

end Multimap.Settings
