import PreviewCompiler.Text.Offset

namespace PreviewCompiler.Text

variable {c d : Char}

theorem toNat_toLower (c : Char) :
    c.toLower.toNat = if 65 ≤ c.toNat ∧ c.toNat ≤ 90 then c.toNat + 32 else c.toNat := by
  unfold Char.toLower
  by_cases h : c.val ≥ 'A'.val ∧ c.val ≤ 'Z'.val
  · have hletter : 65 ≤ c.toNat ∧ c.toNat ≤ 90 := h
    rw [dif_pos h,if_pos hletter]
    have hsum : (c.val + ('a'.val - 'A'.val)).toNat = (c.toNat + 32) % 2 ^ 32 := UInt32.toNat_add ..
    exact hsum.trans (Nat.mod_eq_of_lt (by omega))
  · have hletter : ¬ (65 ≤ c.toNat ∧ c.toNat ≤ 90) := h
    rw [dif_neg h,if_neg hletter]

theorem toList_toLower (s : String) : s.toLower.toList = s.toList.map Char.toLower := String.toList_map

theorem toNat_lowerByte (b : UInt8) :
    (lowerByte b).toNat = if 65 ≤ b.toNat ∧ b.toNat ≤ 90 then b.toNat + 32 else b.toNat := by
  unfold lowerByte
  by_cases h : (0x41 : UInt8) ≤ b ∧ b ≤ 0x5a
  · have hletter : 65 ≤ b.toNat ∧ b.toNat ≤ 90 := h
    rw [if_pos h,if_pos hletter,UInt8.toNat_add]
    exact Nat.mod_eq_of_lt (show b.toNat + 32 < 2 ^ 8 by omega)
  · have hletter : ¬ (65 ≤ b.toNat ∧ b.toNat ≤ 90) := h
    rw [if_neg h,if_neg hletter]

/-- Only capital letters have another lower case. -/
theorem eq_of_toLower_eq (h : c.toLower = d) (hd : d.toNat < 97 ∨ 122 < d.toNat) : c = d := by
  have hnat : c.toLower.toNat = d.toNat := congrArg Char.toNat h
  rw [toNat_toLower] at hnat
  split at hnat
  · omega
  · exact Char.toNat_inj.1 hnat

end PreviewCompiler.Text
