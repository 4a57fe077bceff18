namespace PreviewCompiler.Text

/-- The text between two offsets; `none` if one of them is no place in the text, or the second is in front of the
first. -/
def between? (s : String) (i j : Nat) : Option String :=
  if h : (⟨i⟩ : String.Pos.Raw).IsValid s ∧ (⟨j⟩ : String.Pos.Raw).IsValid s ∧ i ≤ j then
    some (s.extract (s.pos ⟨i⟩ h.1) (s.pos ⟨j⟩ h.2.1))
  else none

theorem toByteArray_extract (s : String) (p q : s.Pos) :
    (s.extract p q).toByteArray = s.toByteArray.extract p.offset.byteIdx q.offset.byteIdx := rfl

theorem utf8ByteSize_lt_of_between? {s t : String} {i j : Nat} (hi : 0 < i) (h : between? s i j = some t) :
    t.utf8ByteSize < s.utf8ByteSize := by
  unfold between? at h
  split at h
  · rename_i hplaces
    obtain rfl := Option.some.inj h
    have hj : j ≤ s.utf8ByteSize := hplaces.2.1.le_utf8ByteSize
    have hij : i ≤ j := hplaces.2.2
    have hsize : (s.extract (s.pos ⟨i⟩ hplaces.1) (s.pos ⟨j⟩ hplaces.2.1)).utf8ByteSize = j - i := by
      rw [← String.size_toByteArray,toByteArray_extract,ByteArray.size_extract,String.offset_pos,String.offset_pos,
        String.size_toByteArray,Nat.min_eq_left hj]
    omega
  · contradiction

/-- The byte of a capital letter as that of the small one, any other as it is. -/
def lowerByte (b : UInt8) : UInt8 := if 0x41 ≤ b ∧ b ≤ 0x5a then b + 0x20 else b

/-- The offset at which some bytes first stand in others, letters in either case. -/
def offsetOf? (pattern : List UInt8) : List UInt8 → Option Nat
  | [] => none
  | b :: bs =>
    if ((b :: bs).take pattern.length).map lowerByte = pattern.map lowerByte then some 0
    else (offsetOf? pattern bs).map (· + 1)

end PreviewCompiler.Text
