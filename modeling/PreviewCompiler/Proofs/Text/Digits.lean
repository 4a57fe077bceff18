namespace PreviewCompiler.Text

theorem isDigit_of_mem_toString {n : Nat} {c : Char} (h : c ∈ (toString n).toList) : c.isDigit = true := by
  have hd : c ∈ Nat.toDigits 10 n := by simpa using h
  exact Nat.isDigit_of_mem_toDigits (by decide) (by decide) hd

theorem toString_injective {m n : Nat} (h : (toString m).toList = (toString n).toList) : m = n := by
  have hd : Nat.toDigits 10 m = Nat.toDigits 10 n := by simpa using h
  simpa using congrArg (Nat.ofDigitChars 10 · 0) hd

end PreviewCompiler.Text
