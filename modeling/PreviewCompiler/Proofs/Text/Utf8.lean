import Mathlib.Tactic.SplitIfs
import PreviewCompiler.Proofs.Text.Offset

namespace PreviewCompiler.Text.Utf8

variable {b b₀ : UInt8} {bs bytes : List UInt8} {c : Char} {cs : List (Option Char)} {p : Pending} {v : Nat}

theorem toNat_ofNat (h : v.isValidChar) : (Char.ofNat v).val.toNat = v := by
  rw [Char.ofNat,dif_pos h]
  rfl

theorem toNat_byte (h : v < 256) : (UInt8.ofNat v).toNat = v := UInt8.toNat_ofNat_of_lt' h

theorem toNat_following (v : Nat) : (UInt8.ofNat (v % 64 + 0x80)).toNat = v % 64 + 0x80 := toNat_byte (by omega)

theorem encode_two (h : v.isValidChar) (hlow : 0x80 ≤ v) (hhigh : v ≤ 0x7ff) :
    String.utf8EncodeChar (Char.ofNat v) = [UInt8.ofNat (v / 64 + 0xc0),UInt8.ofNat (v % 64 + 0x80)] := by
  have hmod : v / 64 % 32 = v / 64 := by omega
  rw [String.utf8EncodeChar]
  simp only [toNat_ofNat h,hmod]
  rw [if_neg (by omega),if_pos (by omega)]

theorem encode_three (h : v.isValidChar) (hlow : 0x800 ≤ v) (hhigh : v ≤ 0xffff) :
    String.utf8EncodeChar (Char.ofNat v) =
      [UInt8.ofNat (v / 4096 + 0xe0),UInt8.ofNat (v / 64 % 64 + 0x80),UInt8.ofNat (v % 64 + 0x80)] := by
  have hmod : v / 4096 % 16 = v / 4096 := by omega
  rw [String.utf8EncodeChar]
  simp only [toNat_ofNat h,hmod]
  rw [if_neg (by omega),if_neg (by omega),if_pos (by omega)]

theorem encode_four (h : v.isValidChar) (hlow : 0x10000 ≤ v) (hhigh : v < 0x110000) :
    String.utf8EncodeChar (Char.ofNat v) = [UInt8.ofNat (v / 262144 + 0xf0),UInt8.ofNat (v / 4096 % 64 + 0x80),
      UInt8.ofNat (v / 64 % 64 + 0x80),UInt8.ofNat (v % 64 + 0x80)] := by
  have hmod : v / 262144 % 8 = v / 262144 := by omega
  rw [String.utf8EncodeChar]
  simp only [toNat_ofNat h,hmod]
  rw [if_neg (by omega),if_neg (by omega),if_neg (by omega)]

/-- Can a byte follow in a character that has begun? -/
def Pending.Takes (p : Pending) (b : UInt8) : Prop := p.low.toNat ≤ b.toNat ∧ b.toNat ≤ p.high.toNat

theorem decodeFrom_last (h : p.Takes b) (hneeded : p.needed = 1) (bs : List UInt8) :
    decodeFrom (some p) (b :: bs) = some (Char.ofNat (p.value * 64 + (b.toNat - 0x80))) :: decodeFrom none bs := by
  rw [decodeFrom]
  simp only [if_pos (show p.low ≤ b ∧ b ≤ p.high from h),hneeded,Nat.le_refl,if_true]

theorem decodeFrom_further (h : p.Takes b) (hneeded : 1 < p.needed) (bs : List UInt8) :
    decodeFrom (some p) (b :: bs) =
      decodeFrom (some ⟨p.value * 64 + (b.toNat - 0x80),p.needed - 1,0x80,0xbf⟩) bs := by
  rw [decodeFrom]
  simp only [if_pos (show p.low ≤ b ∧ b ≤ p.high from h),if_neg (Nat.not_le.2 hneeded)]

theorem exists_of_decodeFrom_pending (h : decodeFrom (some p) bs = some c :: cs) :
    ∃ b rest, bs = b :: rest ∧ p.Takes b := by
  cases bs with
  | nil => simp [decodeFrom] at h
  | cons b bs =>
    rw [decodeFrom] at h
    split at h
    · rename_i hb
      exact ⟨b,bs,rfl,hb⟩
    · simp at h

/-- What the first of two, three or four bytes begins. -/
def two (b : UInt8) : Pending := ⟨b.toNat - 0xc0,1,0x80,0xbf⟩

def three (b : UInt8) : Pending :=
  ⟨b.toNat - 0xe0,2,if b.toNat = 0xe0 then 0xa0 else 0x80,if b.toNat = 0xed then 0x9f else 0xbf⟩

def four (b : UInt8) : Pending :=
  ⟨b.toNat - 0xf0,3,if b.toNat = 0xf0 then 0x90 else 0x80,if b.toNat = 0xf4 then 0x8f else 0xbf⟩

theorem takes_iff {value needed : Nat} :
    Pending.Takes ⟨value,needed,0x80,0xbf⟩ b ↔ 0x80 ≤ b.toNat ∧ b.toNat ≤ 0xbf := Iff.rfl

theorem takes_three_iff : (three b₀).Takes b ↔ 0x80 ≤ b.toNat ∧ b.toNat ≤ 0xbf ∧
    (b₀.toNat = 0xe0 → 0xa0 ≤ b.toNat) ∧ (b₀.toNat = 0xed → b.toNat ≤ 0x9f) := by
  have hlow : (three b₀).low.toNat = if b₀.toNat = 0xe0 then 0xa0 else 0x80 := apply_ite UInt8.toNat ..
  have hhigh : (three b₀).high.toNat = if b₀.toNat = 0xed then 0x9f else 0xbf := apply_ite UInt8.toNat ..
  rw [Pending.Takes,hlow,hhigh]
  split <;> split <;> omega

theorem takes_four_iff : (four b₀).Takes b ↔ 0x80 ≤ b.toNat ∧ b.toNat ≤ 0xbf ∧
    (b₀.toNat = 0xf0 → 0x90 ≤ b.toNat) ∧ (b₀.toNat = 0xf4 → b.toNat ≤ 0x8f) := by
  have hlow : (four b₀).low.toNat = if b₀.toNat = 0xf0 then 0x90 else 0x80 := apply_ite UInt8.toNat ..
  have hhigh : (four b₀).high.toNat = if b₀.toNat = 0xf4 then 0x8f else 0xbf := apply_ite UInt8.toNat ..
  rw [Pending.Takes,hlow,hhigh]
  split <;> split <;> omega

theorem decodeFrom_one (h : b.toNat < 0x80) (bs : List UInt8) :
    decodeFrom none (b :: bs) = some (Char.ofNat b.toNat) :: decodeFrom none bs := by
  have hstart : start b = .char (Char.ofNat b.toNat) := if_pos h
  simp only [decodeFrom,hstart]

theorem decodeFrom_more (h : start b = .more p) (bs : List UInt8) :
    decodeFrom none (b :: bs) = decodeFrom (some p) bs := by
  simp only [decodeFrom,h]

theorem start_two (h : 0xc2 ≤ b.toNat ∧ b.toNat ≤ 0xdf) : start b = .more (two b) := by
  unfold start two
  rw [if_neg (by omega),if_pos h]

theorem start_three (h : 0xe0 ≤ b.toNat ∧ b.toNat ≤ 0xef) : start b = .more (three b) := by
  unfold start three
  rw [if_neg (by omega),if_neg (by omega),if_pos h]

theorem start_four (h : 0xf0 ≤ b.toNat ∧ b.toNat ≤ 0xf4) : start b = .more (four b) := by
  unfold start four
  rw [if_neg (by omega),if_neg (by omega),if_neg (by omega),if_pos h]

variable {b₁ b₂ b₃ : UInt8}

theorem decodeFrom_two (h₀ : 0xc2 ≤ b₀.toNat ∧ b₀.toNat ≤ 0xdf) (h₁ : (two b₀).Takes b₁) (bs : List UInt8) :
    decodeFrom none (b₀ :: b₁ :: bs) =
      some (Char.ofNat ((b₀.toNat - 0xc0) * 64 + (b₁.toNat - 0x80))) :: decodeFrom none bs := by
  rw [decodeFrom_more (start_two h₀)]
  exact decodeFrom_last h₁ rfl bs

theorem decodeFrom_three (h₀ : 0xe0 ≤ b₀.toNat ∧ b₀.toNat ≤ 0xef) (h₁ : (three b₀).Takes b₁)
    (h₂ : 0x80 ≤ b₂.toNat ∧ b₂.toNat ≤ 0xbf) (bs : List UInt8) :
    decodeFrom none (b₀ :: b₁ :: b₂ :: bs) =
      some (Char.ofNat (((b₀.toNat - 0xe0) * 64 + (b₁.toNat - 0x80)) * 64 + (b₂.toNat - 0x80))) ::
        decodeFrom none bs := by
  rw [decodeFrom_more (start_three h₀),decodeFrom_further h₁ Nat.one_lt_two]
  exact decodeFrom_last (takes_iff.2 h₂) rfl bs

theorem decodeFrom_four (h₀ : 0xf0 ≤ b₀.toNat ∧ b₀.toNat ≤ 0xf4) (h₁ : (four b₀).Takes b₁)
    (h₂ : 0x80 ≤ b₂.toNat ∧ b₂.toNat ≤ 0xbf) (h₃ : 0x80 ≤ b₃.toNat ∧ b₃.toNat ≤ 0xbf) (bs : List UInt8) :
    decodeFrom none (b₀ :: b₁ :: b₂ :: b₃ :: bs) =
      some (Char.ofNat ((((b₀.toNat - 0xf0) * 64 + (b₁.toNat - 0x80)) * 64 +
      (b₂.toNat - 0x80)) * 64 + (b₃.toNat - 0x80))) :: decodeFrom none bs := by
  rw [decodeFrom_more (start_four h₀),decodeFrom_further h₁ (Nat.lt_add_of_pos_left Nat.two_pos)]
  exact (decodeFrom_further (takes_iff.2 h₂) Nat.one_lt_two _).trans (decodeFrom_last (takes_iff.2 h₃) rfl bs)

/-- The encoding of a character is read as that character. -/
theorem decodeFrom_append (c : Char) (rest : List UInt8) :
    decodeFrom none (String.utf8EncodeChar c ++ rest) = some c :: decodeFrom none rest := by
  obtain ⟨v,hv,rfl⟩ : ∃ v, Nat.isValidChar v ∧ c = Char.ofNat v := ⟨c.toNat,c.valid,(Char.ofNat_toNat c).symm⟩
  have hrange : v < 0xd800 ∨ 0xdfff < v ∧ v < 0x110000 := hv
  have hthird := toNat_following (v / 4096)
  have hsecond := toNat_following (v / 64)
  have hlast := toNat_following v
  by_cases h₁ : v < 0x80
  · have hfirst := toNat_byte (show v < 256 by omega)
    rw [utf8EncodeChar_of_ascii (by rw [Char.toNat,toNat_ofNat hv]; exact h₁),Char.toNat,toNat_ofNat hv,
      List.singleton_append,decodeFrom_one (by omega),hfirst]
  by_cases h₂ : v ≤ 0x7ff
  · have hfirst := toNat_byte (show v / 64 + 0xc0 < 256 by omega)
    have hvalue : (v / 64 + 0xc0 - 0xc0) * 64 + (v % 64 + 0x80 - 0x80) = v := by omega
    rw [encode_two hv (by omega) h₂]
    simp only [List.cons_append,List.nil_append]
    rw [decodeFrom_two (by omega) (takes_iff.2 (by omega)),hfirst,hlast,hvalue]
  by_cases h₃ : v ≤ 0xffff
  · have hfirst := toNat_byte (show v / 4096 + 0xe0 < 256 by omega)
    have hvalue : ((v / 4096 + 0xe0 - 0xe0) * 64 + (v / 64 % 64 + 0x80 - 0x80)) * 64 + (v % 64 + 0x80 - 0x80) = v := by
      omega
    rw [encode_three hv (by omega) h₃]
    simp only [List.cons_append,List.nil_append]
    rw [decodeFrom_three (by omega) (takes_three_iff.2 (by omega)) (by omega),hfirst,hsecond,hlast,hvalue]
  · have hfirst := toNat_byte (show v / 262144 + 0xf0 < 256 by omega)
    have hvalue : (((v / 262144 + 0xf0 - 0xf0) * 64 + (v / 4096 % 64 + 0x80 - 0x80)) * 64 +
        (v / 64 % 64 + 0x80 - 0x80)) * 64 + (v % 64 + 0x80 - 0x80) = v := by omega
    rw [encode_four hv (by omega) (by omega)]
    simp only [List.cons_append,List.nil_append]
    rw [decodeFrom_four (by omega) (takes_four_iff.2 (by omega)) (by omega) (by omega),hfirst,hthird,hsecond,hlast,
      hvalue]

theorem byte_eq (h : v = b.toNat) : UInt8.ofNat v = b := by rw [h,UInt8.ofNat_toNat]

/-- Some bytes are the encoding of a character, and the others are read as `cs`. -/
def Begins (bs : List UInt8) (c : Char) (cs : List (Option Char)) : Prop :=
  ∃ rest, bs = String.utf8EncodeChar c ++ rest ∧ decodeFrom none rest = cs

theorem begins_one (h₀ : b₀.toNat < 0x80) (h : decodeFrom none (b₀ :: bs) = some c :: cs) :
    Begins (b₀ :: bs) c cs := by
  rw [decodeFrom_one h₀] at h
  obtain ⟨hc,rfl⟩ := List.cons.inj h
  have hvalue := toNat_ofNat (v := b₀.toNat) (Or.inl (by omega))
  refine ⟨bs,?_,rfl⟩
  rw [← Option.some.inj hc,utf8EncodeChar_of_ascii (by rw [Char.toNat,hvalue]; exact h₀),Char.toNat,hvalue,
    byte_eq rfl,List.singleton_append]

theorem begins_two (h₀ : 0xc2 ≤ b₀.toNat ∧ b₀.toNat ≤ 0xdf) (h : decodeFrom none (b₀ :: bs) = some c :: cs) :
    Begins (b₀ :: bs) c cs := by
  rw [decodeFrom_more (start_two h₀)] at h
  obtain ⟨b₁,rest,rfl,hb₁⟩ := exists_of_decodeFrom_pending h
  rw [← decodeFrom_more (start_two h₀),decodeFrom_two h₀ hb₁] at h
  obtain ⟨hc,rfl⟩ := List.cons.inj h
  have hb₁ := takes_iff.1 hb₁
  refine ⟨rest,?_,rfl⟩
  rw [← Option.some.inj hc,encode_two (Or.inl (by omega)) (by omega) (by omega),byte_eq (b := b₀) (by omega),
    byte_eq (b := b₁) (by omega)]
  rfl

theorem begins_three (h₀ : 0xe0 ≤ b₀.toNat ∧ b₀.toNat ≤ 0xef) (h : decodeFrom none (b₀ :: bs) = some c :: cs) :
    Begins (b₀ :: bs) c cs := by
  rw [decodeFrom_more (start_three h₀)] at h
  obtain ⟨b₁,rest,rfl,hb₁⟩ := exists_of_decodeFrom_pending h
  rw [decodeFrom_further hb₁ Nat.one_lt_two] at h
  obtain ⟨b₂,rest,rfl,hb₂⟩ := exists_of_decodeFrom_pending h
  rw [← decodeFrom_further hb₁ Nat.one_lt_two,← decodeFrom_more (start_three h₀),decodeFrom_three h₀ hb₁ hb₂] at h
  obtain ⟨hc,rfl⟩ := List.cons.inj h
  have hb₁ := takes_three_iff.1 hb₁
  have hb₂ := takes_iff.1 hb₂
  have hvalid : Nat.isValidChar (((b₀.toNat - 0xe0) * 64 + (b₁.toNat - 0x80)) * 64 + (b₂.toNat - 0x80)) := by
    rw [Nat.isValidChar]
    omega
  refine ⟨rest,?_,rfl⟩
  rw [← Option.some.inj hc,encode_three hvalid (by omega) (by omega),byte_eq (b := b₀) (by omega),
    byte_eq (b := b₁) (by omega),byte_eq (b := b₂) (by omega)]
  rfl

theorem begins_four (h₀ : 0xf0 ≤ b₀.toNat ∧ b₀.toNat ≤ 0xf4) (h : decodeFrom none (b₀ :: bs) = some c :: cs) :
    Begins (b₀ :: bs) c cs := by
  have hthree : 1 < (four b₀).needed := Nat.lt_add_of_pos_left Nat.two_pos
  rw [decodeFrom_more (start_four h₀)] at h
  obtain ⟨b₁,rest,rfl,hb₁⟩ := exists_of_decodeFrom_pending h
  rw [decodeFrom_further hb₁ hthree] at h
  obtain ⟨b₂,rest,rfl,hb₂⟩ := exists_of_decodeFrom_pending h
  rw [decodeFrom_further hb₂ Nat.one_lt_two] at h
  obtain ⟨b₃,rest,rfl,hb₃⟩ := exists_of_decodeFrom_pending h
  rw [← decodeFrom_further hb₂ Nat.one_lt_two,← decodeFrom_further hb₁ hthree,← decodeFrom_more (start_four h₀),
    decodeFrom_four h₀ hb₁ hb₂ hb₃] at h
  obtain ⟨hc,rfl⟩ := List.cons.inj h
  have hb₁ := takes_four_iff.1 hb₁
  have hb₂ := takes_iff.1 hb₂
  have hb₃ := takes_iff.1 hb₃
  refine ⟨rest,?_,rfl⟩
  rw [← Option.some.inj hc,encode_four (Or.inr (by omega)) (by omega) (by omega),byte_eq (b := b₀) (by omega),
    byte_eq (b := b₁) (by omega),byte_eq (b := b₂) (by omega),byte_eq (b := b₃) (by omega)]
  rfl

/-- What is read as a character is the encoding of that character. -/
theorem begins_of_decodeFrom (h : decodeFrom none bs = some c :: cs) : Begins bs c cs := by
  cases bs with
  | nil => simp [decodeFrom] at h
  | cons b₀ bs =>
    by_cases h₁ : b₀.toNat < 0x80
    · exact begins_one h₁ h
    by_cases h₂ : 0xc2 ≤ b₀.toNat ∧ b₀.toNat ≤ 0xdf
    · exact begins_two h₂ h
    by_cases h₃ : 0xe0 ≤ b₀.toNat ∧ b₀.toNat ≤ 0xef
    · exact begins_three h₃ h
    by_cases h₄ : 0xf0 ≤ b₀.toNat ∧ b₀.toNat ≤ 0xf4
    · exact begins_four h₄ h
    have hstart : start b₀ = .fault := by
      unfold start
      rw [if_neg h₁,if_neg h₂,if_neg h₃,if_neg h₄]
    simp [decodeFrom,hstart] at h

theorem decodeFrom_pending_ne_nil (p : Pending) (bs : List UInt8) : decodeFrom (some p) bs ≠ [] := by
  induction bs generalizing p with
  | nil => simp [decodeFrom]
  | cons b bs ih =>
    rw [decodeFrom]
    split
    · simp only
      split
      · simp
      · exact ih _
    · simp

theorem decodeFrom_cons_ne_nil (b : UInt8) (bs : List UInt8) : decodeFrom none (b :: bs) ≠ [] := by
  rw [decodeFrom]
  split
  · simp
  · exact decodeFrom_pending_ne_nil _ _
  · simp

/-- Bytes are read without a fault exactly if they are the encoding of what is read. -/
theorem decode_eq_map_some_iff {chars : List Char} : decode bytes = chars.map some ↔ bytes = charBytes chars := by
  rw [decode]
  induction chars generalizing bytes with
  | nil =>
    cases bytes with
    | nil => exact iff_of_true rfl rfl
    | cons b bs => exact iff_of_false (decodeFrom_cons_ne_nil b bs) (List.cons_ne_nil b bs)
  | cons c chars ih =>
    rw [List.map_cons,charBytes_cons,charBytes,List.flatMap_singleton]
    constructor
    · intro h
      obtain ⟨rest,rfl,hrest⟩ := begins_of_decodeFrom h
      rw [ih.1 hrest]
    · rintro rfl
      rw [decodeFrom_append,ih.2 rfl]

theorem mapM_id_eq_some_iff {found : List (Option Char)} {chars : List Char} :
    found.mapM id = some chars ↔ found = chars.map some := by
  induction found generalizing chars with
  | nil => cases chars <;> simp
  | cons x found ih =>
    rw [List.mapM_cons]
    cases x with
    | none => cases chars <;> simp
    | some c => cases chars <;> simp [Option.bind_eq_some_iff,ih,and_comm]

theorem decode?_eq_some_iff {s : String} : decode? bytes = some s ↔ bytes = textBytes s := by
  rw [decode?,Option.map_eq_some_iff,textBytes_eq]
  constructor
  · rintro ⟨chars,hchars,rfl⟩
    rw [String.toList_ofList]
    exact decode_eq_map_some_iff.1 (mapM_id_eq_some_iff.1 hchars)
  · intro h
    exact ⟨s.toList,mapM_id_eq_some_iff.2 (decode_eq_map_some_iff.2 h),String.ofList_toList⟩

theorem decodeLossy_textBytes (s : String) : decodeLossy (textBytes s) = s := by
  rw [decodeLossy,textBytes_eq,decode_eq_map_some_iff.2 rfl]
  simp [Function.comp_def]

end PreviewCompiler.Text.Utf8
