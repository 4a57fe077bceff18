import Mathlib.Data.List.Infix
import PreviewCompiler.Hash.Fingerprint
import PreviewCompiler.Proofs.Text.Letter

namespace PreviewCompiler

/-- The bytes of some characters. -/
def charBytes (cs : List Char) : List UInt8 := cs.flatMap String.utf8EncodeChar

theorem textBytes_ofList (cs : List Char) : textBytes (String.ofList cs) = charBytes cs := by
  simp [textBytes,charBytes,List.utf8Encode]

theorem textBytes_eq (s : String) : textBytes s = charBytes s.toList := by
  rw [← textBytes_ofList,String.ofList_toList]

theorem charBytes_cons (c : Char) (cs : List Char) : charBytes (c :: cs) = charBytes [c] ++ charBytes cs := by
  simp [charBytes]

theorem length_charBytes_toList (s : String) : (charBytes s.toList).length = s.utf8ByteSize := by
  rw [← textBytes_eq]
  rfl

namespace Text

/-- What is between two texts is found between their offsets. -/
theorem between?_eq_some {s a b c : String} {i j : Nat} (hs : s = a ++ b ++ c) (hi : i = a.utf8ByteSize)
    (hj : j = i + b.utf8ByteSize) : between? s i j = some b := by
  subst hs hj hi
  have hstart : (⟨a.utf8ByteSize⟩ : String.Pos.Raw).IsValid (a ++ b ++ c) :=
    String.Pos.Raw.isValid_iff_exists_append.2 ⟨a,b ++ c,String.append_assoc,rfl⟩
  have hstop : (⟨a.utf8ByteSize + b.utf8ByteSize⟩ : String.Pos.Raw).IsValid (a ++ b ++ c) :=
    String.Pos.Raw.isValid_iff_exists_append.2 ⟨a ++ b,c,rfl,by simp [String.Pos.Raw.ext_iff]⟩
  have hbytes : (a ++ b ++ c).toByteArray = a.toByteArray ++ (b.toByteArray ++ c.toByteArray) := by
    rw [String.toByteArray_append,String.toByteArray_append,ByteArray.append_assoc]
  rw [between?,dif_pos ⟨hstart,hstop,Nat.le_add_right _ _⟩]
  refine congrArg some (String.toByteArray_inj.1 ?_)
  rw [toByteArray_extract,String.offset_pos,String.offset_pos,hbytes]
  calc (a.toByteArray ++ (b.toByteArray ++ c.toByteArray)).extract (a.toByteArray.size + 0)
        (a.toByteArray.size + b.utf8ByteSize)
    _ = (b.toByteArray ++ c.toByteArray).extract 0 b.utf8ByteSize := ByteArray.extract_append_size_add
    _ = b.toByteArray := ByteArray.extract_append_eq_left rfl

variable {pattern cs : List Char} {c d : Char} {b : UInt8}

/-- Is each character encoded in one byte? -/
def IsAscii (cs : List Char) : Prop := ∀ c ∈ cs, c.toNat < 128

instance (cs : List Char) : Decidable (IsAscii cs) := List.decidableBAll _ cs

theorem utf8EncodeChar_of_ascii (h : c.toNat < 128) : String.utf8EncodeChar c = [UInt8.ofNat c.toNat] := by
  have hval : c.val.toNat ≤ 127 := Nat.le_of_lt_succ h
  unfold String.utf8EncodeChar
  exact if_pos hval

/-- The bytes of any other character are no bytes of ASCII. -/
theorem le_of_mem_utf8EncodeChar (h : ¬ c.toNat < 128) (hb : b ∈ String.utf8EncodeChar c) : 128 ≤ b.toNat := by
  have hval : ¬ c.val.toNat ≤ 127 := fun hle => h (Nat.lt_succ_of_le hle)
  simp only [String.utf8EncodeChar,if_neg hval] at hb
  split_ifs at hb <;> simp only [List.mem_cons,List.not_mem_nil,or_false] at hb <;>
    rcases hb with rfl | rfl | rfl | rfl <;> simp <;> omega

theorem charBytes_of_ascii (h : IsAscii cs) : charBytes cs = cs.map fun c => UInt8.ofNat c.toNat := by
  induction cs with
  | nil => rfl
  | cons c cs ih =>
    obtain ⟨hc,hcs⟩ := List.forall_mem_cons.1 h
    rw [charBytes_cons,ih hcs,charBytes,List.flatMap_singleton,utf8EncodeChar_of_ascii hc]
    rfl

theorem length_charBytes_of_ascii (h : IsAscii cs) : (charBytes cs).length = cs.length := by
  rw [charBytes_of_ascii h,List.length_map]

theorem lowerByte_eq_iff (hc : c.toNat < 128) (hd : d.toNat < 128) :
    lowerByte (UInt8.ofNat c.toNat) = lowerByte (UInt8.ofNat d.toNat) ↔ c.toLower = d.toLower := by
  have hbyte : ∀ c : Char, c.toNat < 128 → (lowerByte (UInt8.ofNat c.toNat)).toNat = c.toLower.toNat := by
    intro c hc
    have hsmall : (UInt8.ofNat c.toNat).toNat = c.toNat := Nat.mod_eq_of_lt (by omega)
    rw [toNat_lowerByte,toNat_toLower,hsmall]
  rw [← UInt8.toNat_inj,← Char.toNat_inj,hbyte c hc,hbyte d hd]

theorem lowerByte_ne_of_le (hb : 128 ≤ b.toNat) (hd : d.toNat < 128) :
    lowerByte b ≠ lowerByte (UInt8.ofNat d.toNat) := by
  intro h
  have hnat := congrArg UInt8.toNat h
  have hsmall : (UInt8.ofNat d.toNat).toNat = d.toNat := Nat.mod_eq_of_lt (by omega)
  rw [toNat_lowerByte,toNat_lowerByte,hsmall] at hnat
  split_ifs at hnat <;> omega

theorem lt_of_toLower_eq (hd : d.toNat < 128) (h : c.toLower = d.toLower) : c.toNat < 128 := by
  have hnat := congrArg Char.toNat h
  rw [toNat_toLower,toNat_toLower] at hnat
  split_ifs at hnat <;> omega

/-- Does a text start with a pattern, letters in either case? -/
def Starts (pattern cs : List Char) : Prop :=
  (cs.take pattern.length).map Char.toLower = pattern.map Char.toLower

instance (pattern cs : List Char) : Decidable (Starts pattern cs) := inferInstanceAs (Decidable (_ = _))

theorem starts_cons : Starts (d :: pattern) (c :: cs) ↔ c.toLower = d.toLower ∧ Starts pattern cs :=
  List.cons_eq_cons

theorem not_starts_nil (hne : pattern ≠ []) : ¬ Starts pattern [] := by
  intro h
  rw [Starts,List.take_nil] at h
  exact hne (List.map_eq_nil_iff.1 h.symm)

theorem starts_iff :
    Starts pattern cs ↔ ∃ mark back, cs = mark ++ back ∧ mark.map Char.toLower = pattern.map Char.toLower := by
  constructor
  · intro h
    exact ⟨cs.take pattern.length,cs.drop pattern.length,(List.take_append_drop _ _).symm,h⟩
  · rintro ⟨mark,back,rfl,hmark⟩
    have hlength : mark.length = pattern.length := by
      have hlength := congrArg List.length hmark
      rwa [List.length_map,List.length_map] at hlength
    rw [Starts,← hlength,List.take_left,hmark]

theorem isAscii_of_map_toLower_eq {mark : List Char} (h : mark.map Char.toLower = pattern.map Char.toLower)
    (hp : IsAscii pattern) : IsAscii mark := by
  intro c hc
  have hlower : c.toLower ∈ pattern.map Char.toLower := h ▸ List.mem_map_of_mem hc
  obtain ⟨d,hd,hcd⟩ := List.mem_map.1 hlower
  exact lt_of_toLower_eq (hp d hd) hcd.symm

/-- The bytes of a text start with those of a pattern of ASCII only if its characters do. -/
theorem take_charBytes_eq_iff (hp : IsAscii pattern) :
    ((charBytes cs).take (charBytes pattern).length).map lowerByte = (charBytes pattern).map lowerByte ↔
      Starts pattern cs := by
  rw [charBytes_of_ascii hp,List.length_map]
  induction pattern generalizing cs with
  | nil => simp [Starts]
  | cons d pattern ih =>
    obtain ⟨hd,hp⟩ := List.forall_mem_cons.1 hp
    cases cs with
    | nil => simp [Starts,charBytes]
    | cons c cs =>
      by_cases hc : c.toNat < 128
      · have hbytes : charBytes (c :: cs) = UInt8.ofNat c.toNat :: charBytes cs := by
          rw [charBytes_cons,charBytes_of_ascii (List.forall_mem_singleton.2 hc)]
          rfl
        rw [starts_cons,← ih hp,← lowerByte_eq_iff hc hd,hbytes]
        exact List.cons_eq_cons
      · obtain ⟨b,bs,hbs⟩ := List.exists_cons_of_ne_nil (String.utf8EncodeChar_ne_nil (c := c))
        have hb : 128 ≤ b.toNat := le_of_mem_utf8EncodeChar hc (hbs ▸ List.mem_cons_self)
        have hbytes : charBytes (c :: cs) = b :: (bs ++ charBytes cs) := by
          rw [charBytes,List.flatMap_cons,hbs]
          rfl
        rw [starts_cons,hbytes]
        refine iff_of_false (fun h => ?_) fun h => hc (lt_of_toLower_eq hd h.1)
        exact lowerByte_ne_of_le hb hd (List.cons.inj h).1

/-- Bytes that are not of ASCII are passed over. -/
theorem offsetOf?_append_of_le (hp : IsAscii pattern) (hne : pattern ≠ []) {front : List UInt8}
    (hfront : ∀ b ∈ front, 128 ≤ b.toNat) (bytes : List UInt8) :
    offsetOf? (charBytes pattern) (front ++ bytes) =
      (offsetOf? (charBytes pattern) bytes).map (· + front.length) := by
  induction front with
  | nil => simp
  | cons b front ih =>
    obtain ⟨hb,hfront⟩ := List.forall_mem_cons.1 hfront
    obtain ⟨d,rest,rfl⟩ := List.exists_cons_of_ne_nil hne
    have hmiss : ((b :: (front ++ bytes)).take (charBytes (d :: rest)).length).map lowerByte ≠
        (charBytes (d :: rest)).map lowerByte := by
      intro h
      rw [charBytes_of_ascii hp] at h
      exact lowerByte_ne_of_le hb (hp d List.mem_cons_self) (List.cons.inj h).1
    rw [List.cons_append,offsetOf?,if_neg hmiss,ih hfront,Option.map_map,List.length_cons]
    rfl

/-- The search goes from one place of the text to the next. -/
theorem offsetOf?_charBytes_cons (hp : IsAscii pattern) (hne : pattern ≠ []) (c : Char) (cs : List Char) :
    offsetOf? (charBytes pattern) (charBytes (c :: cs)) =
      if Starts pattern (c :: cs) then some 0
      else (offsetOf? (charBytes pattern) (charBytes cs)).map (· + (charBytes [c]).length) := by
  by_cases hc : c.toNat < 128
  · have hbyte : charBytes [c] = [UInt8.ofNat c.toNat] := charBytes_of_ascii (List.forall_mem_singleton.2 hc)
    rw [charBytes_cons,hbyte,List.singleton_append,offsetOf?]
    refine if_congr ?_ rfl rfl
    rw [← take_charBytes_eq_iff hp,charBytes_cons,hbyte]
    rfl
  · obtain ⟨d,rest,rfl⟩ := List.exists_cons_of_ne_nil hne
    have hmiss : ¬ Starts (d :: rest) (c :: cs) := fun h =>
      hc (lt_of_toLower_eq (hp d List.mem_cons_self) (starts_cons.1 h).1)
    have hbytes : ∀ b ∈ charBytes [c], 128 ≤ b.toNat := by
      intro b hb
      rw [charBytes,List.flatMap_singleton] at hb
      exact le_of_mem_utf8EncodeChar hc hb
    rw [charBytes_cons c cs,offsetOf?_append_of_le hp hne hbytes,if_neg hmiss]

/-- A search of the encoding finds the first occurrence, if there is one. -/
theorem offsetOf?_cases (hp : IsAscii pattern) (hne : pattern ≠ []) (cs : List Char) :
    (offsetOf? (charBytes pattern) (charBytes cs) = none ∧ ∀ t, t <:+ cs → ¬ Starts pattern t) ∨
      ∃ front back, cs = front ++ back ∧
        offsetOf? (charBytes pattern) (charBytes cs) = some (charBytes front).length ∧
        Starts pattern back ∧ ∀ t, t <:+ front → t ≠ [] → ¬ Starts pattern (t ++ back) := by
  induction cs with
  | nil =>
    refine .inl ⟨rfl,fun t ht => ?_⟩
    rw [List.suffix_nil.1 ht]
    exact not_starts_nil hne
  | cons c cs ih =>
    rw [offsetOf?_charBytes_cons hp hne]
    by_cases hstarts : Starts pattern (c :: cs)
    · refine .inr ⟨[],c :: cs,rfl,if_pos hstarts,hstarts,fun t ht hne => ?_⟩
      exact absurd (List.suffix_nil.1 ht) hne
    · rw [if_neg hstarts]
      rcases ih with ⟨hnone,hmiss⟩ | ⟨front,back,rfl,hsome,hback,hmiss⟩
      · refine .inl ⟨by rw [hnone]; rfl,fun t ht => ?_⟩
        rcases List.suffix_cons_iff.1 ht with rfl | ht
        · exact hstarts
        · exact hmiss t ht
      · refine .inr ⟨c :: front,back,rfl,?_,hback,fun t ht hne => ?_⟩
        · rw [hsome,charBytes_cons c front,List.length_append,Nat.add_comm]
          rfl
        · rcases List.suffix_cons_iff.1 ht with rfl | ht
          · exact hstarts
          · exact hmiss t ht hne

end Text

end PreviewCompiler
