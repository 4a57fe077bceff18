import PreviewCompiler.Proofs.Preview.Escaping
import PreviewCompiler.Proofs.Text.Offset

namespace PreviewCompiler.PreviewDocument

variable {cs front back : List Char} {css : String} {i : Nat}

theorem closesStyle_iff_starts : closesStyle cs = true ↔ Text.Starts "</style".toList cs := beq_iff_eq

theorem isAscii_styleEnd : Text.IsAscii "</style".toList := by decide

/-- What is in front of the next occurrence is written as it is. -/
theorem escapeStyleChars_append (h : ∀ t, t <:+ front → t ≠ [] → ¬ closesStyle (t ++ back) = true) :
    escapeStyleChars (front ++ back) = front ++ escapeStyleChars back := by
  induction front with
  | nil => rfl
  | cons c front ih =>
    have hmiss : ¬ closesStyle (c :: (front ++ back)) = true :=
      h (c :: front) List.suffix_rfl (List.cons_ne_nil c front)
    have hrest : ∀ t, t <:+ front → t ≠ [] → ¬ closesStyle (t ++ back) = true := fun t ht =>
      h t (ht.trans (List.suffix_cons c front))
    rw [List.cons_append,escapeStyleChars,if_neg hmiss,ih hrest,List.cons_append]

theorem not_closesStyle_of_ne {c : Char} (hc : c ≠ '<') (cs : List Char) : ¬ closesStyle (c :: cs) = true := by
  intro h
  have hlower : c.toLower = '<' := (List.cons.inj (closesStyle_iff.1 h)).1
  exact hc (Markup.eq_of_toLower_eq_mark hlower)

/-- No occurrence begins inside another one. -/
theorem escapeStyleChars_append_of_not_mem (h : '<' ∉ front) (back : List Char) :
    escapeStyleChars (front ++ back) = front ++ escapeStyleChars back := by
  refine escapeStyleChars_append fun t ht hne => ?_
  obtain ⟨c,rest,rfl⟩ := List.exists_cons_of_ne_nil hne
  refine not_closesStyle_of_ne ?_ _
  rintro rfl
  exact h (ht.mem List.mem_cons_self)

theorem escapeStyleChars_eq_self_iff : escapeStyleChars cs = cs ↔ ∀ t, t <:+ cs → ¬ closesStyle t = true := by
  constructor
  · intro hself t ht hcloses
    exact isFree_escapeStyleChars cs t (hself.symm ▸ ht) (closesStyle_iff.1 hcloses)
  · intro h
    have hall : escapeStyleChars (cs ++ []) = cs ++ escapeStyleChars [] := by
      refine escapeStyleChars_append fun t ht _ => ?_
      rw [List.append_nil]
      exact h t ht
    rwa [List.append_nil,escapeStyleChars,List.append_nil] at hall

/-- An occurrence gets its backslash, and the escaping goes on behind it. -/
theorem exists_of_closesStyle (h : closesStyle cs = true) :
    ∃ name back, cs = '<' :: '/' :: (name ++ back) ∧ Text.IsAscii name ∧ name.length = 5 ∧
      escapeStyleChars cs = '<' :: '\\' :: '/' :: (name ++ escapeStyleChars back) := by
  obtain ⟨mark,back,rfl,hmark⟩ := Text.starts_iff.1 (closesStyle_iff_starts.1 h)
  have hascii := Text.isAscii_of_map_toLower_eq hmark isAscii_styleEnd
  have hlower : mark.map Char.toLower = '<' :: '/' :: "style".toList := hmark
  obtain ⟨a,mark,rfl,ha,hlower⟩ := List.map_eq_cons_iff.1 hlower
  obtain ⟨b,name,rfl,hb,hname⟩ := List.map_eq_cons_iff.1 hlower
  obtain rfl : a = '<' := Text.eq_of_toLower_eq ha (by decide)
  obtain rfl : b = '/' := Text.eq_of_toLower_eq hb (by decide)
  have hlength : name.length = 5 := by
    have hlength := congrArg List.length hname
    rwa [List.length_map] at hlength
  have hfree : '<' ∉ '/' :: name := by
    intro hmem
    rcases List.mem_cons.1 hmem with heq | hmem
    · exact absurd heq (by decide)
    · have hstyle : '<'.toLower ∈ "style".toList := hname ▸ List.mem_map_of_mem hmem
      exact absurd hstyle (by decide)
  refine ⟨name,back,rfl,fun c hc => hascii c (by simp [hc]),hlength,?_⟩
  have hbehind : escapeStyleChars ('/' :: name ++ back) = '/' :: name ++ escapeStyleChars back :=
    escapeStyleChars_append_of_not_mem hfree back
  have hcloses : closesStyle ('<' :: ('/' :: name ++ back)) = true := h
  rw [List.cons_append,escapeStyleChars,if_pos hcloses,hbehind]
  rfl

/-- Either the styles hold no occurrence, or the search finds the first one and the styles are cut around it. -/
theorem search_cases (css : String) :
    (Text.offsetOf? (textBytes "</style") (textBytes css) = none ∧ escapeStyle css = css) ∨
      ∃ front name back : String, css = front ++ "</" ++ name ++ back ∧ name.utf8ByteSize = 5 ∧
        Text.offsetOf? (textBytes "</style") (textBytes css) = some front.utf8ByteSize ∧
        escapeStyle css = front ++ "<\\/" ++ name ++ escapeStyle back := by
  rw [textBytes_eq,textBytes_eq]
  rcases Text.offsetOf?_cases isAscii_styleEnd (by decide) css.toList with
    ⟨hnone,hmiss⟩ | ⟨front,back,hcss,hsome,hback,hmiss⟩
  · have hself : escapeStyleChars css.toList = css.toList :=
      escapeStyleChars_eq_self_iff.2 fun t ht hcloses => hmiss t ht (closesStyle_iff_starts.1 hcloses)
    exact .inl ⟨hnone,by rw [escapeStyle,hself,String.ofList_toList]⟩
  · obtain ⟨name,rest,rfl,hascii,hlength,hescape⟩ := exists_of_closesStyle (closesStyle_iff_starts.2 hback)
    have hfront := escapeStyleChars_append fun t ht hne hcloses => hmiss t ht hne (closesStyle_iff_starts.1 hcloses)
    refine .inr ⟨String.ofList front,String.ofList name,String.ofList rest,?_,?_,?_,?_⟩
    · rw [← String.toList_inj,hcss]
      simp
    · rw [← length_charBytes_toList,String.toList_ofList,Text.length_charBytes_of_ascii hascii,hlength]
    · rw [hsome,← length_charBytes_toList,String.toList_ofList]
    · rw [← String.toList_inj,escapeStyle,hcss,hfront,hescape]
      simp [escapeStyle]

/-- A scan that finds an occurrence and can cut around it goes on behind it. -/
theorem scanStyle_of_cut {written rest front name back : String}
    (hsome : Text.offsetOf? (textBytes "</style") (textBytes rest) = some i)
    (hfront : Text.between? rest 0 i = some front) (hname : Text.between? rest (i + 2) (i + 7) = some name)
    (hback : Text.between? rest (i + 7) rest.utf8ByteSize = some back) :
    scanStyle written rest = scanStyle (written ++ front ++ "<\\/" ++ name) back := by
  rw [scanStyle,hsome]
  simp only [hfront,hname]
  split
  · rename_i hfront' hname' hback'
    obtain rfl := Option.some.inj hfront'
    obtain rfl := Option.some.inj hname'
    obtain rfl := Option.some.inj (hback.symm.trans hback')
    rfl
  · rename_i hmiss
    exact absurd hback (hmiss front name back rfl rfl)

/-- The scan cuts between characters only, comes to the end and writes the escaped styles behind what it has written. -/
theorem scanStyle_eq (written rest : String) : scanStyle written rest = some (written ++ escapeStyle rest) := by
  -- What is behind an occurrence is shorter, and the escaping of it does not depend on what has been written.
  induction hsize : rest.utf8ByteSize using Nat.strongRecOn generalizing written rest with
  | ind size ih =>
    rcases search_cases rest with ⟨hnone,hself⟩ | ⟨front,name,back,hrest,hname,hsome,hescape⟩
    · rw [scanStyle,hnone,hself]
    · have hmark : "</".utf8ByteSize = 2 := by decide
      have htotal : rest.utf8ByteSize = front.utf8ByteSize + 7 + back.utf8ByteSize := by
        rw [hrest]
        simp only [String.utf8ByteSize_append,hmark,hname]
      have hcutFront : Text.between? rest 0 front.utf8ByteSize = some front :=
        Text.between?_eq_some (a := "") (c := "</" ++ name ++ back) (by simp [hrest,String.append_assoc])
          (by rfl) (by simp)
      have hcutName : Text.between? rest (front.utf8ByteSize + 2) (front.utf8ByteSize + 7) = some name :=
        Text.between?_eq_some hrest (by simp [hmark]) (by omega)
      have hcutBack : Text.between? rest (front.utf8ByteSize + 7) rest.utf8ByteSize = some back :=
        Text.between?_eq_some (a := front ++ "</" ++ name) (c := "") (by simp [hrest])
          (by simp [hmark,hname]) htotal
      have hshorter : back.utf8ByteSize < size := by omega
      rw [scanStyle_of_cut hsome hcutFront hcutName hcutBack,ih _ hshorter _ back rfl,hescape]
      simp [String.append_assoc]

/-- Does `</style` stand behind the first `i` characters of some styles, letters in either case? -/
def ClosesStyleAt (css : String) (i : Nat) : Prop :=
  ∃ front mark back, css = front ++ mark ++ back ∧ front.length = i ∧ mark.toLower = "</style"

theorem closesStyleAt_iff : ClosesStyleAt css i ↔ closesStyle (css.toList.drop i) = true := by
  rw [closesStyle_iff_starts,Text.starts_iff]
  constructor
  · rintro ⟨front,mark,back,rfl,rfl,hmark⟩
    refine ⟨mark.toList,back.toList,?_,?_⟩
    · rw [String.append_assoc,String.toList_append,String.toList_append,← String.length_toList,List.drop_left]
    · rw [← Text.toList_toLower,hmark]
      rfl
  · rintro ⟨mark,back,hdrop,hmark⟩
    have hi : i ≤ css.toList.length := by
      by_contra hlong
      rw [List.drop_eq_nil_of_le (by omega)] at hdrop
      rw [(List.append_eq_nil_iff.1 hdrop.symm).1] at hmark
      exact absurd hmark (by decide)
    refine ⟨String.ofList (css.toList.take i),String.ofList mark,String.ofList back,?_,?_,?_⟩
    · rw [← String.ofList_append,← String.ofList_append,List.append_assoc,← hdrop,List.take_append_drop,
        String.ofList_toList]
    · rw [String.length_ofList,List.length_take,Nat.min_eq_left hi]
    · rw [← String.toList_inj,Text.toList_toLower,String.toList_ofList,hmark]
      rfl

instance (css : String) (i : Nat) : Decidable (ClosesStyleAt css i) := decidable_of_iff _ closesStyleAt_iff.symm

/-- Every character is written as it is, and behind the first one of an occurrence there is a backslash. -/
theorem escapeStyleChars_eq_flatMap (front back : List Char) :
    escapeStyleChars back = (back.zipIdx front.length).flatMap fun (c,i) =>
      if closesStyle ((front ++ back).drop i) = true then ['<','\\'] else [c] := by
  induction back generalizing front with
  | nil => rfl
  | cons c back ih =>
    have hrest := ih (front ++ [c])
    rw [List.length_append,List.length_singleton,List.append_assoc,List.singleton_append] at hrest
    rw [escapeStyleChars,List.zipIdx_cons,List.flatMap_cons,← hrest]
    simp only [List.drop_left]
    by_cases hcloses : closesStyle (c :: back) = true
    · have hc : c = '<' := by
        by_contra hc
        exact not_closesStyle_of_ne hc back hcloses
      rw [if_pos hcloses,if_pos hcloses,hc]
      rfl
    · rw [if_neg hcloses,if_neg hcloses]
      rfl

theorem toList_escapeStyle (css : String) :
    (escapeStyle css).toList =
      css.toList.zipIdx.flatMap (fun (c,i) => if ClosesStyleAt css i then ['<','\\'] else [c]) := by
  rw [escapeStyle,String.toList_ofList,escapeStyleChars_eq_flatMap []]
  refine List.flatMap_congr fun e _ => ?_
  exact if_congr closesStyleAt_iff.symm rfl rfl

theorem escapeStyle_eq_self_iff : escapeStyle css = css ↔ ∀ i, ¬ ClosesStyleAt css i := by
  have hchars : escapeStyle css = css ↔ escapeStyleChars css.toList = css.toList := by
    rw [← String.toList_inj,escapeStyle,String.toList_ofList]
  rw [hchars,escapeStyleChars_eq_self_iff]
  constructor
  · intro h i hcloses
    exact h _ (List.drop_suffix i _) (closesStyleAt_iff.1 hcloses)
  · intro h t ht hcloses
    obtain ⟨front,hfront⟩ := ht
    have hdrop : css.toList.drop front.length = t := by rw [← hfront,List.drop_left]
    exact h front.length (closesStyleAt_iff.2 (hdrop ▸ hcloses))

/-- Nothing in escaped styles is escaped again. -/
theorem escapeStyle_escapeStyle (css : String) : escapeStyle (escapeStyle css) = escapeStyle css := by
  have hfree : escapeStyleChars (escapeStyleChars css.toList) = escapeStyleChars css.toList :=
    escapeStyleChars_eq_self_iff.2 fun t ht hcloses =>
      isFree_escapeStyleChars css.toList t ht (closesStyle_iff.1 hcloses)
  rw [escapeStyle,escapeStyle,String.toList_ofList,hfree]

/-- The scan of some styles comes to its end and never cuts a character.  It writes the styles with one backslash behind
the less-than sign of each `</style` and nothing else changed.  So styles without one are left as they are, and nothing
more is changed when what has been written is escaped again. -/
theorem styles_escaped_in_place (css : String) :
    scanStyle "" css = some (escapeStyle css) ∧
      (escapeStyle css).toList =
        css.toList.zipIdx.flatMap (fun (c,i) => if ClosesStyleAt css i then ['<','\\'] else [c]) ∧
      (escapeStyle css = css ↔ ∀ i, ¬ ClosesStyleAt css i) ∧
      escapeStyle (escapeStyle css) = escapeStyle css := by
  have hscan : scanStyle "" css = some (escapeStyle css) := by rw [scanStyle_eq,String.empty_append]
  exact ⟨hscan,toList_escapeStyle css,escapeStyle_eq_self_iff,escapeStyle_escapeStyle css⟩

example : escapeStyle "é</ſtyle></</STYLE>" = "é</ſtyle></<\\/STYLE>" := by decide +kernel

end PreviewCompiler.PreviewDocument
