import PreviewCompiler.Text.Split
import Mathlib.Data.List.Infix

namespace PreviewCompiler.Text

variable {pattern replacement : List Char}

theorem prefix_append_cons_iff {x : Char} (hx : x ∉ pattern) (front back : List Char) :
    pattern <+: front ++ x :: back ↔ pattern <+: front := by
  refine ⟨fun h => ?_,fun h => h.trans (List.prefix_append ..)⟩
  rcases List.prefix_or_prefix_of_prefix h (List.prefix_append front (x :: back)) with hp | hp
  · exact hp
  · obtain ⟨rest,rfl⟩ := hp
    cases rest with
    | nil => rw [List.append_nil]
    | cons y rest =>
      have hy := (List.cons_prefix_cons.1 ((List.prefix_append_right_inj front).1 h)).1
      exact absurd (hy ▸ List.mem_append_right _ List.mem_cons_self) hx

theorem infix_append_cons_iff {x : Char} (hx : x ∉ pattern) (front back : List Char) :
    pattern <:+: front ++ x :: back ↔ pattern <:+: front ∨ pattern <:+: back := by
  induction front with
  | nil =>
    have hpre := prefix_append_cons_iff hx [] back
    rw [List.nil_append] at hpre ⊢
    rw [List.infix_cons_iff,hpre,List.prefix_nil,List.infix_nil]
  | cons c front ih =>
    have hpre := prefix_append_cons_iff hx (c :: front) back
    rw [List.cons_append] at hpre ⊢
    rw [List.infix_cons_iff,List.infix_cons_iff,hpre,ih,or_assoc]

private theorem replaceFrom_append_cons_skip {x : Char} (hne : pattern ≠ []) (hx : x ∉ pattern)
    (skip : Nat) (front back : List Char) (hskip : skip ≤ front.length) :
    replaceFrom pattern replacement skip (front ++ x :: back) =
      replaceFrom pattern replacement skip front ++ x :: replaceFrom pattern replacement 0 back := by
  induction front generalizing skip with
  | nil =>
    obtain rfl : skip = 0 := Nat.le_zero.1 hskip
    have hpre : ¬ pattern.isPrefixOf (x :: back) = true := fun hp =>
      hne (List.prefix_nil.1 ((prefix_append_cons_iff hx [] back).1 (List.isPrefixOf_iff_prefix.1 hp)))
    exact if_neg hpre
  | cons c front ih =>
    cases skip with
    | succ skip =>
      rw [List.cons_append,replaceFrom,replaceFrom]
      exact ih skip (Nat.le_of_succ_le_succ hskip)
    | zero =>
      have hpre : pattern.isPrefixOf (c :: (front ++ x :: back)) = pattern.isPrefixOf (c :: front) := by
        rw [Bool.eq_iff_iff,List.isPrefixOf_iff_prefix,List.isPrefixOf_iff_prefix]
        exact prefix_append_cons_iff hx (c :: front) back
      rw [List.cons_append,replaceFrom,replaceFrom,hpre]
      by_cases h : pattern.isPrefixOf (c :: front)
      · have hlength := (List.isPrefixOf_iff_prefix.1 h).length_le
        rw [if_pos h,if_pos h,ih _ (Nat.sub_le_of_le_add hlength),List.append_assoc]
      · rw [if_neg h,if_neg h,ih 0 (Nat.zero_le _),List.cons_append]

/-- What is on both sides of a character that the pattern does not hold. -/
theorem replaceFrom_append_cons {x : Char} (hne : pattern ≠ []) (hx : x ∉ pattern) (front back : List Char) :
    replaceFrom pattern replacement 0 (front ++ x :: back) =
      replaceFrom pattern replacement 0 front ++ x :: replaceFrom pattern replacement 0 back :=
  replaceFrom_append_cons_skip hne hx 0 front back (Nat.zero_le _)

theorem replaceFrom_of_not_infix {cs : List Char} (h : ¬ pattern <:+: cs) :
    replaceFrom pattern replacement 0 cs = cs := by
  induction cs with
  | nil => rfl
  | cons c cs ih =>
    have hpre : ¬ pattern.isPrefixOf (c :: cs) = true := fun hp => h (List.isPrefixOf_iff_prefix.1 hp).isInfix
    rw [replaceFrom,if_neg hpre,ih fun hi => h (hi.trans (List.suffix_cons c cs).isInfix)]

theorem replaceFrom_length (cs : List Char) : replaceFrom pattern replacement cs.length cs = [] := by
  induction cs with
  | nil => rfl
  | cons c cs ih => exact ih

theorem replaceFrom_self (hne : pattern ≠ []) : replaceFrom pattern replacement 0 pattern = replacement := by
  cases hp : pattern with
  | nil => exact absurd hp hne
  | cons c cs =>
    rw [replaceFrom,if_pos (List.isPrefixOf_iff_prefix.2 List.prefix_rfl)]
    exact (congrArg (replacement ++ ·) (replaceFrom_length cs)).trans (List.append_nil _)

theorem replace_self {mark : String} (hne : mark.toList ≠ []) (text : String) : replace mark text mark = text := by
  rw [replace,replaceFrom_self hne,String.ofList_toList]

theorem replace_of_not_infix {mark s : String} (h : ¬ mark.toList <:+: s.toList) (text : String) :
    replace mark text s = s := by
  rw [replace,Text.replaceFrom_of_not_infix h,String.ofList_toList]

/-- Does a text neither hold a pattern nor let an occurrence reach over one of its ends? -/
structure Fenced (pattern text : List Char) : Prop where
  first : ∃ c rest, text = c :: rest ∧ c ∉ pattern
  last : ∃ rest c, text = rest ++ [c] ∧ c ∉ pattern
  free : ¬ pattern <:+: text

theorem Fenced.infix_append_iff {text : List Char} (h : Fenced pattern text) (back : List Char) :
    pattern <:+: text ++ back ↔ pattern <:+: back := by
  obtain ⟨rest,c,rfl,hc⟩ := h.last
  rw [List.append_assoc,List.singleton_append,infix_append_cons_iff hc]
  exact or_iff_right fun hrest => h.free (hrest.trans (List.prefix_append ..).isInfix)

theorem Fenced.append {text other : List Char} (h : Fenced pattern text) (h' : Fenced pattern other) :
    Fenced pattern (text ++ other) := by
  obtain ⟨c,back,htext,hc⟩ := h.first
  obtain ⟨front,d,hother,hd⟩ := h'.last
  refine ⟨⟨c,back ++ other,by rw [htext,List.cons_append],hc⟩,⟨text ++ front,d,?_,hd⟩,?_⟩
  · rw [hother,List.append_assoc]
  · exact fun hin => h'.free ((h.infix_append_iff other).1 hin)

/-- Such a text is left as it is, and cuts off what is in front of it from what is behind it. -/
theorem Fenced.replaceFrom_append {text : List Char} (h : Fenced pattern text) (replacement front back : List Char) :
    replaceFrom pattern replacement 0 (front ++ (text ++ back)) =
      replaceFrom pattern replacement 0 front ++ (text ++ replaceFrom pattern replacement 0 back) := by
  have hne : pattern ≠ [] := fun hnil => h.free (hnil ▸ List.nil_infix)
  have hbehind : replaceFrom pattern replacement 0 (text ++ back) =
      text ++ replaceFrom pattern replacement 0 back := by
    obtain ⟨body,d,hbody,hd⟩ := h.last
    have hfree : ¬ pattern <:+: body := fun hin => h.free (hin.trans (hbody ▸ List.prefix_append ..).isInfix)
    rw [hbody,List.append_assoc,List.append_assoc,List.singleton_append,List.singleton_append,
      replaceFrom_append_cons hne hd,Text.replaceFrom_of_not_infix hfree]
  obtain ⟨c,rest,rfl,hc⟩ := h.first
  have hcut : replaceFrom pattern replacement 0 (c :: (rest ++ back)) =
      c :: replaceFrom pattern replacement 0 (rest ++ back) :=
    replaceFrom_append_cons hne hc [] (rest ++ back)
  rw [← hbehind,List.cons_append,replaceFrom_append_cons hne hc,hcut]

/-- What begins the text with the replacements began it before, as it cannot reach into the first of them. -/
private theorem prefix_of_prefix_replaceFrom {other rest cs : List Char} {x : Char} (hx : x ∉ pattern)
    (h : pattern <+: replaceFrom other (x :: rest) 0 cs) : pattern <+: cs := by
  induction cs generalizing pattern with
  | nil => exact h
  | cons c cs ih =>
    cases pattern with
    | nil => exact List.nil_prefix
    | cons p ps =>
      rw [replaceFrom] at h
      split at h
      · exact absurd (List.mem_cons.2 (.inl (List.cons_prefix_cons.1 h).1.symm)) hx
      · obtain ⟨rfl,hps⟩ := List.cons_prefix_cons.1 h
        exact List.cons_prefix_cons.2 ⟨rfl,ih (List.not_mem_of_not_mem_cons hx) hps⟩

/-- A pattern that has been replaced is nowhere in the text, and one that was not in it is not put in. -/
theorem not_infix_replaceFrom {other cs : List Char} (h : Fenced pattern replacement)
    (hcs : other = pattern ∨ ¬ pattern <:+: cs) (skip : Nat) :
    ¬ pattern <:+: replaceFrom other replacement skip cs := by
  have hne : pattern ≠ [] := fun hnil => h.free (hnil ▸ List.nil_infix)
  induction cs generalizing skip with
  | nil => exact fun hin => hne (List.infix_nil.1 hin)
  | cons c cs ih =>
    have ih := ih (hcs.imp_right fun hcs hin => hcs (hin.trans (List.suffix_cons c cs).isInfix))
    cases skip with
    | succ skip => exact ih skip
    | zero =>
      rw [replaceFrom]
      split
      · rw [h.infix_append_iff]
        exact ih _
      · rename_i hother
        refine fun hin => (List.infix_cons_iff.1 hin).elim (fun hpre => ?_) (ih 0)
        obtain ⟨x,rest,rfl,hx⟩ := h.first
        have hpattern : pattern <+: c :: cs := by
          cases hp : pattern with
          | nil => exact List.nil_prefix
          | cons p ps =>
            rw [hp] at hx hpre
            obtain ⟨rfl,hps⟩ := List.cons_prefix_cons.1 hpre
            exact List.cons_prefix_cons.2
              ⟨rfl,prefix_of_prefix_replaceFrom (List.not_mem_of_not_mem_cons hx) hps⟩
        rcases hcs with rfl | hcs
        · exact hother (List.isPrefixOf_iff_prefix.2 hpattern)
        · exact hcs hpattern.isInfix

end PreviewCompiler.Text
