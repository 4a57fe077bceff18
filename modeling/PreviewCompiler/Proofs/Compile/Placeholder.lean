import PreviewCompiler.Proofs.Compile.Addresses
import PreviewCompiler.Proofs.Data.List
import PreviewCompiler.Proofs.Text.Digits
import PreviewCompiler.Proofs.Text.Replace

namespace PreviewCompiler

open Data Script

/-- What stands in front of the number of a placeholder, up to a letter that it has once. -/
private theorem toList_placeholder (i : Nat) : (placeholder i).toList =
    "__".toList ++ 'l' :: ("ivepreview_dep_".toList ++ ((toString i).toList ++ '_' :: ['_'])) := by
  rw [placeholder,String.toList_append,String.toList_append]
  exact List.append_assoc ..

theorem mem_placeholder {i : Nat} {c : Char} (h : c ∈ (placeholder i).toList) :
    c ∈ placeholderFront.toList ∨ c.isDigit = true := by
  rw [placeholder,String.toList_append,String.toList_append] at h
  rcases List.mem_append.1 h with h | h
  · exact (List.mem_append.1 h).imp_right Text.isDigit_of_mem_toString
  · refine .inl (List.contains_iff_mem.1 ?_)
    exact List.all_eq_true.1 (by decide : "__".toList.all (placeholderFront.toList.contains ·) = true) c h

theorem placeholder_ne_nil (i : Nat) : (placeholder i).toList ≠ [] := by
  rw [toList_placeholder]
  exact List.append_ne_nil_of_right_ne_nil _ (List.cons_ne_nil _ _)

private theorem count_placeholder (i : Nat) : (placeholder i).toList.count 'l' = 1 := by
  have hdigits : 'l' ∉ (toString i).toList := fun h => absurd (Text.isDigit_of_mem_toString h) (by decide)
  rw [placeholder,String.toList_append,String.toList_append,List.count_append,List.count_append,
    List.count_eq_zero.2 hdigits]
  decide

/-- No placeholder holds another one. -/
theorem eq_of_infix_placeholder {i j : Nat} (h : (placeholder i).toList <:+: (placeholder j).toList) : i = j := by
  obtain ⟨front,back,heq⟩ := h
  have hcount := congrArg (List.count 'l') heq
  rw [List.count_append,List.count_append,count_placeholder,count_placeholder] at hcount
  have hfront : 'l' ∉ front ++ "__".toList := fun hl => (List.mem_append.1 hl).elim
    (fun hl => absurd (List.count_pos_iff.2 hl) (by omega)) (by decide)
  rw [toList_placeholder,toList_placeholder,← List.append_assoc,List.append_assoc _ _ back,List.cons_append] at heq
  obtain ⟨-,hrest⟩ := append_cons_cancel hfront (by decide) heq
  rw [List.append_assoc,List.append_cancel_left_eq,List.append_assoc,List.cons_append] at hrest
  have hline (n : Nat) : '_' ∉ (toString n).toList := fun hl => absurd (Text.isDigit_of_mem_toString hl) (by decide)
  exact Text.toString_injective (append_cons_cancel (hline i) (hline j) hrest).1

/-- A text between quotes, whatever is in it. -/
def between (s : String) : String := "\"" ++ s ++ "\""

/-- Does a character stand for itself between double quotes? -/
def IsPlain (c : Char) : Prop := 32 ≤ c.toNat ∧ c.toNat < 128 ∧ c ≠ '"' ∧ c ≠ '\\'

instance (c : Char) : Decidable (IsPlain c) := inferInstanceAs (Decidable (_ ∧ _ ∧ _ ∧ _))

theorem escape_of_isPlain {c : Char} (h : IsPlain c) (next : Option Char) : Write.escape '"' c next = c.toString := by
  obtain ⟨hlow,hhigh,hquote,hback⟩ := h
  have hne (d : Char) (hd : d.toNat < 32 ∨ 128 ≤ d.toNat) : c ≠ d := by
    rintro rfl
    omega
  have hlt (d : Char) (hd : d.toNat ≤ 32) : ¬ c < d := fun hcd => by
    have hval : c.toNat < d.toNat := hcd
    omega
  unfold Write.escape
  rw [if_neg (hne _ (by decide)),if_neg (hne _ (by decide)),if_neg (hne _ (by decide)),if_neg (hne _ (by decide)),
    if_neg (hne _ (by decide)),if_neg (hne _ (by decide)),if_neg (hne _ (by decide)),if_neg hback,if_neg hquote,
    if_neg (hlt _ (by decide)),if_neg (hlt _ (by decide)),if_neg (hne _ (by decide)),if_neg (hne _ (by decide)),
    if_neg (hne _ (by decide))]

theorem escapeAll_of_isPlain {cs : List Char} (h : ∀ c ∈ cs, IsPlain c) :
    Write.escapeAll '"' 0 cs = String.ofList cs := by
  induction cs with
  | nil => rfl
  | cons c cs ih =>
    have hc := h c List.mem_cons_self
    have hhalf : Write.halfPairLength? (c :: cs) = none := by
      unfold Write.halfPairLength?
      split
      · rename_i heq
        exact absurd (List.cons.inj heq).1 hc.2.2.2
      · rfl
    rw [Write.escapeAll,hhalf]
    change Write.escape '"' c cs.head? ++ Write.escapeAll '"' 0 cs = _
    rw [escape_of_isPlain hc,ih fun d hd => h d (List.mem_cons_of_mem _ hd),String.ofList_cons]
    rfl

theorem quoted_of_isPlain {s : String} (h : ∀ c ∈ s.toList, IsPlain c) : Write.quoted s = between s := by
  have hcount : s.toList.count '"' = 0 := List.count_eq_zero.2 fun hq => (h _ hq).2.2.1 rfl
  unfold Write.quoted
  simp only [hcount,Nat.not_lt_zero,if_false,escapeAll_of_isPlain h,String.ofList_toList]
  rfl

theorem quoted_placeholder (i : Nat) : Write.quoted (placeholder i) = between (placeholder i) := by
  refine quoted_of_isPlain fun c hc => ?_
  rcases mem_placeholder hc with hc | hc
  · exact of_decide_eq_true (List.all_eq_true.1 (by decide : placeholderFront.toList.all (IsPlain ·) = true) c hc)
  · obtain ⟨hlow,hhigh⟩ : 48 ≤ c.val ∧ c.val ≤ 57 := by simpa [Char.isDigit] using hc
    have hlow : 48 ≤ c.toNat := UInt32.le_iff_toNat_le.1 hlow
    have hhigh : c.toNat ≤ 57 := UInt32.le_iff_toNat_le.1 hhigh
    refine ⟨by omega,by omega,?_,?_⟩
    · rintro rfl
      contradiction
    · rintro rfl
      contradiction

theorem quoted_empty : Write.quoted "" = between "" := by decide

/-- Is none of the first `n` placeholders in a text? -/
def FreeOfPlaceholders (n : Nat) (text : String) : Prop := ∀ i < n, ¬ (placeholder i).toList <:+: text.toList

instance (n : Nat) (text : String) : Decidable (FreeOfPlaceholders n text) :=
  inferInstanceAs (Decidable (∀ i < n, ¬ (placeholder i).toList <:+: text.toList))

theorem quote_not_mem_placeholder (i : Nat) : '"' ∉ (placeholder i).toList := fun h =>
  (mem_placeholder h).elim (by decide) (by decide)

/-- The quotes cut the text in front of them, the text between them, and the text behind them. -/
private theorem append_between (front : List Char) (s : String) (back : List Char) :
    front ++ ((between s).toList ++ back) = front ++ '"' :: (s.toList ++ '"' :: back) := by
  rw [between,String.toList_append,String.toList_append,List.append_assoc,List.append_assoc]
  rfl

/-- A replacement changes the texts between the quotes alone, if what is replaced is nowhere else. -/
private theorem replaceFrom_fill {pattern r : String} (hne : pattern.toList ≠ []) (hquote : '"' ∉ pattern.toList)
    {x y : String → String} {sketch : Sketch}
    (hx : ∀ k, .slot k ∈ sketch →
      x k = pattern ∧ y k = r ∨ ¬ pattern.toList <:+: (x k).toList ∧ y k = x k) (front : List Char)
    (hfree : ¬ pattern.toList <:+: front ++ (sketch.fill fun _ => between "").toList) :
    Text.replaceFrom pattern.toList r.toList 0 (front ++ (sketch.fill fun k => between (x k)).toList) =
      front ++ (sketch.fill fun k => between (y k)).toList := by
  induction sketch generalizing front with
  | nil => exact Text.replaceFrom_of_not_infix hfree
  | cons p ps ih =>
    have ih := ih fun k hk => hx k (List.mem_cons_of_mem _ hk)
    cases p with
    | fixed s =>
      simp only [Sketch.fill,String.toList_append,← List.append_assoc] at hfree ⊢
      exact ih _ hfree
    | slot k =>
      simp only [Sketch.fill,String.toList_append,append_between] at hfree ⊢
      have hfront : ¬ pattern.toList <:+: front := fun h => hfree (h.trans (List.prefix_append ..).isInfix)
      have hback : ¬ pattern.toList <:+: (Sketch.fill (fun _ => between "") ps).toList := fun h =>
        hfree (h.trans (List.IsSuffix.isInfix ⟨front ++ ['"','"'],List.append_assoc ..⟩))
      rw [Text.replaceFrom_append_cons hne hquote,Text.replaceFrom_append_cons hne hquote,
        Text.replaceFrom_of_not_infix hfront]
      have hslot : Text.replaceFrom pattern.toList r.toList 0 (x k).toList = (y k).toList := by
        rcases hx k List.mem_cons_self with ⟨hxk,hyk⟩ | ⟨hxk,hyk⟩
        · rw [hxk,hyk,Text.replaceFrom_self hne]
        · rw [hyk,Text.replaceFrom_of_not_infix hxk]
      have hrest := ih [] hback
      rw [List.nil_append,List.nil_append] at hrest
      rw [hslot,hrest]

/-- Substitution from one placeholder on, those in front of it having been replaced. -/
private theorem substituteFrom_fill {modules : List String} {target : String → String} {sketch : Sketch}
    (hof : sketch.IsOf modules) (hfree : FreeOfPlaceholders modules.length (sketch.fill fun _ => between ""))
    (htarget : ∀ d ∈ modules, FreeOfPlaceholders modules.length (target d)) (done rest : List String)
    (hmodules : modules = done ++ rest) :
    substituteFrom done.length (rest.map target) (sketch.fill fun k => between
        (if modules.idxOf k < done.length then target k else placeholder (modules.idxOf k))) =
      sketch.fill fun k => between (target k) := by
  induction rest generalizing done with
  | nil =>
    rw [List.append_nil] at hmodules
    refine Sketch.fill_congr fun k hk => ?_
    rw [if_pos (hmodules ▸ List.idxOf_lt_length_of_mem (hof k hk))]
  | cons d rest ih =>
    have hlt : done.length < modules.length := by
      rw [hmodules,List.length_append,List.length_cons]
      omega
    have hnext := ih (done ++ [d]) (by rw [hmodules,List.append_assoc]; rfl)
    rw [List.map_cons,substituteFrom,← hnext,List.length_append]
    refine congrArg (substituteFrom (done.length + 1) (rest.map target)) ?_
    have hreplace := replaceFrom_fill (placeholder_ne_nil done.length) (quote_not_mem_placeholder done.length)
      (r := target d)
      (x := fun k => if modules.idxOf k < done.length then target k else placeholder (modules.idxOf k))
      (y := fun k => if modules.idxOf k < done.length + 1 then target k else placeholder (modules.idxOf k))
      (fun k hk => ?_) [] (hfree done.length hlt)
    · exact (congrArg String.ofList hreplace).trans String.ofList_toList
    · have hmem := hof k hk
      rcases Nat.lt_trichotomy (modules.idxOf k) done.length with hk | hk | hk
      · rw [if_pos hk,if_pos (Nat.lt_succ_of_lt hk)]
        exact .inr ⟨htarget k hmem _ hlt,rfl⟩
      · rw [if_neg (Nat.not_lt.2 (Nat.le_of_eq hk.symm)),if_pos (by omega),hk]
        have hget : modules[modules.idxOf k]? = some k := List.getElem?_idxOf hmem
        rw [hk,hmodules,List.getElem?_append_right (Nat.le_refl _),Nat.sub_self] at hget
        exact .inl ⟨rfl,congrArg target (Option.some.inj hget).symm⟩
      · rw [if_neg (by omega),if_neg (by omega)]
        exact .inr ⟨fun hi => absurd (eq_of_infix_placeholder hi) (by omega),rfl⟩

/-- Where no placeholder stands but between the quotes that linking has put it in, all that substitution changes is
what stands between these quotes. -/
theorem substitute_fill {modules : List String} {target : String → String} {sketch : Sketch}
    (hof : sketch.IsOf modules) (hfree : FreeOfPlaceholders modules.length (sketch.fill fun _ => between ""))
    (htarget : ∀ d ∈ modules, FreeOfPlaceholders modules.length (target d)) :
    substitute (sketch.fill fun k => between (placeholder (modules.idxOf k))) (modules.map target) =
      sketch.fill fun k => between (target k) := by
  have hall := substituteFrom_fill hof hfree htarget [] modules rfl
  simp only [List.length_nil,Nat.not_lt_zero,if_false] at hall
  exact hall

/-- What stands in a sketch with nothing between its quotes stands in it with any texts there. -/
private theorem infix_fill {pattern : List Char} (hquote : '"' ∉ pattern) (x : String → String) {sketch : Sketch}
    (front : List Char) (h : pattern <:+: front ++ (sketch.fill fun _ => between "").toList) :
    pattern <:+: front ++ (sketch.fill fun k => between (x k)).toList := by
  induction sketch generalizing front with
  | nil => exact h
  | cons p ps ih =>
    cases p with
    | fixed s =>
      simp only [Sketch.fill,String.toList_append,← List.append_assoc] at h ⊢
      exact ih _ h
    | slot k =>
      simp only [Sketch.fill,String.toList_append,append_between,Text.infix_append_cons_iff hquote] at h ⊢
      exact h.imp_right fun h => h.imp (fun hnil => hnil.trans List.nil_infix) (ih [])

/-- No placeholder is left that has been replaced, and none is put in. -/
theorem not_infix_substituteFrom {targets : List String} {j : Nat}
    (htarget : ∀ t ∈ targets, Text.Fenced (placeholder j).toList t.toList) (i : Nat) (template : String)
    (hj : i ≤ j ∧ j < i + targets.length ∨ ¬ (placeholder j).toList <:+: template.toList) :
    ¬ (placeholder j).toList <:+: (substituteFrom i targets template).toList := by
  induction targets generalizing i template with
  | nil => exact hj.elim (fun hj => absurd hj.2 (Nat.not_lt.2 hj.1)) id
  | cons t ts ih =>
    obtain ⟨ht,hts⟩ := List.forall_mem_cons.1 htarget
    refine ih hts (i + 1) _ ?_
    rw [List.length_cons] at hj
    by_cases hlt : i + 1 ≤ j ∧ j < i + 1 + ts.length
    · exact .inl hlt
    · refine .inr ?_
      rw [Text.replace,String.toList_ofList]
      refine Text.not_infix_replaceFrom ht (hj.imp_left fun hj => ?_) 0
      obtain rfl : i = j := by omega
      rfl

/-- Substitution gives the sketch with the targets between its quotes exactly if no placeholder stands elsewhere. -/
theorem substitute_fill_iff {modules : List String} {target : String → String} {sketch : Sketch}
    (hof : sketch.IsOf modules)
    (htarget : ∀ d ∈ modules, ∀ i < modules.length, Text.Fenced (placeholder i).toList (target d).toList) :
    substitute (sketch.fill fun k => between (placeholder (modules.idxOf k))) (modules.map target) =
        (sketch.fill fun k => between (target k)) ↔
      FreeOfPlaceholders modules.length (sketch.fill fun _ => between "") := by
  refine ⟨fun heq i hi hin => ?_,fun hfree =>
    substitute_fill hof hfree fun d hd i hi => (htarget d hd i hi).free⟩
  have htargets : ∀ t ∈ modules.map target, Text.Fenced (placeholder i).toList t.toList := fun t ht => by
    obtain ⟨d,hd,rfl⟩ := List.mem_map.1 ht
    exact htarget d hd i hi
  have hlt : i < 0 + (modules.map target).length := by
    rw [List.length_map,Nat.zero_add]
    exact hi
  exact not_infix_substituteFrom htargets 0 _ (.inl ⟨Nat.zero_le i,hlt⟩)
    (heq ▸ infix_fill (quote_not_mem_placeholder i) target [] hin)

end PreviewCompiler
