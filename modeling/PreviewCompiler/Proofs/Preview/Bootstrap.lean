import PreviewCompiler.Proofs.Preview.Escaping
import PreviewCompiler.Proofs.Script.StringLiteral

namespace PreviewCompiler

namespace Text

variable {pattern replacement cs : List Char} {write : Char → List Char}

theorem replaceFrom_append_of_not_mem {front : List Char} (hne : pattern ≠ []) (h : ∀ c ∈ front, c ∉ pattern) :
    replaceFrom pattern replacement 0 (front ++ cs) = front ++ replaceFrom pattern replacement 0 cs := by
  induction front with
  | nil => rfl
  | cons c front ih =>
    obtain ⟨hc,hfront⟩ := List.forall_mem_cons.1 h
    rw [List.cons_append,List.cons_append,← ih hfront]
    exact replaceFrom_append_cons hne hc [] (front ++ cs)

theorem exists_replaceFrom_append_self (hne : pattern ≠ []) (replacement cs : List Char) :
    ∃ rest, replaceFrom pattern replacement 0 (pattern ++ cs) = replacement ++ rest := by
  obtain ⟨c,back,rfl⟩ := List.exists_cons_of_ne_nil hne
  have hpre := List.isPrefixOf_iff_prefix.2 (List.prefix_append (c :: back) cs)
  rw [List.cons_append] at hpre ⊢
  rw [replaceFrom,if_pos hpre]
  exact ⟨_,rfl⟩

/-- Is each character of a mark written as it is, and part of nothing else that is written? -/
structure IsOwn (write : Char → List Char) (mark : List Char) : Prop where
  self : ∀ c ∈ mark, write c = [c]
  only : ∀ c ∈ mark, ∀ d, c ∈ write d → d = c

theorem IsOwn.tail {c : Char} (h : IsOwn write (c :: pattern)) : IsOwn write pattern where
  self d hd := h.self d (List.mem_cons_of_mem _ hd)
  only d hd := h.only d (List.mem_cons_of_mem _ hd)

theorem IsOwn.flatMap_eq (h : IsOwn write pattern) : pattern.flatMap write = pattern := by
  induction pattern with
  | nil => rfl
  | cons c pattern ih =>
    rw [List.flatMap_cons,h.self c List.mem_cons_self,ih h.tail]
    rfl

/-- A mark that stands in front of what is written stands in front of the text. -/
theorem IsOwn.prefix_of_prefix_flatMap (h : IsOwn write pattern) (hwrite : ∀ d, write d ≠ []) {x : Char}
    (hx : x ∉ pattern) (hp : pattern <+: cs.flatMap write ++ [x]) : pattern <+: cs := by
  induction pattern generalizing cs with
  | nil => exact List.nil_prefix
  | cons c pattern ih =>
    cases cs with
    | nil => exact absurd (List.cons_prefix_cons.1 hp).1 (List.ne_of_not_mem_cons hx).symm
    | cons d cs =>
      rw [List.flatMap_cons,List.append_assoc] at hp
      obtain ⟨first,more,hd⟩ := List.exists_cons_of_ne_nil (hwrite d)
      have hfirst : c = first := by
        rw [hd] at hp
        exact (List.cons_prefix_cons.1 hp).1
      obtain rfl := h.only c List.mem_cons_self d (hd ▸ hfirst ▸ List.mem_cons_self)
      rw [h.self d List.mem_cons_self] at hp
      exact List.cons_prefix_cons.2
        ⟨rfl,ih h.tail (List.not_mem_of_not_mem_cons hx) (List.cons_prefix_cons.1 hp).2⟩

/-- A mark is replaced in what is written of a text as it is in the text: not at all if it is not there, and else first
behind what is written of the characters in front of it. -/
theorem IsOwn.replaceFrom_flatMap (h : IsOwn write pattern) (hwrite : ∀ d, write d ≠ []) (hne : pattern ≠ []) {x : Char}
    (hx : x ∉ pattern) (replacement cs : List Char) :
    (¬ pattern <:+: cs → replaceFrom pattern replacement 0 (cs.flatMap write ++ [x]) = cs.flatMap write ++ [x]) ∧
    (pattern <:+: cs → ∃ front back rest, cs = front ++ pattern ++ back ∧
      replaceFrom pattern replacement 0 (cs.flatMap write ++ [x]) = front.flatMap write ++ (replacement ++ rest)) := by
  induction cs with
  | nil =>
    exact ⟨fun _ => replaceFrom_append_cons hne hx [] [],fun hin => absurd (List.infix_nil.1 hin) hne⟩
  | cons c cs ih =>
    by_cases hp : pattern <+: c :: cs
    · refine ⟨fun hno => absurd hp.isInfix hno,fun _ => ?_⟩
      obtain ⟨back,hback⟩ := hp
      obtain ⟨rest,hrest⟩ := exists_replaceFrom_append_self hne replacement (back.flatMap write ++ [x])
      refine ⟨[],back,rest,hback.symm,?_⟩
      rw [← hback,List.flatMap_append,h.flatMap_eq,List.append_assoc]
      exact hrest
    · have hstep : replaceFrom pattern replacement 0 ((c :: cs).flatMap write ++ [x]) =
          write c ++ replaceFrom pattern replacement 0 (cs.flatMap write ++ [x]) := by
        by_cases hc : c ∈ pattern
        · have hno : ¬ pattern.isPrefixOf ((c :: cs).flatMap write ++ [x]) = true := fun hpre =>
            hp (h.prefix_of_prefix_flatMap hwrite hx (List.isPrefixOf_iff_prefix.1 hpre))
          rw [List.flatMap_cons,h.self c hc] at hno ⊢
          exact if_neg hno
        · rw [List.flatMap_cons,List.append_assoc]
          refine replaceFrom_append_of_not_mem hne fun d hd hmem => hc ?_
          rwa [h.only d hmem c hd]
      rw [hstep,List.infix_cons_iff,or_iff_right hp]
      refine ⟨fun hno => ?_,fun hin => ?_⟩
      · rw [ih.1 hno,List.flatMap_cons,List.append_assoc]
      · obtain ⟨front,back,rest,rfl,hrest⟩ := ih.2 hin
        exact ⟨c :: front,back,rest,rfl,by rw [hrest,List.flatMap_cons,List.append_assoc]⟩

end Text

namespace PreviewDocument

open Script Lexer

theorem hexNumber?_control : ∀ n < 32, hexNumber? ['0','0',Json.hexDigit (n / 16),Json.hexDigit (n % 16)] = some n := by
  decide

/-- What is written of a character between quotes is that character in a script. -/
theorem script_spells_writeScriptChar (c : Char) : Spells (writeScriptChar c) c := by
  by_cases h : c = '<'
  · subst h
    have hnumber : hexNumber? ['0','0','3','c'] = some '<'.toNat := rfl
    exact spells_unicode (by decide) hnumber (by decide)
  · rw [writeScriptChar,flatMap_escapeScriptChar (not_mem_escapeChar h)]
    unfold Json.escapeChar
    split_ifs with hquote hslash h₁ h₂ hline hreturn h₅ hcontrol
    rotate_left 7
    · have hlt : c.toNat < 32 := hcontrol
      exact spells_unicode (by decide) (hexNumber?_control c.toNat hlt) (by omega)
    · exact spells_self hquote hslash hline hreturn
    all_goals
      subst c
      exact spells_letter (by decide)

theorem scriptString_eq (s : String) :
    scriptString s = String.ofList ('"' :: (s.toList.flatMap writeScriptChar ++ ['"'])) := by
  rw [← String.toList_inj,scriptString,toList_escapeScript,String.toList_ofList]
  exact scriptText_string s

/-- Every text is read back from the string that a script gets. -/
theorem isString_scriptString (s : String) : IsString (scriptString s) s := by
  rw [scriptString_eq]
  exact isString_of_spells script_spells_writeScriptChar s

/-- The mark has no character of an escape. -/
theorem isOwn_rootMark : Text.IsOwn writeScriptChar rootMark.toList where
  self c hc := by
    have hself : rootMark.toList.all (fun c => writeScriptChar c = [c]) = true := by decide
    exact of_decide_eq_true (List.all_eq_true.1 hself c hc)
  only c hc d h := by
    have hdigit : ∀ n < 16, Json.hexDigit n ∉ rootMark.toList := by decide
    by_cases hlt : d = '<'
    · subst hlt
      have hescape : (writeScriptChar '<').all (fun c => c ∉ rootMark.toList) = true := by decide
      exact absurd hc (of_decide_eq_true (List.all_eq_true.1 hescape c h))
    rw [writeScriptChar,flatMap_escapeScriptChar (not_mem_escapeChar hlt)] at h
    unfold Json.escapeChar at h
    split_ifs at h with _ _ _ _ _ _ _ hcontrol
    rotate_left 7
    · have hcode : d.toNat < 32 := hcontrol
      simp only [List.mem_cons,List.not_mem_nil,or_false] at h
      rcases h with rfl | rfl | rfl | rfl | rfl | rfl
      rotate_left 4
      · exact absurd hc (hdigit (d.toNat / 16) (by omega))
      · exact absurd hc (hdigit (d.toNat % 16) (by omega))
      all_goals exact absurd hc (by decide)
    · exact (List.mem_singleton.1 h).symm
    all_goals
      simp only [List.mem_cons,List.not_mem_nil,or_false] at h
      rcases h with rfl | rfl <;> exact absurd hc (by decide)

theorem writeScriptChar_ne_nil (c : Char) : writeScriptChar c ≠ [] := (script_spells_writeScriptChar c).ne_nil

/-- The module with a text in the slot of the entry and another one in that of the root. -/
def moduleText (entry rootId : String) : String := bootstrapHead ++ entry ++ bootstrapMiddle ++ rootId ++ bootstrapTail

/-- What is in the slot of the entry. -/
def entrySlot (entry rootId : String) : String := Text.replace rootMark (scriptString rootId) (scriptString entry)

theorem fenced_ofList {cs : List Char} {mark : String} (h : mark ∈ [entryMark,rootMark])
    (hcheck : ∀ mark ∈ [entryMark,rootMark], (cs.head?.any fun c => c ∉ mark.toList) = true ∧
      (cs.getLast?.any fun c => c ∉ mark.toList) = true ∧ ¬ mark.toList <:+: cs) :
    Text.Fenced mark.toList (String.ofList cs).toList := by
  obtain ⟨hfirst,hlast,hfree⟩ := hcheck mark h
  obtain ⟨c,hc,hfirst⟩ := (Option.any_eq_true ..).1 hfirst
  obtain ⟨d,hd,hlast⟩ := (Option.any_eq_true ..).1 hlast
  obtain ⟨rest,hrest⟩ := List.head?_eq_some_iff.1 hc
  obtain ⟨body,hbody⟩ := List.getLast?_eq_some_iff.1 hd
  rw [String.toList_ofList]
  exact ⟨⟨c,rest,hrest,of_decide_eq_true hfirst⟩,⟨body,d,hbody,of_decide_eq_true hlast⟩,hfree⟩

theorem fenced_append {mark s t : String} (hs : Text.Fenced mark.toList s.toList)
    (ht : Text.Fenced mark.toList t.toList) : Text.Fenced mark.toList (s ++ t).toList := by
  rw [String.toList_append]
  exact hs.append ht

section Literals

set_option maxRecDepth 20000

theorem fenced_bootstrapHead {mark : String} (h : mark ∈ [entryMark,rootMark]) :
    Text.Fenced mark.toList bootstrapHead.toList :=
  fenced_append (fenced_append (fenced_ofList h (by decide +kernel)) (fenced_ofList h (by decide +kernel)))
    (fenced_ofList h (by decide +kernel))

theorem fenced_bootstrapMiddle {mark : String} (h : mark ∈ [entryMark,rootMark]) :
    Text.Fenced mark.toList bootstrapMiddle.toList := fenced_ofList h (by decide +kernel)

theorem fenced_bootstrapTail {mark : String} (h : mark ∈ [entryMark,rootMark]) :
    Text.Fenced mark.toList bootstrapTail.toList := fenced_ofList h (by decide +kernel)

end Literals

theorem replace_between {mark head middle tail : String} (hhead : Text.Fenced mark.toList head.toList)
    (hmiddle : Text.Fenced mark.toList middle.toList) (htail : Text.Fenced mark.toList tail.toList)
    (text entry rootId : String) :
    Text.replace mark text (head ++ entry ++ middle ++ rootId ++ tail) =
      head ++ Text.replace mark text entry ++ middle ++ Text.replace mark text rootId ++ tail := by
  have hfront := hhead.replaceFrom_append text.toList []
  have hback := htail.replaceFrom_append text.toList rootId.toList []
  simp only [List.nil_append,List.append_nil,Text.replaceFrom] at hfront hback
  rw [← String.toList_inj]
  simp only [Text.replace,String.toList_ofList,String.toList_append,List.append_assoc]
  rw [hfront,hmiddle.replaceFrom_append,hback]

/-- A mark is replaced in each slot by itself. -/
theorem replace_moduleText {mark : String} (h : mark ∈ [entryMark,rootMark]) (text entry rootId : String) :
    Text.replace mark text (moduleText entry rootId) =
      moduleText (Text.replace mark text entry) (Text.replace mark text rootId) :=
  replace_between (fenced_bootstrapHead h) (fenced_bootstrapMiddle h) (fenced_bootstrapTail h) text entry rootId

theorem bootstrapModule_eq (entry rootId : String) :
    bootstrapModule entry rootId = moduleText (entrySlot entry rootId) (scriptString rootId) := by
  have htemplate : bootstrapTemplate = moduleText entryMark rootMark := rfl
  have hroot : Text.replace entryMark (scriptString entry) rootMark = rootMark :=
    Text.replace_of_not_infix (by decide +kernel) _
  rw [bootstrapModule,htemplate,replace_moduleText (by decide),Text.replace_self (by decide),hroot,
    replace_moduleText (by decide),Text.replace_self (by decide),entrySlot]

theorem moduleText_inj {entry entry' rootId : String} (h : moduleText entry rootId = moduleText entry' rootId) :
    entry = entry' := by
  rw [← String.toList_inj] at h ⊢
  simp only [moduleText,String.toList_append,List.append_assoc] at h
  exact List.append_cancel_right (List.append_cancel_left h)

theorem rootMark_ne_nil : rootMark.toList ≠ [] := by decide

theorem quote_not_mem_rootMark : '"' ∉ rootMark.toList := by decide

theorem toList_entrySlot (entry rootId : String) : (entrySlot entry rootId).toList =
    '"' :: Text.replaceFrom rootMark.toList (scriptString rootId).toList 0
      (entry.toList.flatMap writeScriptChar ++ ['"']) := by
  rw [entrySlot,Text.replace,String.toList_ofList,scriptString_eq entry,String.toList_ofList]
  exact Text.replaceFrom_append_cons rootMark_ne_nil quote_not_mem_rootMark [] _

theorem entrySlot_of_markless {entry : String} (h : ¬ rootMark.toList <:+: entry.toList) (rootId : String) :
    entrySlot entry rootId = scriptString entry := by
  have hslot := (isOwn_rootMark.replaceFrom_flatMap writeScriptChar_ne_nil rootMark_ne_nil quote_not_mem_rootMark
    (scriptString rootId).toList entry.toList).1 h
  rw [← String.toList_inj,toList_entrySlot,hslot,scriptString_eq,String.toList_ofList]

/-- The string of an entry that holds the mark ends where the string of the root begins. -/
theorem not_isString_entrySlot {entry : String} (h : rootMark.toList <:+: entry.toList) (rootId : String) :
    ¬ IsString (entrySlot entry rootId) entry := by
  obtain ⟨front,back,rest,hentry,hslot⟩ := (isOwn_rootMark.replaceFrom_flatMap writeScriptChar_ne_nil rootMark_ne_nil
    quote_not_mem_rootMark (scriptString rootId).toList entry.toList).2 h
  intro hstring
  obtain ⟨l,hsource,hend⟩ := exists_lexer (entrySlot entry rootId).toList
  have hrest : l.rest = '"' :: ((String.ofList front).toList.flatMap writeScriptChar ++ ['"']) ++
      (rootId.toList.flatMap writeScriptChar ++ ['"'] ++ rest) := by
    rw [hsource,toList_entrySlot,hslot,scriptString_eq rootId,String.toList_ofList,String.toList_ofList]
    simp only [List.append_assoc,List.cons_append,List.nil_append]
  have hfront := readToken_flatMap script_spells_writeScriptChar (String.ofList front) ⟨false,false⟩ {} hend hrest
  have hwhole := hstring ⟨false,false⟩ {} l [] hend (hsource.trans (List.append_nil _).symm)
  have htoken := Except.ok.inj (congrArg Prod.fst (hwhole.symm.trans hfront))
  have hvalue : entry.toList = front := by
    rw [(Token.string.inj htoken).1,String.toList_ofList]
  have hlength := congrArg List.length (hvalue.symm.trans hentry)
  have hpos := List.length_pos_iff.2 rootMark_ne_nil
  simp only [List.length_append] at hlength
  omega

/-- In the module of a page the slot of the root has a string that is read back as the name of the root, and the slot of
the entry has one that is read back as the entry exactly if the entry does not hold the mark of the root; then no name
of the root makes a difference to it.  The rest of the module, and of the page, is the same for every entry. -/
theorem slots_of_bootstrapModule (entry rootId : String) :
    (∃ slot, bootstrapModule entry rootId = moduleText slot (scriptString rootId) ∧
      IsString (scriptString rootId) rootId ∧
      (IsString slot entry ↔ ¬ rootMark.toList <:+: entry.toList) ∧
      (¬ rootMark.toList <:+: entry.toList →
        ∀ id, bootstrapModule entry id = moduleText slot (scriptString id))) ∧
    ∀ map styles options version, ∃ front back, ∀ entry,
      pageHtml map styles entry options version = front ++ bootstrapModule entry options.rootId ++ back := by
  refine ⟨⟨entrySlot entry rootId,bootstrapModule_eq entry rootId,isString_scriptString rootId,?_,fun h id => ?_⟩,
    fun map styles options version => ?_⟩
  · refine ⟨fun h hin => not_isString_entrySlot hin rootId h,fun h => ?_⟩
    rw [entrySlot_of_markless h]
    exact isString_scriptString entry
  · rw [bootstrapModule_eq,entrySlot_of_markless h,entrySlot_of_markless h]
  · exact ⟨_,_,fun entry => String.append_assoc⟩

/-- The string of the root is put into the one of the entry, which ends there. -/
theorem entry_torn_by_root :
    bootstrapModule "/__LIVEPREVIEW_ROOT__.jsx" "root" = moduleText "\"/\"root\".jsx\"" (scriptString "root") ∧
    ¬ ∃ slot, bootstrapModule "/__LIVEPREVIEW_ROOT__.jsx" "root" = moduleText slot (scriptString "root") ∧
      IsString slot "/__LIVEPREVIEW_ROOT__.jsx" := by
  have hmark : rootMark.toList <:+: "/__LIVEPREVIEW_ROOT__.jsx".toList := by decide +kernel
  have hslot : entrySlot "/__LIVEPREVIEW_ROOT__.jsx" "root" = "\"/\"root\".jsx\"" := by decide +kernel
  refine ⟨hslot ▸ bootstrapModule_eq _ _,?_⟩
  rintro ⟨slot,hmodule,hstring⟩
  obtain rfl := moduleText_inj ((bootstrapModule_eq _ _).symm.trans hmodule)
  exact not_isString_entrySlot hmark "root" hstring

end PreviewDocument

end PreviewCompiler
