import Mathlib.Data.List.Infix
import PreviewCompiler.Preview.Document
import PreviewCompiler.Proofs.Json.Reading
import PreviewCompiler.Proofs.Preview.Markup
import PreviewCompiler.Proofs.Text.Digits
import PreviewCompiler.Proofs.Text.Replace

namespace PreviewCompiler

open Data

namespace Text

variable {pattern replacement : List Char} {c : Char}

/-- One character is replaced wherever it stands. -/
theorem replaceFrom_singleton (c : Char) (replacement cs : List Char) :
    replaceFrom [c] replacement 0 cs = cs.flatMap fun d => if d = c then replacement else [d] := by
  induction cs with
  | nil => rfl
  | cons d cs ih =>
    rw [replaceFrom,List.flatMap_cons,← ih]
    by_cases h : d = c
    · subst h
      rw [if_pos rfl,if_pos (by simp [List.isPrefixOf])]
      rfl
    · rw [if_neg h,if_neg (by simp [List.isPrefixOf,Ne.symm h])]
      rfl

/-- What stands in a text with replacements stood there before or is from a replacement. -/
theorem mem_replaceFrom {skip : Nat} {cs : List Char} (h : c ∈ replaceFrom pattern replacement skip cs) :
    c ∈ replacement ∨ c ∈ cs := by
  induction cs generalizing skip with
  | nil => exact .inr h
  | cons d cs ih =>
    cases skip with
    | succ skip => exact (ih h).imp_right (List.mem_cons_of_mem d)
    | zero =>
      rw [replaceFrom] at h
      split at h
      · exact (List.mem_append.1 h).elim .inl fun h => (ih h).imp_right (List.mem_cons_of_mem d)
      · rcases List.mem_cons.1 h with rfl | h
        · exact .inr List.mem_cons_self
        · exact (ih h).imp_right (List.mem_cons_of_mem d)

end Text

namespace PreviewDocument

section Characters

variable {c : Char} {s t : String} {l : List Char}

theorem not_mem_ofList (h : c ∉ l) : c ∉ (String.ofList l).toList := by rwa [String.toList_ofList]

theorem not_mem_append (hs : c ∉ s.toList) (ht : c ∉ t.toList) : c ∉ (s ++ t).toList := by
  rw [String.toList_append,List.mem_append,not_or]
  exact ⟨hs,ht⟩

end Characters

/-- A character of JSON for a script element. -/
def escapeScriptChar (c : Char) : List Char := if c = '<' then "\\u003c".toList else [c]

theorem toList_escapeScript (json : String) : (escapeScript json).toList = json.toList.flatMap escapeScriptChar := by
  rw [escapeScript,Text.replace,String.toList_ofList]
  exact Text.replaceFrom_singleton '<' _ _

theorem escapeScriptChar_eq_self {c : Char} (h : c ≠ '<') : escapeScriptChar c = [c] := if_neg h

theorem not_mem_escapeScript (json : String) : '<' ∉ (escapeScript json).toList := by
  rw [toList_escapeScript]
  intro h
  obtain ⟨c,-,hc⟩ := List.mem_flatMap.1 h
  unfold escapeScriptChar at hc
  split at hc
  · exact absurd hc (by decide)
  · rename_i hne
    exact hne (List.mem_singleton.1 hc).symm

theorem not_mem_scriptString (s : String) : '<' ∉ (scriptString s).toList := not_mem_escapeScript _

section Literals

set_option maxRecDepth 20000

theorem not_mem_replace {pattern replacement text : String} (hreplacement : '<' ∉ replacement.toList)
    (htext : '<' ∉ text.toList) : '<' ∉ (Text.replace pattern replacement text).toList := by
  rw [Text.replace,String.toList_ofList]
  exact fun h => (Text.mem_replaceFrom h).elim hreplacement htext

theorem not_mem_relayScript (version : Nat) : '<' ∉ (relayScript version).toList := by
  have hdigits : '<' ∉ (toString version).toList := fun h =>
    absurd (Text.isDigit_of_mem_toString h) (by decide)
  have htemplate : '<' ∉ relayTemplate.toList :=
    not_mem_append (not_mem_append (not_mem_ofList (by decide +kernel)) (by decide)) (not_mem_ofList (by decide +kernel))
  exact not_mem_replace hdigits htemplate

theorem not_mem_bootstrapModule (entry rootId : String) : '<' ∉ (bootstrapModule entry rootId).toList := by
  have hhead : '<' ∉ bootstrapHead.toList :=
    not_mem_append (not_mem_append (not_mem_ofList (by decide +kernel)) (not_mem_ofList (by decide +kernel)))
      (not_mem_ofList (by decide +kernel))
  have hmiddle : '<' ∉ bootstrapMiddle.toList := not_mem_ofList (by decide +kernel)
  have htail : '<' ∉ bootstrapTail.toList := not_mem_ofList (by decide +kernel)
  have htemplate : '<' ∉ bootstrapTemplate.toList :=
    not_mem_append (not_mem_append (not_mem_append (not_mem_append hhead (by decide)) hmiddle) (by decide)) htail
  exact not_mem_replace (not_mem_scriptString rootId) (not_mem_replace (not_mem_scriptString entry) htemplate)

end Literals

/-- A character of a string of JSON for a script element. -/
def writeScriptChar (c : Char) : List Char := (Json.escapeChar c).flatMap escapeScriptChar

theorem not_mem_escapeChar {c : Char} (h : c ≠ '<') : '<' ∉ Json.escapeChar c := by
  have hdigit : ∀ n, n < 16 → Json.hexDigit n ≠ '<' := by decide
  unfold Json.escapeChar
  split_ifs with _ _ _ _ _ _ _ hcontrol
  rotate_left 7
  · have hlt : c.toNat < 32 := hcontrol
    have hhigh := hdigit (c.toNat / 16) (by omega)
    have hlow := hdigit (c.toNat % 16) (by omega)
    simp [hhigh.symm,hlow.symm]
  · exact fun hm => h (List.mem_singleton.1 hm).symm
  all_goals decide

theorem flatMap_escapeScriptChar {cs : List Char} (h : '<' ∉ cs) : cs.flatMap escapeScriptChar = cs := by
  induction cs with
  | nil => rfl
  | cons c cs ih =>
    rw [List.mem_cons,not_or] at h
    rw [List.flatMap_cons,escapeScriptChar_eq_self (Ne.symm h.1),ih h.2]
    rfl

/-- The escapes of a script do not change what a string of JSON is read as. -/
theorem spells_writeScriptChar (c : Char) : Json.Read.Spells (writeScriptChar c) c := by
  by_cases h : c = '<'
  · subst h
    have hzero : Json.Read.hexValue? '0' = some 0 := rfl
    have hthree : Json.Read.hexValue? '3' = some 3 := rfl
    have hc : Json.Read.hexValue? 'c' = some 12 := rfl
    exact Json.Read.spells_unicode hzero hzero hthree hc rfl (by decide)
  · rw [writeScriptChar,flatMap_escapeScriptChar (not_mem_escapeChar h)]
    exact Json.Read.spells_escapeChar c

/-- What is written of JSON in a script element. -/
def scriptText (v : Json) : List Char := v.compact.toList.flatMap escapeScriptChar

/-- A string is written character by character between its quotes. -/
theorem scriptText_string (s : String) :
    scriptText (.string s) = '"' :: (s.toList.flatMap writeScriptChar ++ ['"']) := by
  rw [scriptText,Json.compact,Json.toList_quote,List.flatMap_cons,List.flatMap_append,List.flatMap_assoc]
  rfl

open Json.Read in
theorem reads_string_scriptText (s : String) (depth : Nat) (rest : List Char) :
    Reads (value depth) (scriptText (.string s)) rest (.string s) := by
  rw [scriptText_string]
  cases depth <;> exact reads_value_string spells_writeScriptChar _ s rest

open Json.Read in
theorem reads_object_scriptText {fs : List (String × Json)} {depth : Nat}
    (h : ∀ f ∈ fs, ∀ rest, Reads (value depth) (scriptText f.2) rest f.2) (rest : List Char) :
    Reads (value (depth + 1)) (scriptText (.object fs)) rest (.object fs) := by
  have htext : scriptText (.object fs) = '{' :: (fieldsText [] writeScriptChar scriptText true fs ++ ['}']) := by
    rw [scriptText,Json.toList_compact_object,List.flatMap_cons,List.flatMap_append,
      flatMap_fieldsText rfl rfl rfl]
    rfl
  rw [htext]
  exact reads_value_object spells_writeScriptChar (fun f hf rest _ => h f hf rest) rest

/-- The import map in a page is read back. -/
theorem parse_escapeScript_toJson (map : ImportMap) :
    Json.parse (escapeScript map.toJson.compact) = .ok map.toJson := by
  rw [Json.parse]
  refine Json.Read.runAll_of_reads ?_
  rw [toList_escapeScript]
  refine reads_object_scriptText (fun f hf rest => ?_) []
  obtain rfl := List.mem_singleton.1 hf
  refine reads_object_scriptText (fun f hf rest => ?_) rest
  obtain ⟨e,-,rfl⟩ := List.mem_map.1 hf
  exact reads_string_scriptText _ _ rest

theorem not_mem_escapeMarkup (s : String) : ∀ c ∈ ['<','>','"','\''], c ∉ (escapeMarkup s).toList := by
  intro c hc h
  rw [escapeMarkup,String.toList_ofList,List.mem_flatMap] at h
  obtain ⟨d,-,hd⟩ := h
  simp only [List.mem_cons,List.not_mem_nil,or_false] at hc
  unfold escapeMarkupChar at hd
  split_ifs at hd with h₁ h₂ h₃ h₄ h₅
  case neg =>
    obtain rfl := List.mem_singleton.1 hd
    exact hc.elim h₂ fun hc => hc.elim h₃ fun hc => hc.elim h₄ h₅
  all_goals rcases hc with rfl | rfl | rfl | rfl <;> exact absurd hd (by decide)

theorem decodeFrom_escapeMarkupChar (c : Char) (cs : List Char) :
    Markup.decodeFrom 0 (escapeMarkupChar c ++ cs) = c :: Markup.decodeFrom 0 cs := by
  unfold escapeMarkupChar
  split_ifs with h
  case neg =>
    have hnone : (Markup.references.find? fun e => e.1.toList.isPrefixOf (c :: cs)) = none := by
      refine List.find?_eq_none.2 fun e he hfront => ?_
      obtain ⟨rest,hrest⟩ := List.isPrefixOf_iff_prefix.1 hfront
      have hfirst : ∀ e ∈ Markup.references, e.1.toList.head? = some '&' := by decide
      have hhead := hfirst e he
      cases hcs : e.1.toList with
      | nil =>
        rw [hcs] at hhead
        contradiction
      | cons d ds =>
        rw [hcs] at hhead hrest
        exact h ((List.cons.inj hrest).1.symm.trans (Option.some.inj hhead))
    rw [List.singleton_append,Markup.decodeFrom,hnone]
  all_goals
    subst c
    rfl

/-- A title or an attribute means what it was before it was escaped. -/
theorem decode_escapeMarkup (s : String) : Markup.decode (escapeMarkup s) = s := by
  have hchars : ∀ cs : List Char, Markup.decodeFrom 0 (cs.flatMap escapeMarkupChar) = cs := by
    intro cs
    induction cs with
    | nil => rfl
    | cons c cs ih => rw [List.flatMap_cons,decodeFrom_escapeMarkupChar,ih]
  rw [Markup.decode,escapeMarkup,String.toList_ofList,hchars,String.ofList_toList]

theorem closesStyle_iff {cs : List Char} : closesStyle cs = true ↔ Markup.Ends "style".toList cs := beq_iff_eq

/-- What starts the escaped styles without a less-than sign starts the styles. -/
theorem take_of_take_escapeStyleChars {pattern cs : List Char} (hp : '<' ∉ pattern)
    (h : ((escapeStyleChars cs).take pattern.length).map Char.toLower = pattern) :
    (cs.take pattern.length).map Char.toLower = pattern := by
  induction pattern generalizing cs with
  | nil => rfl
  | cons p pattern ih =>
    rw [List.mem_cons,not_or] at hp
    cases cs with
    | nil => contradiction
    | cons c cs =>
      unfold escapeStyleChars at h
      split at h
      · rename_i hcloses
        have hc : c.toLower = '<' := (List.cons.inj (closesStyle_iff.1 hcloses)).1
        exact absurd (hc.symm.trans (List.cons.inj h).1) hp.1
      · obtain ⟨hc,hrest⟩ := List.cons.inj h
        exact congrArg₂ List.cons hc (ih hp.2 hrest)

/-- Nothing in escaped styles ends a style element. -/
theorem isFree_escapeStyleChars (cs : List Char) : Markup.IsFree "style".toList (escapeStyleChars cs) := by
  induction cs with
  | nil =>
    intro cs hcs h
    obtain rfl := List.suffix_nil.1 hcs
    contradiction
  | cons c cs ih =>
    unfold escapeStyleChars
    split
    · intro cs' hcs h
      rcases List.suffix_cons_iff.1 hcs with rfl | hcs
      · exact absurd (List.cons.inj (List.cons.inj h).2).1 (by decide)
      · rcases List.suffix_cons_iff.1 hcs with rfl | hcs
        · exact absurd (List.cons.inj h).1 (by decide)
        · exact ih cs' hcs h
    · rename_i hcloses
      intro cs' hcs h
      rcases List.suffix_cons_iff.1 hcs with rfl | hcs
      · obtain ⟨hc,hrest⟩ := List.cons.inj h
        refine hcloses (closesStyle_iff.2 (congrArg₂ List.cons hc ?_))
        have hmark : '<' ∉ "/style".toList := by decide
        exact take_of_take_escapeStyleChars hmark hrest
      · exact ih cs' hcs h

end PreviewDocument

end PreviewCompiler
