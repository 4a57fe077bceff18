import PreviewCompiler.Json.Decoder
import PreviewCompiler.Proofs.Json.Reading

namespace PreviewCompiler.Json

namespace Read

variable {α : Type} {rest gap close : List Char} {c : Char} {s : String} {n depth : Nat}

theorem reads_peek_head (rest : List Char) : Reads peek? [] rest rest.head? := fun place => ⟨place,rfl⟩

theorem reads_digit (hc : c.isDigit = true) (rest : List Char) :
    Reads digit? [] (c :: rest) (some (c.toNat - '0'.toNat)) := by
  refine (reads_peek c rest).bind_nil ?_
  rw [Option.bind_some,if_pos hc]
  exact reads_pure _ _

theorem reads_no_digit (h : EndsNumber rest) : Reads digit? [] rest none := by
  refine (reads_peek_head rest).bind_nil ?_
  cases rest with
  | nil => exact reads_pure _ _
  | cons c rest =>
    have hc := (h c rfl).1
    rw [List.head?_cons,Option.bind_some,if_neg (by simp [hc])]
    exact reads_pure _ _

theorem le_ofDigitChars (cs : List Char) (n : Nat) : n ≤ Nat.ofDigitChars 10 cs n := by
  induction cs generalizing n with
  | nil => exact Nat.le_refl n
  | cons c cs ih =>
    rw [Nat.ofDigitChars_cons]
    exact Nat.le_trans (by omega) (ih _)

/-- Digits are taken as long as the number stays below the bound. -/
theorem reads_boundedDigits {ds : List Char} (hds : ∀ c ∈ ds, c.isDigit = true) (hr : EndsNumber rest)
    {fuel s taken : Nat} (hfuel : ds.length ≤ fuel) (hbound : Nat.ofDigitChars 10 ds s < naturalBound) :
    Reads (boundedDigits fuel s taken) ds rest (Nat.ofDigitChars 10 ds s,taken + ds.length,false) := by
  induction ds generalizing fuel s taken with
  | nil =>
    cases fuel with
    | zero => exact reads_pure _ _
    | succ fuel => exact (reads_no_digit hr).nil_bind (reads_pure _ _)
  | cons c ds ih =>
    obtain ⟨fuel,rfl⟩ := Nat.exists_eq_succ_of_ne_zero (Nat.ne_of_gt (Nat.zero_lt_of_lt hfuel))
    obtain ⟨hc,hds⟩ := List.forall_mem_cons.1 hds
    rw [Nat.ofDigitChars_cons] at hbound ⊢
    have hsmall : ¬naturalBound ≤ 10 * s + (c.toNat - '0'.toNat) :=
      Nat.not_le.2 (Nat.lt_of_le_of_lt (le_ofDigitChars ds _) hbound)
    refine (reads_digit hc _).nil_bind ?_
    simp only [if_neg hsmall]
    have hlength : taken + (c :: ds).length = taken + 1 + ds.length := by
      rw [List.length_cons]
      omega
    rw [hlength]
    exact (reads_skip c _).bind (ih hds (Nat.le_of_succ_le_succ hfuel) hbound)

theorem reads_afterWhole (hr : EndsNumber rest) (n : Nat) : Reads (afterWhole false n) [] rest (.natural n) := by
  refine (reads_peek_head rest).nil_bind ?_
  split
  · rename_i h
    exact absurd rfl (hr _ h).2.1
  · rename_i h
    exact absurd rfl (hr _ h).2.2.1
  · rename_i h
    exact absurd rfl (hr _ h).2.2.2
  · exact reads_pure _ _

theorem head_toDigits_ne_zero (hn : n ≠ 0) : (Nat.toDigits 10 n).head? ≠ some '0' := by
  induction n using Nat.strongRecOn with
  | ind n ih =>
    rw [Nat.toDigits_eq_if (by decide)]
    split
    · rename_i hlt
      have hdigit : ∀ m < 10, m ≠ 0 → m.digitChar ≠ '0' := by decide
      simpa using hdigit n hlt hn
    · rename_i hge
      have hfront := ih (n / 10) (by omega) (by omega)
      rw [List.head?_append_of_ne_nil _ Nat.toDigits_ne_nil]
      exact hfront

theorem reads_unsigned_zero (hr : EndsNumber rest) : Reads (unsigned false) ['0'] rest (.natural 0) := by
  refine (reads_next '0' rest).bind_nil ((reads_no_digit hr).nil_bind ?_)
  exact reads_afterWhole hr 0

theorem reads_unsigned {ds : List Char} (hc : c.isDigit = true) (hzero : c ≠ '0') (hds : ∀ d ∈ ds, d.isDigit = true)
    (hr : EndsNumber rest) (hbound : Nat.ofDigitChars 10 ds (c.toNat - '0'.toNat) < naturalBound) :
    Reads (unsigned false) (c :: ds) rest (.natural (Nat.ofDigitChars 10 ds (c.toNat - '0'.toNat))) := by
  refine (reads_next c _).bind ?_
  split
  · contradiction
  · rename_i heq
    exact absurd (Option.some.inj heq) hzero
  · rename_i heq
    obtain rfl := Option.some.inj heq
    rw [if_pos hc]
    refine reads_get fun place => ?_
    have hfuel : ds.length ≤ (ds ++ rest).length := by simp
    exact (reads_boundedDigits hds hr hfuel hbound).bind_nil (reads_afterWhole hr _)

/-- The digits of a number. -/
theorem toString_eq_cons (n : Nat) : ∃ c ds, (toString n).toList = c :: ds ∧ c.isDigit = true ∧
    (∀ d ∈ ds, d.isDigit = true) ∧ (n ≠ 0 → c ≠ '0') ∧ Nat.ofDigitChars 10 ds (c.toNat - '0'.toNat) = n := by
  have htext : (toString n).toList = Nat.toDigits 10 n := by simp
  obtain ⟨c,ds,hdigits⟩ := List.exists_cons_of_ne_nil (Nat.toDigits_ne_nil (n := n) (b := 10))
  have hall : ∀ d ∈ c :: ds, d.isDigit = true := fun d hd =>
    Nat.isDigit_of_mem_toDigits (by decide) (by decide) (hdigits ▸ hd)
  obtain ⟨hc,hds⟩ := List.forall_mem_cons.1 hall
  have hvalue := Nat.ofDigitChars_toDigits (b := 10) (n := n) (by decide) (by decide)
  rw [hdigits,Nat.ofDigitChars_cons,Nat.mul_zero,Nat.zero_add] at hvalue
  refine ⟨c,ds,htext.trans hdigits,hc,hds,fun hn hzero => ?_,hvalue⟩
  exact head_toDigits_ne_zero hn (by rw [hdigits,hzero,List.head?_cons])

theorem reads_number (hn : n < naturalBound) (hr : EndsNumber rest) :
    Reads number (toString n).toList rest (.natural n) := by
  obtain ⟨c,ds,htext,hc,hds,hzero,hvalue⟩ := toString_eq_cons n
  have hsign : (some c == some '-') = false := by
    refine beq_eq_false_iff_ne.2 fun heq => ?_
    rw [Option.some.inj heq] at hc
    contradiction
  have hunsigned : Reads (unsigned false) (toString n).toList rest (.natural n) := by
    by_cases h : n = 0
    · subst h
      exact reads_unsigned_zero hr
    · rw [htext,← hvalue]
      exact reads_unsigned hc (hzero h) hds hr (hvalue ▸ hn)
  rw [htext] at hunsigned ⊢
  refine (reads_peek c _).nil_bind ?_
  rw [hsign]
  exact hunsigned

/-- A value of strings and numbers that 64 bits hold, at most so many objects deep. -/
inductive IsPlain : Nat → Json → Prop where
  | null {depth : Nat} : IsPlain depth .null
  | natural {depth n : Nat} (bound : n < naturalBound) : IsPlain depth (.ofNat n)
  | string {depth : Nat} (s : String) : IsPlain depth (.string s)
  | object {depth : Nat} {fs : List (String × Json)} (fields : ∀ f ∈ fs, IsPlain depth f.2) :
    IsPlain (depth + 1) (.object fs)

theorem reads_wordRest (cs rest : List Char) : Reads (wordRest cs) cs rest () := by
  induction cs with
  | nil => exact reads_pure () rest
  | cons c cs ih =>
    refine (reads_next c _).bind ?_
    simp only [if_true]
    exact ih

theorem reads_value_null (inner? : Option (Read Json)) (rest : List Char) :
    Reads (valueWith inner?) "null".toList rest .null := by
  refine (reads_ahead (c := 'n') rfl).nil_bind ?_
  exact ((reads_skip 'n' _).bind (reads_wordRest ['u','l','l'] rest)).map fun _ => Json.null

theorem reads_value_natural (inner? : Option (Read Json)) (hn : n < naturalBound) (hr : EndsNumber rest) :
    Reads (valueWith inner?) (toString n).toList rest (.ofNat n) := by
  obtain ⟨c,ds,htext,hc,-⟩ := toString_eq_cons n
  have hmark : ∀ d, d.isDigit = false → c ≠ d := fun d hd heq => Bool.false_ne_true (hd.symm.trans (heq ▸ hc))
  have hblank : isBlank c = false := by simp [isBlank,hmark]
  have hnumber := reads_number hn hr
  rw [htext] at hnumber ⊢
  refine (reads_ahead hblank).nil_bind ?_
  split
  case h_1 => contradiction
  case h_8 d _ _ _ _ _ _ heq =>
    obtain rfl := Option.some.inj heq
    rw [if_pos (by simp [hc])]
    exact hnumber.map Json.number
  all_goals
    rename_i heq
    exact absurd (Option.some.inj heq) (hmark _ (by decide))

theorem IsPlain.reads {v : Json} (h : IsPlain depth v) (hr : EndsNumber rest) :
    Reads (value depth) v.compact.toList rest v := by
  induction h generalizing rest with
  | @null depth => cases depth <;> exact reads_value_null _ rest
  | @natural depth n bound => cases depth <;> exact reads_value_natural _ bound hr
  | @string depth s =>
    rw [compact,toList_quote]
    cases depth <;> exact reads_value_string spells_escapeChar _ s rest
  | object fields ih =>
    rw [toList_compact_object]
    exact reads_value_object spells_escapeChar (fun f hf rest hrest => ih f hf hrest) rest

theorem reads_stringWith {expected : String} {check : String → Except Cause α} {a : α} (hgap : IsGap gap)
    (hcheck : check s = .ok a) (rest : List Char) :
    Reads (stringWith expected check) (gap ++ '"' :: (s.toList.flatMap escapeChar ++ ['"'])) rest a := by
  refine (reads_ahead_of_gap (c := '"') hgap rfl).bind ?_
  rw [if_pos (by decide)]
  refine (reads_skip '"' _).bind ((reads_stringBody spells_escapeChar s rest).bind_nil ?_)
  rw [hcheck]
  exact reads_pure a rest

theorem reads_string (hgap : IsGap gap) (s : String) (rest : List Char) :
    Reads string (gap ++ '"' :: (s.toList.flatMap escapeChar ++ ['"'])) rest s := reads_stringWith hgap rfl rest

/-- A map of strings is read back, whatever blanks stand in front of it, of its names and values, and of its end. -/
theorem reads_map_string {front value : List Char} (hfront : IsGap front) (hgap : IsGap gap) (hvalue : IsGap value)
    (hclose : IsGap close) (fs : List (String × String)) (rest : List Char) :
    Reads (map string) (front ++ '{' :: (fieldsText gap escapeChar
      (fun s => value ++ '"' :: (s.toList.flatMap escapeChar ++ ['"'])) true fs ++ close ++ ['}'])) rest fs := by
  refine (reads_ahead_of_gap (c := '{') hfront rfl).bind ?_
  rw [if_pos (by decide)]
  exact reads_objectBody hgap hclose spells_escapeChar (fun f _ rest _ => reads_string hvalue f.2 rest) rest

/-- A record of one field is read back from what is written of it. -/
theorem reads_recordFields_singleton {σ : Type} {f : Field σ} {start s : σ} {text : α → List Char} {a : α}
    (hgap : IsGap gap) (hclose : IsGap close) (hread : ∀ rest, Reads (f.read start) (text a) rest s) (hn : 1 < n)
    (rest : List Char) : Reads (recordFields [f] n true [] start)
      (fieldsText gap escapeChar text true [(f.name,a)] ++ close) ('}' :: rest) s := by
  obtain ⟨n,rfl⟩ := Nat.exists_eq_add_of_le' hn
  have hend : Reads (recordFields [f] (n + 1) false [f.name] s) close ('}' :: rest) s :=
    (reads_moreFields_end hclose false rest).bind_nil (reads_pure s _)
  rw [fieldsText_cons]
  refine (reads_moreFields hgap true _).bind ((reads_skip '"' _).bind ?_)
  refine (reads_stringBody spells_escapeChar f.name _).bind ?_
  have hfind : [f].find? (·.name == f.name) = some f := by simp
  rw [hfind]
  refine (reads_colon _).bind ((hread _).bind ?_)
  exact hend

section

variable {tagName kind : String} {fs : List (String × Json)} {isFirst : Bool}

/-- The fields behind the tag are read as they are. -/
theorem reads_taggedFields (tag : Read α) (found : Option α) (hkeys : ∀ f ∈ fs, f.1 ≠ tagName)
    (hplain : ∀ f ∈ fs, IsPlain (depthLimit - 1) f.2) (hn : fs.length < n) (rest : List Char) :
    Reads (taggedFields tagName tag n isFirst found)
      (fieldsText [] escapeChar (fun v => v.compact.toList) isFirst fs ++ []) ('}' :: rest) (found,fs) := by
  induction fs generalizing isFirst n with
  | nil =>
    obtain ⟨n,rfl⟩ := Nat.exists_eq_succ_of_ne_zero (Nat.ne_of_gt hn)
    exact (reads_moreFields_end isGap_nil isFirst rest).bind_nil (reads_pure _ _)
  | cons f fs ih =>
    obtain ⟨n,rfl⟩ := Nat.exists_eq_succ_of_ne_zero (Nat.ne_of_gt (Nat.zero_lt_of_lt hn))
    obtain ⟨hkey,hkeys⟩ := List.forall_mem_cons.1 hkeys
    obtain ⟨hvalue,hplain⟩ := List.forall_mem_cons.1 hplain
    have hrest : Reads (taggedFields tagName tag n false found) _ ('}' :: rest) (found,fs) :=
      ih hkeys hplain (Nat.lt_of_succ_lt_succ hn)
    rw [fieldsText_cons]
    refine (reads_moreFields isGap_nil isFirst _).bind ((reads_skip '"' _).bind ?_)
    refine (reads_stringBody spells_escapeChar f.1 _).bind ?_
    rw [if_neg (by simpa using hkey)]
    refine (reads_colon _).bind ((hvalue.reads ?_).bind (hrest.bind_nil (reads_pure _ _)))
    exact endsNumber_fieldsText isGap_nil fs rest

/-- A value with its kind in its first field is read back as this kind with the other fields. -/
theorem reads_tagged {choices : List (String × α)} {a : α} (hchoice : choices.lookup kind = some a)
    (hkeys : ∀ f ∈ fs, f.1 ≠ tagName) (hplain : ∀ f ∈ fs, IsPlain (depthLimit - 1) f.2) (name : String)
    (rest : List Char) : Reads (tagged name tagName choices) (compact (.object ((tagName,.string kind) :: fs))).toList
      rest (a,.object fs) := by
  have hkind : choice choices kind = .ok a := by rw [choice,hchoice]
  have hfields (n : Nat) (hn : fs.length < n) :
      Reads (taggedFields tagName (stringWith "variant identifier" (choice choices)) (n + 1) true none)
        (fieldsText [] escapeChar (fun v => v.compact.toList) true ((tagName,.string kind) :: fs) ++ []) ('}' :: rest)
        (some a,fs) := by
    rw [fieldsText_cons]
    refine (reads_moreFields isGap_nil true _).bind ((reads_skip '"' _).bind ?_)
    refine (reads_stringBody spells_escapeChar tagName _).bind ?_
    rw [if_pos (by simp),compact,toList_quote]
    refine (reads_colon _).bind ?_
    exact (reads_stringWith isGap_nil hkind _).bind (reads_taggedFields _ _ hkeys hplain hn rest)
  rw [toList_compact_object]
  simp only [List.append_nil] at hfields
  refine (reads_ahead (c := '{') rfl).nil_bind ?_
  refine reads_braces fun k hk => (hfields _ ?_).bind_nil (reads_pure _ _)
  have hlength := length_le_fieldsText [] escapeChar (fun v => v.compact.toList) true ((tagName,.string kind) :: fs)
  rw [List.length_cons] at hlength
  omega

end

end Read

/-- A new line at a depth. -/
def newLine (depth : Nat) : List Char := '\n' :: (margin depth).toList

theorem toList_margin (depth : Nat) : (margin depth).toList = List.replicate (2 * depth) ' ' := by
  have hspaces : ∀ n, ("".pushn ' ' n).toList = List.replicate n ' ' := by
    intro n
    induction n with
    | zero => rfl
    | succ n ih =>
      have hpush : "".pushn ' ' (n + 1) = ("".pushn ' ' n).push ' ' := rfl
      rw [hpush,String.toList_push,ih,List.replicate_succ']
  exact hspaces _

theorem isGap_newLine (depth : Nat) : Read.IsGap (newLine depth) := by
  rw [newLine,toList_margin]
  refine List.forall_mem_cons.2 ⟨rfl,fun c hc => ?_⟩
  rw [List.eq_of_mem_replicate hc]
  rfl

/-- What is written of an object on lines of its own. -/
theorem toList_prettyAt_object (depth : Nat) {fs : List (String × Json)} (hne : fs ≠ []) :
    (prettyAt depth (.object fs)).toList = '{' :: (Read.fieldsText (newLine (depth + 1)) escapeChar
      (fun v => ' ' :: (prettyAt (depth + 1) v).toList) true fs ++ newLine depth ++ ['}']) := by
  have hfields (d : Nat) (fs : List (String × Json)) (hne : fs ≠ []) :
      '\n' :: (",\n".intercalate ((prettyFields d fs).map (margin d ++ ·))).toList =
        Read.fieldsText (newLine d) escapeChar (fun v => ' ' :: (prettyAt d v).toList) true fs := by
    induction fs with
    | nil => contradiction
    | cons f fs ih =>
      cases fs with
      | nil => simp [prettyFields,toList_quote,Read.fieldsText,Read.fieldText,newLine]
      | cons f' fs =>
        have hcons : prettyFields d (f :: f' :: fs) =
          (quote f.1 ++ ": " ++ prettyAt d f.2) :: (quote f'.1 ++ ": " ++ prettyAt d f'.2) :: prettyFields d fs := rfl
        have hcomma : Read.fieldsText (newLine d) escapeChar (fun v => ' ' :: (prettyAt d v).toList) false (f' :: fs) =
          ',' :: Read.fieldsText (newLine d) escapeChar (fun v => ' ' :: (prettyAt d v).toList) true (f' :: fs) := rfl
        rw [hcons,List.map_cons,List.map_cons,String.intercalate_cons_cons,String.toList_append,Read.fieldsText,hcomma,
          ← ih (List.cons_ne_nil _ _)]
        simp [prettyFields,toList_quote,Read.fieldText,newLine]
  have hitems : (prettyFields (depth + 1) fs).isEmpty = false := by
    cases fs with
    | nil => contradiction
    | cons f fs => rfl
  rw [prettyAt,layOut,hitems,if_neg Bool.false_ne_true,← hfields _ _ hne]
  simp [newLine]

end PreviewCompiler.Json
