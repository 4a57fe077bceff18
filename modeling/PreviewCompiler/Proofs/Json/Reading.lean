import Mathlib.Tactic.SplitIfs
import PreviewCompiler.Json.Printer
import PreviewCompiler.Json.Reader
import PreviewCompiler.Proofs.Data.List

namespace PreviewCompiler.Json

namespace Read

variable {α β : Type} {text text' rest : List Char} {a : α} {b : β} {r : Read α} {c : Char} {s : String}

/-- Does a reader read `text` and leave `rest`, wherever it stands? -/
def Reads (r : Read α) (text rest : List Char) (a : α) : Prop :=
  ∀ place, ∃ place', r ⟨text ++ rest,place⟩ = .ok a ⟨rest,place'⟩

theorem reads_pure (a : α) (rest : List Char) : Reads (pure a) [] rest a := fun place => ⟨place,rfl⟩

theorem Reads.bind {f : α → Read β} (h : Reads r text (text' ++ rest) a) (hf : Reads (f a) text' rest b) :
    Reads (r >>= f) (text ++ text') rest b := by
  intro place
  obtain ⟨mid,hmid⟩ := h place
  obtain ⟨place',hplace⟩ := hf mid
  refine ⟨place',?_⟩
  rw [List.append_assoc]
  change EStateM.bind r f _ = _
  rw [EStateM.bind,hmid]
  exact hplace

theorem Reads.bind_nil {f : α → Read β} (h : Reads r text rest a) (hf : Reads (f a) [] rest b) :
    Reads (r >>= f) text rest b := by
  have hbind : Reads (r >>= f) (text ++ []) rest b := h.bind hf
  rwa [List.append_nil] at hbind

theorem Reads.nil_bind {f : α → Read β} (h : Reads r [] (text ++ rest) a) (hf : Reads (f a) text rest b) :
    Reads (r >>= f) text rest b := h.bind hf

theorem Reads.map (h : Reads r text rest a) (g : α → β) : Reads (do return g (← r)) text rest (g a) :=
  h.bind_nil (reads_pure (g a) rest)

/-- What is read depends on what is ahead only. -/
theorem reads_get {f : Cursor → Read α} (h : ∀ place, Reads (f ⟨text ++ rest,place⟩) text rest a) :
    Reads (get >>= f) text rest a := fun place => h place place

theorem reads_skip (c : Char) (rest : List Char) : Reads skip [c] rest () := fun place => ⟨step place c,rfl⟩

theorem reads_next (c : Char) (rest : List Char) : Reads next? [c] rest (some c) := fun place => ⟨step place c,rfl⟩

theorem reads_peek (c : Char) (rest : List Char) : Reads peek? [] (c :: rest) (some c) := fun place => ⟨place,rfl⟩

/-- Blanks, which may stand between the parts of a value. -/
def IsGap (gap : List Char) : Prop := ∀ c ∈ gap, isBlank c = true

theorem isGap_nil : IsGap [] := List.forall_mem_nil _

theorem reads_skipBlanks {gap : List Char} (hgap : IsGap gap) (hc : isBlank c = false) {n : Nat} (hn : gap.length < n) :
    Reads (skipBlanksUpTo n) gap (c :: rest) () := by
  induction gap generalizing n with
  | nil =>
    obtain ⟨n,rfl⟩ := Nat.exists_eq_succ_of_ne_zero (Nat.ne_of_gt hn)
    refine (reads_peek c rest).nil_bind ?_
    rw [Option.any_some,hc]
    exact reads_pure () _
  | cons b gap ih =>
    obtain ⟨n,rfl⟩ := Nat.exists_eq_succ_of_ne_zero (Nat.ne_of_gt (Nat.zero_lt_of_lt hn))
    obtain ⟨hb,hgap⟩ := List.forall_mem_cons.1 hgap
    refine (reads_peek b _).nil_bind ?_
    rw [Option.any_some,hb,if_pos rfl]
    exact (reads_skip b _).bind (ih hgap (Nat.lt_of_succ_lt_succ hn))

/-- The next character behind blanks is looked at. -/
theorem reads_ahead_of_gap {gap : List Char} (hgap : IsGap gap) (hc : isBlank c = false) :
    Reads ahead? gap (c :: rest) (some c) := by
  refine reads_get fun place => (reads_skipBlanks hgap hc ?_).bind_nil (reads_peek c rest)
  simp

theorem reads_ahead (hc : isBlank c = false) : Reads ahead? [] (c :: rest) (some c) := reads_ahead_of_gap isGap_nil hc

/-- Is a character read where a text stands in a string? -/
structure Spells (text : List Char) (c : Char) : Prop where
  ne_nil : text ≠ []
  reads : ∀ {n read text' rest s}, Reads (stringRest n (c :: read)) text' rest s →
    Reads (stringRest (n + 1) read) (text ++ text') rest s

theorem spells_self (hquote : c ≠ '"') (hslash : c ≠ '\\') (hcontrol : ¬ c < ' ') : Spells [c] c where
  ne_nil := List.cons_ne_nil _ _
  reads h := by
    refine (reads_next c _).bind ?_
    split
    · contradiction
    · simp_all
    · simp_all
    · rename_i heq
      obtain rfl := Option.some.inj heq
      rwa [if_neg hcontrol]

/-- A character is written with a backslash if it is what `escape` reads. -/
theorem spells_of_escape {cs : List Char} (h : ∀ rest, Reads escape cs rest c) : Spells ('\\' :: cs) c where
  ne_nil := List.cons_ne_nil _ _
  reads hrest := (reads_next '\\' _).bind ((h _).bind hrest)

theorem reads_skipAll (cs rest : List Char) : Reads (hexEscape.skipAll cs) cs rest () := by
  induction cs with
  | nil => exact reads_pure () rest
  | cons c cs ih => exact (reads_skip c _).bind ih

private theorem le_foldl_add (ns : List Nat) (n : Nat) : n ≤ ns.foldl (· + ·) n := by
  induction ns generalizing n with
  | nil => exact Nat.le_refl n
  | cons m ns ih => exact Nat.le_trans (Nat.le_add_right n m) (ih _)

theorem reads_hexEscape {d₀ d₁ d₂ d₃ : Char} {n₀ n₁ n₂ n₃ : Nat} (h₀ : hexValue? d₀ = some n₀)
    (h₁ : hexValue? d₁ = some n₁) (h₂ : hexValue? d₂ = some n₂) (h₃ : hexValue? d₃ = some n₃) (rest : List Char) :
    Reads hexEscape [d₀,d₁,d₂,d₃] rest (16 * (16 * (16 * n₀ + n₁) + n₂) + n₃) := by
  refine reads_get fun place => ?_
  have hbytes : ¬ (([d₀,d₁,d₂,d₃] ++ rest).map Char.utf8Size).foldl (· + ·) 0 < 4 := by
    have hle := le_foldl_add (rest.map Char.utf8Size)
      (0 + d₀.utf8Size + d₁.utf8Size + d₂.utf8Size + d₃.utf8Size)
    have hpos := fun c => Char.utf8Size_pos c
    have := hpos d₀
    have := hpos d₁
    have := hpos d₂
    have := hpos d₃
    simp only [List.cons_append,List.nil_append,List.map_cons,List.foldl_cons]
    omega
  have hdigits : (([d₀,d₁,d₂,d₃] ++ rest).take 4).mapM hexValue? = some [n₀,n₁,n₂,n₃] := by
    simp [h₀,h₁,h₂,h₃]
  simp only [if_neg hbytes,hdigits]
  have hnumber : [n₀,n₁,n₂,n₃].foldl (fun n d => 16 * n + d) 0 = 16 * (16 * (16 * n₀ + n₁) + n₂) + n₃ := by
    simp
  rw [← hnumber]
  exact (reads_skipAll [d₀,d₁,d₂,d₃] rest).bind_nil (reads_pure _ rest)

theorem reads_inString (c : Char) (rest : List Char) : Reads inString [c] rest c :=
  (reads_next c _).bind_nil (reads_pure c rest)

/-- A character below the halves of surrogate pairs is written by the four digits of its number. -/
theorem spells_unicode {d₀ d₁ d₂ d₃ : Char} {n₀ n₁ n₂ n₃ : Nat} (h₀ : hexValue? d₀ = some n₀)
    (h₁ : hexValue? d₁ = some n₁) (h₂ : hexValue? d₂ = some n₂) (h₃ : hexValue? d₃ = some n₃)
    (hc : c.toNat = 16 * (16 * (16 * n₀ + n₁) + n₂) + n₃) (hlow : c.toNat < 0xD800) :
    Spells ['\\','u',d₀,d₁,d₂,d₃] c := by
  refine spells_of_escape fun rest => (reads_inString 'u' _).bind ((reads_hexEscape h₀ h₁ h₂ h₃ _).bind_nil ?_)
  rw [← hc,if_neg (by omega),if_pos (.inl hlow),Char.ofNat_toNat]
  exact reads_pure c rest

theorem hexValue?_hexDigit {n : Nat} (h : n < 16) : hexValue? (hexDigit n) = some n :=
  (by decide : ∀ n < 16, hexValue? (hexDigit n) = some n) n h

/-- Every character is read back as it is written between quotes. -/
theorem spells_escapeChar (c : Char) : Spells (escapeChar c) c := by
  unfold escapeChar
  split_ifs with hquote hslash h₁ h₂ h₃ h₄ h₅ hcontrol
  rotate_left 7
  · have hlt : c.toNat < 32 := hcontrol
    have hhigh : c.toNat / 16 < 16 := by omega
    have hlow : c.toNat % 16 < 16 := by omega
    have hzero : hexValue? '0' = some 0 := rfl
    exact spells_unicode hzero hzero (hexValue?_hexDigit hhigh) (hexValue?_hexDigit hlow)
      (by omega) (by omega)
  · exact spells_self hquote hslash hcontrol
  all_goals
    subst c
    exact spells_of_escape fun rest => (reads_inString _ rest).bind_nil (reads_pure _ rest)

/-- A string behind its first quote is read back. -/
theorem reads_stringBody {esc : Char → List Char} (h : ∀ c, Spells (esc c) c) (s : String) (rest : List Char) :
    Reads stringBody (s.toList.flatMap esc ++ ['"']) rest s := by
  have hrest : ∀ cs n read, cs.length < n →
      Reads (stringRest n read) (cs.flatMap esc ++ ['"']) rest (String.ofList (read.reverse ++ cs)) := by
    intro cs
    induction cs with
    | nil =>
      intro n read hn
      obtain ⟨n,rfl⟩ := Nat.exists_eq_succ_of_ne_zero (Nat.ne_of_gt hn)
      rw [List.append_nil]
      exact (reads_next '"' _).bind_nil (reads_pure _ rest)
    | cons c cs ih =>
      intro n read hn
      obtain ⟨n,rfl⟩ := Nat.exists_eq_succ_of_ne_zero (Nat.ne_of_gt (Nat.zero_lt_of_lt hn))
      have ih := ih n (c :: read) (Nat.lt_of_succ_lt_succ hn)
      rw [List.reverse_cons,List.append_assoc,List.singleton_append] at ih
      rw [List.flatMap_cons,List.append_assoc]
      exact (h c).reads ih
  refine reads_get fun place => ?_
  have hlength := Data.length_le_length_flatMap (fun c => (h c).ne_nil) s.toList
  have hwhole := hrest s.toList ((s.toList.flatMap esc ++ ['"'] ++ rest).length + 1) []
    (by simp only [List.length_append]; omega)
  rwa [List.reverse_nil,List.nil_append,String.ofList_toList] at hwhole

/-- What cannot go on with a number, as nothing can that stands behind the value of a field. -/
def EndsNumber (rest : List Char) : Prop := ∀ c ∈ rest.head?, c.isDigit = false ∧ c ≠ '.' ∧ c ≠ 'e' ∧ c ≠ 'E'

theorem endsNumber_cons (h : c.isDigit = false ∧ c ≠ '.' ∧ c ≠ 'e' ∧ c ≠ 'E') (rest : List Char) :
    EndsNumber (c :: rest) := by
  rintro d hd
  obtain rfl := Option.some.inj hd
  exact h

theorem endsNumber_gap {gap : List Char} (hgap : IsGap gap) (rest : List Char) : EndsNumber (gap ++ '}' :: rest) := by
  cases gap with
  | nil => exact endsNumber_cons (by decide) rest
  | cons b gap =>
    refine endsNumber_cons ?_ _
    have hb := hgap b List.mem_cons_self
    simp only [isBlank,Bool.or_eq_true,beq_iff_eq] at hb
    rcases hb with ((rfl | rfl) | rfl) | rfl <;> decide

/-- What is written of a field. -/
def fieldText (esc : Char → List Char) (text : α → List Char) (f : String × α) : List Char :=
  '"' :: (f.1.toList.flatMap esc ++ '"' :: ':' :: text f.2)

/-- What is written of fields, each behind blanks; a comma stands in front of each but the first one. -/
def fieldsText (gap : List Char) (esc : Char → List Char) (text : α → List Char) (isFirst : Bool) :
    List (String × α) → List Char
  | [] => []
  | f :: fs => (if isFirst then [] else [',']) ++ gap ++ fieldText esc text f ++ fieldsText gap esc text false fs

/-- Each character of fields can be escaped, unless it is one of the marks between names and values. -/
theorem flatMap_fieldsText {g : Char → List Char} (hquote : g '"' = ['"']) (hcolon : g ':' = [':'])
    (hcomma : g ',' = [',']) (esc : Char → List Char) (text : α → List Char) (isFirst : Bool)
    (fs : List (String × α)) : (fieldsText [] esc text isFirst fs).flatMap g =
      fieldsText [] (fun c => (esc c).flatMap g) (fun a => (text a).flatMap g) isFirst fs := by
  induction fs generalizing isFirst with
  | nil => rfl
  | cons f fs ih =>
    cases isFirst <;> simp [fieldsText,fieldText,ih,List.flatMap_assoc,hquote,hcolon,hcomma]

theorem fieldsText_map {β : Type} (g : α → β) (gap : List Char) (esc : Char → List Char) (text : β → List Char)
    (isFirst : Bool) (fs : List (String × α)) : fieldsText gap esc text isFirst (fs.map fun f => (f.1,g f.2)) =
      fieldsText gap esc (fun a => text (g a)) isFirst fs := by
  induction fs generalizing isFirst with
  | nil => rfl
  | cons f fs ih => rw [List.map_cons,fieldsText,fieldsText,ih]; rfl

theorem length_le_fieldsText (gap : List Char) (esc : Char → List Char) (text : α → List Char) (isFirst : Bool)
    (fs : List (String × α)) : fs.length ≤ (fieldsText gap esc text isFirst fs).length := by
  induction fs generalizing isFirst with
  | nil => exact Nat.zero_le _
  | cons f fs ih =>
    have := ih false
    simp only [fieldsText,fieldText,List.length_append,List.length_cons]
    omega

section

variable {gap close : List Char} {esc : Char → List Char} {text : α → List Char} {f : String × α}
  {fs : List (String × α)} {isFirst : Bool} {n : Nat}

theorem endsNumber_fieldsText (hclose : IsGap close) (fs : List (String × α)) (rest : List Char) :
    EndsNumber (fieldsText gap esc text false fs ++ close ++ '}' :: rest) := by
  cases fs with
  | nil =>
    exact endsNumber_gap hclose rest
  | cons f fs => exact endsNumber_cons (by decide) _

theorem reads_moreFields_end (hclose : IsGap close) (isFirst : Bool) (rest : List Char) :
    Reads (moreFields isFirst) close ('}' :: rest) false := by
  refine (reads_ahead_of_gap hclose rfl).bind_nil ?_
  exact reads_pure false _

theorem reads_moreFields (hgap : IsGap gap) (isFirst : Bool) (rest : List Char) :
    Reads (moreFields isFirst) ((if isFirst then [] else [',']) ++ gap) ('"' :: rest) true := by
  cases isFirst with
  | true =>
    refine (reads_ahead_of_gap hgap rfl).bind_nil ?_
    exact reads_pure true _
  | false =>
    refine (reads_ahead (c := ',') rfl).nil_bind ?_
    refine (reads_skip ',' _).bind ((reads_ahead_of_gap hgap rfl).bind_nil ?_)
    exact reads_pure true _

theorem reads_colon (rest : List Char) : Reads colon [':'] rest () := by
  refine (reads_ahead (c := ':') rfl).nil_bind ?_
  exact reads_skip ':' rest

theorem reads_endObject (rest : List Char) : Reads endObject ['}'] rest () := by
  refine (reads_ahead (c := '}') rfl).nil_bind ?_
  exact reads_skip '}' rest

/-- Fields are written part by part: the marks in front of the name, the name, the colon, the value, the rest. -/
theorem fieldsText_cons (f : String × α) (fs : List (String × α)) : fieldsText gap esc text isFirst (f :: fs) ++ close =
    ((if isFirst then [] else [',']) ++ gap) ++ (['"'] ++ ((f.1.toList.flatMap esc ++ ['"']) ++
      ([':'] ++ (text f.2 ++ (fieldsText gap esc text false fs ++ close))))) := by
  simp [fieldsText,fieldText]

theorem reads_fields (hesc : ∀ c, Spells (esc c) c) (hgap : IsGap gap) (hclose : IsGap close) {item : Read α}
    (hitem : ∀ f ∈ fs, ∀ rest, EndsNumber rest → Reads item (text f.2) rest f.2) (rest : List Char)
    (hn : fs.length < n) :
    Reads (fields item isFirst n) (fieldsText gap esc text isFirst fs ++ close) ('}' :: rest) fs := by
  induction fs generalizing isFirst n with
  | nil =>
    obtain ⟨n,rfl⟩ := Nat.exists_eq_succ_of_ne_zero (Nat.ne_of_gt hn)
    refine (reads_moreFields_end hclose isFirst rest).bind_nil ?_
    exact reads_pure [] _
  | cons f fs ih =>
    obtain ⟨n,rfl⟩ := Nat.exists_eq_succ_of_ne_zero (Nat.ne_of_gt (Nat.zero_lt_of_lt hn))
    have hrest : Reads (fields item false n) (fieldsText gap esc text false fs ++ close) ('}' :: rest) fs :=
      ih (fun f hf => hitem f (List.mem_cons_of_mem _ hf)) (Nat.lt_of_succ_lt_succ hn)
    have hends : EndsNumber (fieldsText gap esc text false fs ++ close ++ '}' :: rest) :=
      endsNumber_fieldsText hclose fs rest
    rw [fieldsText_cons]
    refine (reads_moreFields hgap isFirst _).bind ((reads_skip '"' _).bind ?_)
    refine (reads_stringBody hesc f.1 _).bind ((reads_colon _).bind ?_)
    exact (hitem f List.mem_cons_self _ hends).bind (hrest.bind_nil (reads_pure _ _))

end

theorem Reads.tryCatch (h : Reads r text rest a) (handler : Fault → Read α) :
    Reads (tryCatch r handler) text rest a := by
  intro place
  obtain ⟨place',hplace⟩ := h place
  refine ⟨place',?_⟩
  change EStateM.tryCatch r handler _ = _
  rw [EStateM.tryCatch,hplace]

theorem Reads.closed {finish : Read Unit} (h : Reads r text (text' ++ rest) a) (hfinish : Reads finish text' rest ()) :
    Reads (closed r finish) (text ++ text') rest a := by
  exact ((h.tryCatch _).bind (hfinish.map fun _ => a)).tryCatch _

/-- What is between braces is read with all that is ahead in view. -/
theorem reads_braces {content : Cursor → Read α}
    (h : ∀ k : Cursor, text.length < k.rest.length → Reads (content k) text ('}' :: rest) a) :
    Reads (do skip; closed (get >>= content) endObject) ('{' :: (text ++ ['}'])) rest a := by
  refine (reads_skip '{' _).bind (Reads.closed (reads_get fun place => h _ ?_) (reads_endObject rest))
  simp

/-- An object behind its brace is read back if the values of its fields are. -/
theorem reads_objectBody {gap close : List Char} (hgap : IsGap gap) (hclose : IsGap close) {esc : Char → List Char}
    (hesc : ∀ c, Spells (esc c) c) {item : Read α} {text : α → List Char} {fs : List (String × α)}
    (hitem : ∀ f ∈ fs, ∀ rest, EndsNumber rest → Reads item (text f.2) rest f.2) (rest : List Char) :
    Reads (objectBody item) ('{' :: (fieldsText gap esc text true fs ++ close ++ ['}'])) rest fs := by
  refine reads_braces fun k hk => reads_fields hesc hgap hclose hitem rest ?_
  have hlength := length_le_fieldsText gap esc text true fs
  rw [List.length_append] at hk
  omega

theorem reads_value_string {esc : Char → List Char} (hesc : ∀ c, Spells (esc c) c) (inner? : Option (Read Json))
    (s : String) (rest : List Char) :
    Reads (valueWith inner?) ('"' :: (s.toList.flatMap esc ++ ['"'])) rest (.string s) := by
  refine (reads_ahead (c := '"') rfl).nil_bind ?_
  exact (reads_skip '"' _).bind ((reads_stringBody hesc s rest).map Json.string)

theorem reads_value_object {esc : Char → List Char} (hesc : ∀ c, Spells (esc c) c) {inner : Read Json}
    {text : Json → List Char} {fs : List (String × Json)}
    (hitem : ∀ f ∈ fs, ∀ rest, EndsNumber rest → Reads inner (text f.2) rest f.2) (rest : List Char) :
    Reads (valueWith (some inner)) ('{' :: (fieldsText [] esc text true fs ++ ['}'])) rest (.object fs) := by
  refine (reads_ahead (c := '{') rfl).nil_bind ?_
  have hbody := reads_objectBody isGap_nil isGap_nil hesc hitem rest
  rw [List.append_nil] at hbody
  exact hbody.map Json.object

/-- A text that is read whole. -/
theorem runAll_of_reads (h : Reads r s.toList [] a) : runAll r s = .ok a := by
  have hfinish : Reads finish [] [] () := fun place => ⟨place,rfl⟩
  have hwhole : Reads (r <* finish) s.toList [] a := h.bind_nil (hfinish.map fun _ => a)
  obtain ⟨place,hplace⟩ := hwhole ⟨1,0⟩
  rw [List.append_nil] at hplace
  have hrun : EStateM.run (r <* finish) { rest := s.toList } = .ok a ⟨[],place⟩ := hplace
  rw [runAll,hrun]

end Read

theorem toList_quote (s : String) : (quote s).toList = '"' :: (s.toList.flatMap escapeChar ++ ['"']) := by
  rw [quote,String.toList_ofList]
  rfl

/-- What is written of an object. -/
theorem toList_compact_object (fs : List (String × Json)) : (compact (.object fs)).toList =
    '{' :: (Read.fieldsText [] escapeChar (fun v => v.compact.toList) true fs ++ ['}']) := by
  have hfields : ∀ fs, (",".intercalate (compactFields fs)).toList =
      Read.fieldsText [] escapeChar (fun v => v.compact.toList) true fs := by
    intro fs
    induction fs with
    | nil => rfl
    | cons f fs ih =>
      cases fs with
      | nil => simp [compactFields,toList_quote,Read.fieldsText,Read.fieldText]
      | cons f' fs =>
        have hcons : compactFields (f :: f' :: fs) =
          (quote f.1 ++ ":" ++ f.2.compact) :: (quote f'.1 ++ ":" ++ f'.2.compact) :: compactFields fs := rfl
        have hcomma : Read.fieldsText [] escapeChar (fun v => v.compact.toList) false (f' :: fs) =
          ',' :: Read.fieldsText [] escapeChar (fun v => v.compact.toList) true (f' :: fs) := rfl
        rw [hcons,String.intercalate_cons_cons,String.toList_append,Read.fieldsText,hcomma,← ih]
        simp [compactFields,toList_quote,Read.fieldText]
  rw [compact,String.toList_append,String.toList_append,hfields]
  rfl

end PreviewCompiler.Json
