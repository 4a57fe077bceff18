import Mathlib.Tactic.SplitIfs
import PreviewCompiler.Proofs.Data.List
import PreviewCompiler.Script.Lexer

namespace PreviewCompiler.Script.Lexer

variable {l : Lexer} {text rest : List Char} {c : Char}

theorem skip_skip (l : Lexer) (m n : Nat) : (l.skip m).skip n = l.skip (m + n) := by
  simp only [skip,List.drop_drop,Nat.add_assoc]

theorem rest_skip (h : l.rest = text ++ rest) : (l.skip text.length).rest = rest := by
  rw [skip,h,List.drop_left]

/-- Does a script have a character in a string where a text stands? -/
structure Spells (text : List Char) (c : Char) : Prop where
  ne_nil : text ≠ []
  step : ∀ {l : Lexer} {rest : List Char} (n : Nat) (acc : List Char), l.rest = text ++ rest →
    readStringLoop '"' (n + 1) l acc = readStringLoop '"' n (l.skip text.length) (c :: acc)

theorem spells_self (hquote : c ≠ '"') (hslash : c ≠ '\\') (hline : c ≠ '\n') (hreturn : c ≠ '\r') : Spells [c] c where
  ne_nil := List.cons_ne_nil _ _
  step n acc h := by
    rw [readStringLoop,h]
    simp [hquote,hslash,hline,hreturn]

/-- A backslash and what the lexer reads behind it. -/
theorem spells_of_readEscape {cs : List Char} (h : ∀ {l : Lexer} {rest : List Char}, l.rest = '\\' :: cs ++ rest →
    l.readEscape false = (.ok [c],l.skip (cs.length + 1))) : Spells ('\\' :: cs) c where
  ne_nil := List.cons_ne_nil _ _
  step n acc hl := by
    rw [readStringLoop,hl,List.cons_append]
    simp only [h hl]
    rfl

/-- The escapes of a backslash and one more character. -/
theorem spells_letter {d : Char} (h : (d,c) ∈ [('"','"'),('\\','\\'),('b','\x08'),('f','\x0c'),('n','\n'),('r','\r'),
    ('t','\t')]) : Spells ['\\',d] c := by
  refine spells_of_readEscape fun hl => ?_
  rw [readEscape,hl]
  simp only [List.mem_cons,Prod.mk.injEq,List.not_mem_nil,or_false] at h
  rcases h with ⟨rfl,rfl⟩ | ⟨rfl,rfl⟩ | ⟨rfl,rfl⟩ | ⟨rfl,rfl⟩ | ⟨rfl,rfl⟩ | ⟨rfl,rfl⟩ | ⟨rfl,rfl⟩ <;> rfl

/-- The escape of a character by the four digits of its number. -/
theorem spells_unicode {d₀ d₁ d₂ d₃ : Char} (hdigit : d₀ ≠ '{') (h : hexNumber? [d₀,d₁,d₂,d₃] = some c.toNat)
    (hlow : c.toNat < 0xD800) : Spells ['\\','u',d₀,d₁,d₂,d₃] c := by
  refine spells_of_readEscape fun {l rest} hl => ?_
  have hskip : (l.skip 1).rest = ['u',d₀,d₁,d₂,d₃] ++ rest := by
    rw [skip,hl]
    rfl
  have hread : (l.skip 1).readUnicodeEscape = (.ok [c],l.skip 6) := by
    have hcode : codeText c.toNat = [c] := by
      have hno : isSurrogate c.toNat = false := by
        rw [isSurrogate,Bool.and_eq_false_iff,decide_eq_false_iff_not]
        exact .inl (by omega)
      rw [codeText,hno]
      exact congrArg (· :: []) (Char.ofNat_toNat c)
    have hpair : ¬ (0xD800 ≤ c.toNat && c.toNat < 0xDC00) = true := by simp; omega
    unfold readUnicodeEscape
    rw [hskip]
    split
    · rename_i heq
      exact absurd (List.cons.inj heq).1 hdigit
    · have htake : (List.drop 1 (['u',d₀,d₁,d₂,d₃] ++ rest)).take 4 = [d₀,d₁,d₂,d₃] := rfl
      simp only [htake,h,if_neg hpair,hcode,skip_skip]
      rfl
  rw [readEscape,hl]
  simp only [List.cons_append,List.drop_succ_cons,List.drop_zero,hread]
  rfl

/-- Is a text a token of its own wherever it stands in a script, a string with this value? -/
def IsString (literal value : String) : Prop := ∀ (d : Dialect) (m : LexMode) (l : Lexer) (rest : List Char),
  l.finish = l.pos + l.rest.length → l.rest = literal.toList ++ rest →
    l.readToken d m = (.ok (.string value literal),l.skip literal.toList.length)

/-- Every text is the source of a lexer. -/
theorem exists_lexer (source : List Char) : ∃ l : Lexer, l.rest = source ∧ l.finish = l.pos + l.rest.length :=
  ⟨ofSource source,rfl,Nat.add_comm _ _⟩

variable {write : Char → List Char}

theorem readStringLoop_flatMap (h : ∀ c, Spells (write c) c) (cs : List Char) {n : Nat}
    {l : Lexer} {rest acc : List Char}
    (hn : cs.length < n) (hl : l.rest = cs.flatMap write ++ '"' :: rest) :
    readStringLoop '"' n l acc = (.ok (acc.reverse ++ cs,true),l.skip ((cs.flatMap write).length + 1)) := by
  induction cs generalizing n l acc with
  | nil =>
    obtain ⟨n,rfl⟩ := Nat.exists_eq_succ_of_ne_zero (Nat.ne_of_gt hn)
    rw [List.flatMap_nil,List.nil_append] at hl
    rw [readStringLoop,hl,List.append_nil]
    rfl
  | cons c cs ih =>
    obtain ⟨n,rfl⟩ := Nat.exists_eq_succ_of_ne_zero (Nat.ne_of_gt (Nat.zero_lt_of_lt hn))
    rw [List.flatMap_cons,List.append_assoc] at hl
    rw [(h c).step n acc hl,ih (Nat.lt_of_succ_lt_succ hn) (rest_skip hl),skip_skip,List.flatMap_cons,List.length_append,
      List.reverse_cons,List.append_assoc,List.singleton_append,Nat.add_assoc]

/-- A text between quotes is read up to its second quote, whatever comes behind it. -/
theorem readToken_flatMap (h : ∀ c, Spells (write c) c) (s : String) (d : Dialect) (m : LexMode)
    (hend : l.finish = l.pos + l.rest.length) (hl : l.rest = '"' :: (s.toList.flatMap write ++ ['"']) ++ rest) :
    l.readToken d m = (.ok (.string s (String.ofList ('"' :: (s.toList.flatMap write ++ ['"'])))),
      l.skip ('"' :: (s.toList.flatMap write ++ ['"'])).length) := by
  have hlength := Data.length_le_length_flatMap (fun c => (h c).ne_nil) s.toList
  have hfuel : s.toList.length < l.left := by
    rw [left,hend,hl]
    simp only [List.length_append,List.length_cons]
    omega
  have hrest : (l.skip 1).rest = s.toList.flatMap write ++ '"' :: rest := by
    rw [skip,hl]
    simp
  have hloop : readStringLoop '"' l.left (l.skip 1) [] = (.ok (s.toList,true),_) :=
    readStringLoop_flatMap h s.toList hfuel hrest
  have hpassed : passed l (l.skip ('"' :: (s.toList.flatMap write ++ ['"'])).length) =
      String.ofList ('"' :: (s.toList.flatMap write ++ ['"'])) := by
    rw [passed,skip,hl]
    simp only [Nat.add_sub_cancel_left,List.take_left]
  have hread : l.readToken d m = l.readString '"' := by
    rw [readToken,hl]
    rfl
  have hstop : (l.skip 1).skip ((s.toList.flatMap write).length + 1) =
      l.skip ('"' :: (s.toList.flatMap write ++ ['"'])).length := by
    rw [skip_skip,List.length_cons,List.length_append,Nat.add_comm 1]
    rfl
  rw [hread,readString,hloop,hstop]
  simp only [hpassed,String.ofList_toList,if_true]

theorem isString_of_spells (h : ∀ c, Spells (write c) c) (s : String) :
    IsString (String.ofList ('"' :: (s.toList.flatMap write ++ ['"']))) s := by
  intro d m l rest hend hl
  rw [String.toList_ofList] at hl ⊢
  exact readToken_flatMap h s d m hend hl

end PreviewCompiler.Script.Lexer
