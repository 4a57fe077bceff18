import PreviewCompiler.Files.Operation
import PreviewCompiler.ImportMap
import PreviewCompiler.Preview.Message
import PreviewCompiler.Proofs.Data.OrderedMap
import PreviewCompiler.Proofs.Json.Decoding

namespace PreviewCompiler

open Data Json

namespace SourceLocation

/-- Do the numbers of a place fit into 32 bits? -/
structure Fits (l : SourceLocation) : Prop where
  line : ∀ n ∈ l.line, n < UInt32.size
  column : ∀ n ∈ l.column, n < UInt32.size

theorem asOption_optional {bound : Nat} {o : Option Nat} (h : ∀ n ∈ o, n < bound) (expected : String) :
    asOption (asNaturalBelow bound expected) (toJson.optional o) = .ok o := by
  cases o with
  | none => rfl
  | some n =>
    have hn : n < bound := h n rfl
    simp [toJson.optional,ofNat,asOption,asNaturalBelow,hn]

theorem ofJson_toJson {l : SourceLocation} (h : l.Fits) : ofJson l.toJson = .ok l := by
  have hline : ofJson.number (toJson.optional l.line) = .ok l.line := asOption_optional h.line "u32"
  have hcolumn : ofJson.number (toJson.optional l.column) = .ok l.column := asOption_optional h.column "u32"
  simp [ofJson,toJson,decodeRecord,decodeFields,asString,hline,hcolumn,bind,Except.bind,pure,Except.pure]

theorem isPlain_optional {o : Option Nat} (h : ∀ n ∈ o, n < UInt32.size) (depth : Nat) :
    Read.IsPlain depth (toJson.optional o) := by
  cases o with
  | none => exact .null
  | some n => exact .natural (Nat.lt_trans (h n rfl) (by decide))

theorem isPlain_toJson {l : SourceLocation} (h : l.Fits) (depth : Nat) : Read.IsPlain (depth + 1) l.toJson := by
  refine .object ?_
  simp only [List.forall_mem_cons]
  exact ⟨.string _,isPlain_optional h.line _,isPlain_optional h.column _,List.forall_mem_nil _⟩

end SourceLocation

namespace RuntimeError

/-- Do the numbers of an error fit into 32 bits, and the version into 64? -/
structure Fits (e : RuntimeError) : Prop where
  location : ∀ l ∈ e.location, l.Fits
  version : ∀ n ∈ e.version, n < UInt64.size

variable {e : RuntimeError}

theorem ofJson_fields (h : e.Fits) : ofJson (.object e.fields) = .ok e := by
  have hlocation : ∀ l ∈ e.location, SourceLocation.ofJson l.toJson = .ok l := fun l hl =>
    SourceLocation.ofJson_toJson (h.location l hl)
  have hversion := h.version
  obtain ⟨message,stack,location,version⟩ := e
  cases stack <;> cases location <;> cases version <;>
    simp_all [ofJson,fields,decodeRecord,decodeFields,asString,asOption,ofJson.version,asNaturalBelow,
      SourceLocation.toJson,ofNat,bind,Except.bind,pure,Except.pure]

theorem forall_mem_fields {P : String × Json → Prop} (hmessage : P ("message",.string e.message))
    (hstack : ∀ s ∈ e.stack, P ("stack",.string s)) (hlocation : ∀ l ∈ e.location, P ("location",l.toJson))
    (hversion : ∀ n ∈ e.version, P ("version",.ofNat n)) : ∀ f ∈ e.fields, P f := by
  intro f hf
  simp only [fields,List.mem_append,List.mem_singleton,Option.mem_toList,Option.map_eq_some_iff] at hf
  rcases hf with ((rfl | ⟨s,hs,rfl⟩) | ⟨l,hl,rfl⟩) | ⟨n,hn,rfl⟩
  · exact hmessage
  · exact hstack s hs
  · exact hlocation l hl
  · exact hversion n hn

theorem isPlain_fields (h : e.Fits) (depth : Nat) : ∀ f ∈ e.fields, Read.IsPlain (depth + 1) f.2 :=
  forall_mem_fields (.string _) (fun s _ => .string s) (fun l hl => SourceLocation.isPlain_toJson (h.location l hl) _)
    fun n hn => .natural (h.version n hn)

end RuntimeError

theorem PageMessage.parse_text {e : RuntimeError} (h : e.Fits) :
    parse (runtimeError e).text = .ok (runtimeError e) := by
  have hkeys : ∀ f ∈ e.fields, f.1 ≠ "type" := by
    refine RuntimeError.forall_mem_fields ?_ (fun _ _ => ?_) (fun _ _ => ?_) (fun _ _ => ?_) <;> simp
  have htagged := Read.reads_tagged (show [("runtime-error",runtimeError)].lookup "runtime-error" = _ from rfl) hkeys
    (RuntimeError.isPlain_fields h 125) "SandboxMessage" []
  have hread : Read.Reads read (runtimeError e).text.toList [] (runtimeError e) := by
    refine htagged.bind_nil ?_
    simp only [RuntimeError.ofJson_fields h]
    exact Read.reads_pure _ _
  exact Read.runAll_of_reads hread

namespace FileOperation

variable {kind op : FileOperation} {k k' s s' : String} {set set' : String → FileOperation → FileOperation}

theorem ofJson_of_one (hparts : kind.parts = [textPart k set]) (hop : set s kind = op) :
    ofJson kind (.object [(k,.string s)]) = .ok op := by
  simp [ofJson,hparts,hop,decodeRecord,decodeFields,textPart,asString,bind,Except.bind,pure,Except.pure]

theorem ofJson_of_two (hparts : kind.parts = [textPart k set,textPart k' set']) (hne : k ≠ k')
    (hop : set' s' (set s kind) = op) : ofJson kind (.object [(k,.string s),(k',.string s')]) = .ok op := by
  simp [ofJson,hparts,hop,decodeRecord,decodeFields,textPart,asString,hne,hne.symm,bind,Except.bind,pure,Except.pure]

/-- An operation is written with its kind and with texts that are filled into this kind. -/
theorem exists_kind (op : FileOperation) : ∃ name kind fs,
    op.toJson = .object (("op",.string name) :: fs) ∧
    kinds.lookup name = some kind ∧ ofJson kind (.object fs) = .ok op ∧
    ∀ f ∈ fs, f.1 ≠ "op" ∧ Read.IsPlain (Read.depthLimit - 1) f.2 := by
  have htext (k s : String) (hk : k ≠ "op") : k ≠ "op" ∧ Read.IsPlain (Read.depthLimit - 1) (.string s) :=
    ⟨hk,.string s⟩
  have hone (k s : String) (hk : k ≠ "op") : ∀ f ∈ [(k,Json.string s)],
      f.1 ≠ "op" ∧ Read.IsPlain (Read.depthLimit - 1) f.2 := List.forall_mem_singleton.2 (htext k s hk)
  have htwo (k k' s s' : String) (hk : k ≠ "op") (hk' : k' ≠ "op") : ∀ f ∈ [(k,Json.string s),(k',Json.string s')],
      f.1 ≠ "op" ∧ Read.IsPlain (Read.depthLimit - 1) f.2 :=
    List.forall_mem_cons.2 ⟨htext k s hk,hone k' s' hk'⟩
  cases op with
  | create path content =>
    exact ⟨_,create "" "",_,rfl,rfl,ofJson_of_two rfl (by decide) rfl,htwo _ _ _ _ (by decide) (by decide)⟩
  | createDirectory path =>
    exact ⟨_,createDirectory "",_,rfl,rfl,ofJson_of_one rfl rfl,hone _ _ (by decide)⟩
  | edit path content =>
    exact ⟨_,edit "" "",_,rfl,rfl,ofJson_of_two rfl (by decide) rfl,htwo _ _ _ _ (by decide) (by decide)⟩
  | rename source target =>
    exact ⟨_,rename "" "",_,rfl,rfl,ofJson_of_two rfl (by decide) rfl,htwo _ _ _ _ (by decide) (by decide)⟩
  | delete path =>
    exact ⟨_,delete "",_,rfl,rfl,ofJson_of_one rfl rfl,hone _ _ (by decide)⟩

theorem parse_compact (op : FileOperation) : parse op.toJson.compact = .ok op := by
  obtain ⟨name,kind,fs,htext,hkind,hof,hfs⟩ := op.exists_kind
  have htagged := Read.reads_tagged hkind (fun f hf => (hfs f hf).1) (fun f hf => (hfs f hf).2) "FsOperation" []
  have hread : Read.Reads read op.toJson.compact.toList [] op := by
    rw [htext]
    refine htagged.bind_nil ?_
    simp only [hof]
    exact Read.reads_pure _ _
  exact Read.runAll_of_reads hread

end FileOperation

namespace ImportMap

open Json.Read

/-- What is written of the entries of an import map, with blanks in front of it, of names and values, and of its end. -/
def entriesText (front gap value close : List Char) (es : List (String × String)) : List Char :=
  front ++ '{' :: (fieldsText gap escapeChar
    (fun s => value ++ '"' :: (s.toList.flatMap escapeChar ++ ['"'])) true es ++ close ++ ['}'])

/-- Whatever blanks are written between its parts, an import map is read back. -/
theorem reads_read {outer outerClose front gap value close : List Char} (houter : IsGap outer)
    (houterClose : IsGap outerClose) (hfront : IsGap front) (hgap : IsGap gap) (hvalue : IsGap value)
    (hclose : IsGap close) {map : ImportMap} (h : OrderedMap.IsOrdered map.imports) (rest : List Char) :
    Reads read ('{' :: (fieldsText outer escapeChar (entriesText front gap value close) true
      [("imports",map.imports)] ++ outerClose ++ ['}'])) rest map := by
  have hentries (rest : List Char) : Reads (importsField.read none) (entriesText front gap value close map.imports) rest
      (some map) := by
    refine (reads_map_string hfront hgap hvalue hclose map.imports rest).bind_nil ?_
    have heq : some (⟨OrderedMap.ofList map.imports⟩ : ImportMap) = some map := by rw [h.ofList_eq]
    rw [← heq]
    exact reads_pure _ _
  have hfields (n : Nat) (hn : 1 < n) := reads_recordFields_singleton houter houterClose hentries hn rest
  refine (reads_ahead (c := '{') rfl).nil_bind ?_
  refine reads_braces fun k hk => (hfields _ ?_).bind_nil (reads_pure map _)
  have hlength := length_le_fieldsText outer escapeChar (entriesText front gap value close) true
    [("imports",map.imports)]
  rw [List.length_append] at hk
  rw [List.length_singleton] at hlength
  omega

theorem toList_compact_entries (es : List (String × String)) :
    (compact (.object (es.map fun e => (e.1,.string e.2)))).toList = entriesText [] [] [] [] es := by
  rw [toList_compact_object,fieldsText_map Json.string,entriesText]
  simp only [compact,toList_quote,List.nil_append,List.append_nil]

/-- The end of the entries stands on a line of its own, unless there are none. -/
theorem exists_prettyAt_entries (depth : Nat) (es : List (String × String)) : ∃ close, IsGap close ∧
    ' ' :: (prettyAt depth (.object (es.map fun e => (e.1,.string e.2)))).toList =
      entriesText [' '] (newLine (depth + 1)) [' '] close es := by
  cases es with
  | nil => exact ⟨[],isGap_nil,by simp [prettyAt,prettyFields,layOut,entriesText,fieldsText]⟩
  | cons e es =>
    refine ⟨newLine depth,isGap_newLine depth,?_⟩
    have hne : ((e :: es).map fun e => (e.1,Json.string e.2)) ≠ [] := List.cons_ne_nil _ _
    rw [toList_prettyAt_object depth hne,fieldsText_map Json.string,entriesText]
    simp only [prettyAt,compact,toList_quote,List.singleton_append]

theorem parse_toJson {map : ImportMap} (h : OrderedMap.IsOrdered map.imports) :
    parse map.toJson.compact = .ok map ∧ parse map.toJson.pretty = .ok map := by
  have hspace : IsGap [' '] := List.forall_mem_singleton.2 rfl
  constructor
  · have htext : map.toJson.compact.toList = '{' :: (fieldsText [] escapeChar (entriesText [] [] [] []) true
        [("imports",map.imports)] ++ [] ++ ['}']) := by
      rw [toJson,toList_compact_object,List.append_nil]
      simp only [fieldsText,fieldText,← toList_compact_entries]
    have hread := reads_read isGap_nil isGap_nil isGap_nil isGap_nil isGap_nil isGap_nil h []
    exact runAll_of_reads (htext ▸ hread)
  · obtain ⟨close,hclose,hentries⟩ := exists_prettyAt_entries 1 map.imports
    have htext : map.toJson.pretty.toList = '{' :: (fieldsText (newLine 1) escapeChar
        (entriesText [' '] (newLine 2) [' '] close) true [("imports",map.imports)] ++ newLine 0 ++ ['}']) := by
      rw [toJson,pretty,toList_prettyAt_object 0 (List.cons_ne_nil _ _)]
      simp only [fieldsText,fieldText,← hentries]
    have hread := reads_read (isGap_newLine 1) (isGap_newLine 0) hspace (isGap_newLine 2) hspace hclose h []
    exact runAll_of_reads (htext ▸ hread)

end ImportMap

/--
What is exchanged as JSON is read back: errors of a page with whatever fields they have, operations of an editor, and
maps of imports, on one line or on many.
-/
theorem exchanged_read_back :
    (∀ e : RuntimeError, e.Fits → PageMessage.parse (PageMessage.runtimeError e).text = .ok (.runtimeError e)) ∧
    (∀ op : FileOperation, FileOperation.parse op.toJson.compact = .ok op) ∧
    ∀ map : ImportMap, OrderedMap.IsOrdered map.imports →
      ImportMap.parse map.toJson.compact = .ok map ∧ ImportMap.parse map.toJson.pretty = .ok map :=
  ⟨fun _ h => PageMessage.parse_text h,FileOperation.parse_compact,fun _ h => ImportMap.parse_toJson h⟩

/-- The greatest numbers, escapes of each kind, and two entries. -/
theorem exchanged_read_back_greatest :
    let e : RuntimeError := ⟨"\"\x01\n",some "",some ⟨"ü",some 4294967295,none⟩,some 18446744073709551615⟩
    let map : ImportMap := ⟨[("@/App.jsx","blob:1"),("react","\t")]⟩
    PageMessage.parse (PageMessage.runtimeError e).text = .ok (.runtimeError e) ∧
      ImportMap.parse map.toJson.pretty = .ok map := by
  intro e map
  have hlocation : (⟨"ü",some 4294967295,none⟩ : SourceLocation).Fits :=
    ⟨fun n hn => Option.some.inj hn ▸ by decide,fun n hn => by contradiction⟩
  have he : e.Fits := by
    refine ⟨fun l hl => ?_,fun n hn => Option.some.inj hn ▸ by decide⟩
    obtain rfl := Option.some.inj hl
    exact hlocation
  have hmap : OrderedMap.IsOrdered map.imports := List.pairwise_pair.2 (by decide)
  exact ⟨exchanged_read_back.1 e he,(exchanged_read_back.2.2 map hmap).2⟩

end PreviewCompiler
