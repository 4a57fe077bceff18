import Mathlib.Data.List.Infix
import PreviewCompiler.Proofs.Text.Letter

/-!
# Markup

How a browser takes a page apart, for pages of declarations, texts and tags with quoted attributes.  The text of some
elements is no markup: it goes on up to the name of the element behind `</`, in letters of either case, if a character
follows by which a name ends.  A page that holds anything else is not read.
-/

namespace PreviewCompiler.Markup

/-- A part of a page. -/
inductive Part where
  | declaration (text : String)
  | text (text : String)
  | opening (name : String) (attributes : List (String × String))
  | closing (name : String)
  /-- An element with a text that is no markup. -/
  | raw (name : String) (attributes : List (String × String)) (text : String)
  deriving DecidableEq, Repr

/-- A tag as far as it has been read. -/
structure Tag where
  isEnd : Bool
  name : List Char
  attributes : List (String × String) := []
  deriving DecidableEq, Repr

/-- Where the reading of a page stands. -/
inductive Reading where
  | text (read : List Char)
  /-- Behind a less-than sign. -/
  | mark
  | declaration (read : List Char)
  | name (isEnd : Bool) (read : List Char)
  /-- Behind the name of a tag or an attribute. -/
  | gap (tag : Tag)
  | key (tag : Tag) (read : List Char)
  /-- Behind an equals sign. -/
  | equals (tag : Tag) (key : List Char)
  | value (tag : Tag) (key read : List Char)
  /-- In a text that is no markup; what is pending could be its end. -/
  | raw (name : List Char) (attributes : List (String × String)) (read pending : List Char)
  /-- Behind such a text and the name that ends it. -/
  | rawEnd
  deriving DecidableEq, Repr

/-- The elements with a text that is no markup. -/
def rawNames : List String := ["title","textarea","style","script","iframe","xmp","noembed","noframes"]

def isBlank (c : Char) : Bool := [' ','\n','\t','\r','\x0c'].contains c

/-- A text between tags, if there is one. -/
def flush (read : List Char) : List Part := if read.isEmpty then [] else [.text (String.ofList read)]

/-- The end of a tag. -/
def finishTag (tag : Tag) : List Part × Reading :=
  let name := String.ofList tag.name
  if tag.isEnd then ([.closing name],.text [])
  else if rawNames.contains name then ([],.raw tag.name tag.attributes [] [])
  else ([.opening name tag.attributes],.text [])

/-- The end of a text that is no markup.  One of a script that opens a comment may go on behind it. -/
def finishRaw (name : List Char) (attributes : List (String × String)) (read : List Char) (c : Char) :
    Option (List Part × Reading) :=
  if name = "script".toList ∧ "<!--".toList <:+: read then none
  else some ([.raw (String.ofList name) attributes (String.ofList read)],if c = '>' then .text [] else .rawEnd)

/-- What was pending is text. -/
def putBack (name : List Char) (attributes : List (String × String)) (read : List Char) (c : Char) : Reading :=
  if c = '<' then .raw name attributes read ['<'] else .raw name attributes (read ++ [c]) []

/-- What ends the text of an element. -/
def ending (name : List Char) : List Char := '<' :: '/' :: name

/-- What a character adds to the parts, and where the reading stands behind it. -/
def step : Reading → Char → Option (List Part × Reading)
  | .text read, c => if c = '<' then some (flush read,.mark) else some ([],.text (read ++ [c]))
  | .mark, c =>
    if c = '!' then some ([],.declaration [])
    else if c = '/' then some ([],.name true [])
    else if c.isAlpha then some ([],.name false [c.toLower])
    else none
  | .declaration read, c =>
    if c = '>' then some ([.declaration (String.ofList read)],.text [])
    else if c = '-' then none
    else some ([],.declaration (read ++ [c]))
  | .name isEnd read, c =>
    if c.isAlphanum then some ([],.name isEnd (read ++ [c.toLower]))
    else if c = '>' then some (finishTag ⟨isEnd,read,[]⟩)
    else if isBlank c then some ([],.gap ⟨isEnd,read,[]⟩)
    else none
  | .gap tag, c =>
    if c = '>' then some (finishTag tag)
    else if isBlank c || c == '/' then some ([],.gap tag)
    else if c.isAlpha then some ([],.key tag [c.toLower])
    else none
  | .key tag read, c =>
    if c = '=' then some ([],.equals tag read)
    else if c.isAlphanum then some ([],.key tag (read ++ [c.toLower]))
    else none
  | .equals tag key, c => if c = '"' then some ([],.value tag key []) else none
  | .value tag key read, c =>
    if c = '"' then
      some ([],.gap { tag with attributes := tag.attributes ++ [(String.ofList key,String.ofList read)] })
    else some ([],.value tag key (read ++ [c]))
  | .raw name attributes read pending, c =>
    if pending.length = (ending name).length then
      if c = '>' ∨ c = '/' ∨ isBlank c then finishRaw name attributes read c
      else some ([],putBack name attributes (read ++ pending) c)
    else if (ending name)[pending.length]? = some c.toLower then some ([],.raw name attributes read (pending ++ [c]))
    else some ([],putBack name attributes (read ++ pending) c)
  | .rawEnd, c => if c = '>' then some ([],.text []) else some ([],.rawEnd)

/-- What a text adds to the parts, and where the reading stands behind it. -/
def run : Reading → List Char → Option (List Part × Reading)
  | r, [] => some ([],r)
  | r, c :: cs => (step r c).bind fun (parts,r) => (run r cs).map fun (parts',r) => (parts ++ parts',r)

/-- The parts of a page, if it can be read to its end. -/
def read (page : String) : Option (List Part) :=
  (run (.text []) page.toList).bind fun (parts,r) =>
    match r with
    | .text read => some (parts ++ flush read)
    | _ => none

/-- What can be written for the marks of markup. -/
def references : List (String × Char) :=
  [("&amp;",'&'),("&lt;",'<'),("&gt;",'>'),("&quot;",'"'),("&#39;",'\'')]

/-- The characters that a text with references means; the first `skip` ones belong to a reference. -/
def decodeFrom : (skip : Nat) → List Char → List Char
  | _, [] => []
  | skip + 1, _ :: cs => decodeFrom skip cs
  | 0, c :: cs =>
    match references.find? fun e => e.1.toList.isPrefixOf (c :: cs) with
    | some (reference,d) => d :: decodeFrom (reference.length - 1) cs
    | none => c :: decodeFrom 0 cs

def decode (s : String) : String := String.ofList (decodeFrom 0 s.toList)

variable {r r' r'' : Reading} {parts parts' : List Part} {cs cs' text pending taken : List Char} {name : List Char}
  {attributes : List (String × String)} {c : Char}

theorem run_cons (h : step r c = some (parts,r')) (h' : run r' cs = some (parts',r'')) :
    run r (c :: cs) = some (parts ++ parts',r'') := by
  simp only [run,h,Option.bind_some,h',Option.map_some]

theorem run_append (h : run r cs = some (parts,r')) (h' : run r' cs' = some (parts',r'')) :
    run r (cs ++ cs') = some (parts ++ parts',r'') := by
  induction cs generalizing r parts with
  | nil =>
    obtain ⟨rfl,rfl⟩ := Prod.mk.inj (Option.some.inj h)
    exact h'
  | cons c cs ih =>
    obtain ⟨⟨first,mid⟩,hstep,hrest⟩ := Option.bind_eq_some_iff.1 h
    obtain ⟨⟨rest,last⟩,hrun,heq⟩ := Option.map_eq_some_iff.1 hrest
    obtain ⟨rfl,rfl⟩ := Prod.mk.inj heq
    rw [List.cons_append,List.append_assoc]
    exact run_cons hstep (ih hrun)

/-- An attribute goes on up to the next quote. -/
theorem run_value (tag : Tag) (key : List Char) (h : '"' ∉ cs) :
    run (.value tag key taken) cs = some ([],.value tag key (taken ++ cs)) := by
  induction cs generalizing taken with
  | nil => rw [List.append_nil,run]
  | cons c cs ih =>
    rw [List.mem_cons,not_or] at h
    have hrest : run (.value tag key (taken ++ [c])) cs = some ([],.value tag key (taken ++ [c] ++ cs)) := ih h.2
    rw [List.append_assoc,List.singleton_append] at hrest
    have hstep : step (.value tag key taken) c = some ([],.value tag key (taken ++ [c])) := if_neg (Ne.symm h.1)
    exact run_cons hstep hrest

/-- Does a text start with what ends that of an element, in letters of either case? -/
def Ends (name cs : List Char) : Prop := (cs.take (ending name).length).map Char.toLower = ending name

/-- Does nothing in a text end that of an element? -/
def IsFree (name text : List Char) : Prop := ∀ cs, cs <:+ text → ¬ Ends name cs

/-- Are some characters the first ones of what ends the text of an element, but not all of them? -/
def IsPartial (name pending : List Char) : Prop :=
  pending.map Char.toLower <+: ending name ∧ pending.length < (ending name).length

/-- Is a name as the reading has it, in small letters and without less-than signs? -/
def IsTagName (name : List Char) : Prop := ∀ c ∈ name, c.toLower = c ∧ c ≠ '<'

instance : DecidablePred IsTagName := fun name => List.decidableBAll (fun c : Char => c.toLower = c ∧ c ≠ '<') name

theorem IsFree.of_suffix (h : IsFree name text) (hs : cs <:+ text) : IsFree name cs :=
  fun cs' hs' => h cs' (hs'.trans hs)

theorem isPartial_nil (name : List Char) : IsPartial name [] := ⟨List.nil_prefix,Nat.succ_pos _⟩

theorem isPartial_mark (name : List Char) : IsPartial name ['<'] :=
  ⟨List.cons_prefix_cons.2 ⟨rfl,List.nil_prefix⟩,Nat.succ_lt_succ (Nat.succ_pos _)⟩

/-- No letter becomes a less-than sign. -/
theorem eq_of_toLower_eq_mark {c : Char} (h : c.toLower = '<') : c = '<' := Text.eq_of_toLower_eq h (by decide)

theorem isFree_of_not_mem (name : List Char) (h : '<' ∉ text) : IsFree name text := by
  intro cs hcs hends
  cases cs with
  | nil => contradiction
  | cons c cs => exact h (eq_of_toLower_eq_mark (List.cons.inj hends).1 ▸ hcs.mem List.mem_cons_self)

theorem IsFree.cons (h : IsFree name text) (hc : c ≠ '<') : IsFree name (c :: text) := by
  intro cs hcs hends
  rcases List.suffix_cons_iff.1 hcs with rfl | hcs
  · exact hc (eq_of_toLower_eq_mark (List.cons.inj hends).1)
  · exact h cs hcs hends

theorem IsFree.snoc (h : IsFree name text) (hc : c.toLower ∉ ending name) : IsFree name (text ++ [c]) := by
  intro cs hcs hends
  rcases List.suffix_concat_iff.1 hcs with rfl | ⟨front,rfl,hfront⟩
  · contradiction
  · by_cases hlength : (ending name).length ≤ front.length
    · rw [Ends,List.take_append_of_le_length hlength] at hends
      exact h front hfront hends
    · have hall : (front ++ [c]).length ≤ (ending name).length := by
        rw [List.length_append,List.length_singleton]
        omega
      rw [Ends,List.take_of_length_le hall] at hends
      exact hc (hends ▸ List.mem_map_of_mem (List.mem_append_right front List.mem_cons_self))

/-- One more of the first characters. -/
theorem IsPartial.snoc (h : IsPartial name pending) (hc : (ending name)[pending.length]? = some c.toLower) :
    (pending ++ [c]).map Char.toLower <+: ending name := by
  obtain ⟨rest,hrest⟩ := h.1
  have hlength : (pending.map Char.toLower).length = pending.length := List.length_map _
  rw [← hrest,← hlength,List.getElem?_append_right (Nat.le_refl _),Nat.sub_self] at hc
  cases rest with
  | nil => contradiction
  | cons d rest =>
    obtain rfl : d = c.toLower := Option.some.inj hc
    refine ⟨rest,?_⟩
    rw [← hrest,List.map_append,List.append_assoc]
    rfl

/-- In a text in which nothing ends it the reading stays in it. -/
theorem run_raw (h : IsFree name (pending ++ text)) (hp : IsPartial name pending) :
    ∃ taken' pending', run (.raw name attributes taken pending) text = some ([],.raw name attributes taken' pending') ∧
      taken' ++ pending' = taken ++ pending ++ text ∧ IsPartial name pending' := by
  induction text generalizing taken pending with
  | nil => exact ⟨taken,pending,rfl,(List.append_nil _).symm,hp⟩
  | cons c text ih =>
    have hfull : pending.length ≠ (ending name).length := Nat.ne_of_lt hp.2
    by_cases hc : (ending name)[pending.length]? = some c.toLower
    · have hmore := hp.snoc hc
      have hfree : IsFree name (pending ++ [c] ++ text) := by rwa [List.append_assoc,List.singleton_append]
      have hpartial : IsPartial name (pending ++ [c]) := by
        refine ⟨hmore,Nat.lt_of_le_of_ne ?_ fun hlength => ?_⟩
        · have := hmore.length_le
          rwa [List.length_map] at this
        · refine hfree _ List.suffix_rfl ?_
          rw [Ends,← hlength,List.take_left,hmore.eq_of_length (by rw [List.length_map,hlength])]
      have hstep : step (.raw name attributes taken pending) c =
          some ([],.raw name attributes taken (pending ++ [c])) := by
        simp only [step,if_neg hfull,if_pos hc]
      obtain ⟨taken',pending',hrun,htext,hp'⟩ := ih hfree hpartial
      exact ⟨taken',pending',run_cons hstep hrun,by rw [htext]; simp,hp'⟩
    · have hstep : step (.raw name attributes taken pending) c =
          some ([],putBack name attributes (taken ++ pending) c) := by
        simp only [step,if_neg hfull,if_neg hc]
      by_cases hmark : c = '<'
      · subst hmark
        have hfree : IsFree name (['<'] ++ text) := h.of_suffix (List.suffix_append ..)
        obtain ⟨taken',pending',hrun,htext,hp'⟩ := ih hfree (isPartial_mark name)
        exact ⟨taken',pending',run_cons (hstep.trans (by rw [putBack,if_pos rfl])) hrun,by rw [htext]; simp,hp'⟩
      · have hfree : IsFree name ([] ++ text) := h.of_suffix ((List.suffix_cons c text).trans (List.suffix_append ..))
        obtain ⟨taken',pending',hrun,htext,hp'⟩ := ih hfree (isPartial_nil name)
        exact ⟨taken',pending',run_cons (hstep.trans (by rw [putBack,if_neg hmark])) hrun,by rw [htext]; simp,hp'⟩

/-- A name that ends a text is read to its end. -/
private theorem run_name (hname : ∀ c ∈ ending name, c.toLower = c) {front back : List Char}
    (h : front ++ back = ending name) :
    run (.raw name attributes taken front) back = some ([],.raw name attributes taken (ending name)) := by
  induction back generalizing front with
  | nil =>
    rw [List.append_nil] at h
    rw [h,run]
  | cons c back ih =>
    have hlength : front.length ≠ (ending name).length := by
      rw [← h,List.length_append,List.length_cons]
      omega
    have hc : (ending name)[front.length]? = some c.toLower := by
      rw [hname c (h ▸ List.mem_append_right _ List.mem_cons_self),← h,List.getElem?_append_right (Nat.le_refl _),
        Nat.sub_self]
      rfl
    have hstep : step (.raw name attributes taken front) c = some ([],.raw name attributes taken (front ++ [c])) := by
      simp only [step,if_neg hlength,if_pos hc]
    refine run_cons hstep (ih ?_)
    rw [List.append_assoc,List.singleton_append,h]

/-- The end of an element with a text that is no markup. -/
theorem run_ending (hname : IsTagName name) (hp : IsPartial name pending)
    (hcomment : name = "script".toList → ¬ "<!--".toList <:+: taken ++ pending) :
    run (.raw name attributes taken pending) (ending name ++ ['>']) =
      some ([.raw (String.ofList name) attributes (String.ofList (taken ++ pending))],.text []) := by
  have hlower : ∀ c ∈ ending name, c.toLower = c := fun c hc => by
    rcases List.mem_cons.1 hc with rfl | hc
    · rfl
    · exact (List.mem_cons.1 hc).elim (fun heq => heq ▸ rfl) fun hc => (hname c hc).1
  have hmark : step (.raw name attributes taken pending) '<' =
      some ([],.raw name attributes (taken ++ pending) ['<']) := by
    have hfull : pending.length ≠ (ending name).length := Nat.ne_of_lt hp.2
    cases pending with
    | nil =>
      rw [List.append_nil]
      rfl
    | cons d pending =>
      have hc : (ending name)[(d :: pending).length]? ≠ some '<'.toLower := fun hc => by
        rcases List.mem_cons.1 (List.mem_of_getElem? (l := '/' :: name) hc) with heq | hmem
        · exact absurd heq (by decide)
        · exact (hname '<' hmem).2 rfl
      simp only [step,if_neg hfull,if_neg hc]
      rfl
  have hend : step (.raw name attributes (taken ++ pending) (ending name)) '>' =
      some ([.raw (String.ofList name) attributes (String.ofList (taken ++ pending))],.text []) := by
    have hopen : ¬ (name = "script".toList ∧ "<!--".toList <:+: taken ++ pending) := fun h => hcomment h.1 h.2
    simp only [step,finishRaw,if_neg hopen]
    rfl
  have hname : run (.raw name attributes (taken ++ pending) ['<']) ('/' :: name) =
      some ([],.raw name attributes (taken ++ pending) (ending name)) := run_name hlower rfl
  exact run_cons hmark (run_append hname (run_cons hend rfl))

/-- Does a text from the start of a page lead to some parts, and to where the reading stands behind it? -/
def Leads (s : String) (parts : List Part) (r : Reading) : Prop := run (.text []) s.toList = some (parts,r)

section Leads

variable {s t : String}

theorem Leads.append (h : Leads s parts r) (h' : run r t.toList = some (parts',r')) :
    Leads (s ++ t) (parts ++ parts') r' := by
  rw [Leads,String.toList_append]
  exact run_append h h'

theorem Leads.append_value {tag : Tag} {key : List Char} (h : Leads s parts (.value tag key [])) (ht : '"' ∉ t.toList) :
    Leads (s ++ t) parts (.value tag key t.toList) := by
  have hvalue : run (.value tag key []) t.toList = some ([],.value tag key t.toList) := run_value tag key ht
  have hparts := run_append h hvalue
  rwa [List.append_nil,← String.toList_append] at hparts

/-- An element goes on up to its end, if nothing in its text ends it. -/
theorem Leads.append_raw {name : String} (back : String) (h : Leads s parts (.raw name.toList attributes [] []))
    (hname : IsTagName name.toList) (hfree : IsFree name.toList t.toList)
    (hcomment : name = "script" → ¬ "<!--".toList <:+: t.toList)
    (hback : back = String.ofList (ending name.toList ++ '>' :: cs)) (hrest : run (.text []) cs = some (parts',r)) :
    Leads (s ++ t ++ back) (parts ++ .raw name attributes t :: parts') r := by
  have hfree' : IsFree name.toList ([] ++ t.toList) := hfree
  obtain ⟨taken,pending,hrun,htext,hp⟩ : ∃ taken pending, run (.raw name.toList attributes [] []) t.toList =
    some ([],.raw name.toList attributes taken pending) ∧ taken ++ pending = [] ++ [] ++ t.toList ∧
      IsPartial name.toList pending := run_raw hfree' (isPartial_nil name.toList)
  rw [List.append_nil,List.nil_append] at htext
  have hcomment' : name.toList = "script".toList → ¬ "<!--".toList <:+: taken ++ pending := fun h =>
    htext ▸ hcomment (String.toList_inj.1 h)
  have hend : run (.raw name.toList attributes taken pending) (ending name.toList ++ ['>']) =
    some ([.raw (String.ofList name.toList) attributes (String.ofList (taken ++ pending))],.text []) :=
      run_ending hname hp hcomment'
  rw [htext,String.ofList_toList,String.ofList_toList] at hend
  have hparts := run_append h (run_append hrun (run_append hend hrest))
  rw [Leads,hback,String.toList_append,String.toList_append,String.toList_ofList,List.append_assoc,
    List.append_cons (ending name.toList)]
  exact hparts

/-- No element ends in a text without less-than signs. -/
theorem Leads.append_plain {name : String} (back : String) (h : Leads s parts (.raw name.toList attributes [] []))
    (hname : IsTagName name.toList) (ht : '<' ∉ t.toList)
    (hback : back = String.ofList (ending name.toList ++ '>' :: cs)) (hrest : run (.text []) cs = some (parts',r)) :
    Leads (s ++ t ++ back) (parts ++ .raw name attributes t :: parts') r :=
  h.append_raw back hname (isFree_of_not_mem name.toList ht) (fun _ hcomment => ht (hcomment.mem (by decide)))
    hback hrest

/-- A page that leads to a text between tags has been read. -/
theorem Leads.read (h : Leads s parts (.text cs)) : read s = some (parts ++ flush cs) := by
  rw [Markup.read,h]
  rfl

end Leads

end PreviewCompiler.Markup
