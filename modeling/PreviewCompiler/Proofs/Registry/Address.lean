import PreviewCompiler.Proofs.Registry.FinalCode
import PreviewCompiler.Proofs.Registry.Minting

namespace PreviewCompiler

open Data

namespace Text

variable {pattern cs front back : List Char}

/-- A text is cut at the first occurrence of a pattern. -/
theorem cutAt?_eq_some_iff : cutAt? pattern cs = some (front,back) ↔
    cs = front ++ pattern ++ back ∧ ∀ before, before ++ pattern <+: cs → front.length ≤ before.length := by
  induction cs generalizing front back with
  | nil =>
    rw [cutAt?]
    cases pattern with
    | nil => simp +contextual [eq_comm]
    | cons x pattern => simp
  | cons c cs ih =>
    rw [cutAt?]
    by_cases hp : pattern.isPrefixOf (c :: cs) = true
    · rw [if_pos hp,Option.some_inj,Prod.mk.injEq]
      obtain ⟨rest,hrest⟩ := List.isPrefixOf_iff_prefix.1 hp
      rw [← hrest,List.drop_left]
      constructor
      · rintro ⟨rfl,rfl⟩
        exact ⟨rfl,fun _ _ => Nat.zero_le _⟩
      · rintro ⟨heq,hfirst⟩
        obtain rfl := List.eq_nil_of_length_eq_zero (Nat.le_zero.1 (hfirst [] (List.prefix_append ..)))
        exact ⟨rfl,List.append_cancel_left heq⟩
    · rw [if_neg hp,Option.map_eq_some_iff]
      have hnot : ¬ pattern <+: c :: cs := fun h => hp (List.isPrefixOf_iff_prefix.2 h)
      constructor
      · rintro ⟨⟨front',back'⟩,hcut,heq⟩
        obtain ⟨rfl,rfl⟩ := Prod.mk.inj heq
        obtain ⟨rfl,hfirst⟩ := ih.1 hcut
        refine ⟨rfl,fun before hbefore => ?_⟩
        cases before with
        | nil => exact absurd hbefore hnot
        | cons d before => exact Nat.succ_le_succ (hfirst before (List.cons_prefix_cons.1 hbefore).2)
      · rintro ⟨heq,hfirst⟩
        cases front with
        | nil => exact absurd ⟨back,heq.symm⟩ hnot
        | cons d front =>
          obtain ⟨rfl,hcs⟩ := List.cons.inj heq
          refine ⟨(front,back),ih.2 ⟨hcs,fun before hbefore => ?_⟩,rfl⟩
          exact Nat.le_of_succ_le_succ (hfirst (c :: before) (List.cons_prefix_cons.2 ⟨rfl,hbefore⟩))

end Text

namespace Reference

/-- Does no mark of a reference stand in a text before the end of `origin`, with which it starts? -/
def IsOrigin (origin address : String) : Prop :=
  ∀ before, before ++ front.toList <+: (origin ++ address).toList → origin.toList.length ≤ before.length

variable {origin origin' : String} {ref ref' : Reference}

/-- What an address is made of behind the mark. -/
def back (ref : Reference) : List Char := ref.space.toList ++ '/' :: ((toString ref.id).toList ++ ".js".toList)

theorem isOrigin_iff : IsOrigin origin ref.text ↔
    Text.cutAt? front.toList (origin ++ ref.text).toList = some (origin.toList,ref.back) := by
  rw [Text.cutAt?_eq_some_iff,String.toList_append,toList_text,List.append_assoc,IsOrigin,String.toList_append,
    toList_text]
  exact (and_iff_right rfl).symm

/-- An address is cut off in one way. -/
theorem eq_of_isOrigin (h : IsOrigin origin ref.text) (h' : IsOrigin origin' ref'.text)
    (heq : origin ++ ref.text = origin' ++ ref'.text) : ref = ref' := by
  have hcut := isOrigin_iff.1 h
  rw [heq,isOrigin_iff.1 h'] at hcut
  obtain ⟨horigin,-⟩ := Prod.mk.inj (Option.some.inj hcut)
  rw [String.toList_inj.1 horigin] at heq
  have htext := congrArg String.toList heq
  rw [String.toList_append,String.toList_append,List.append_cancel_left_eq] at htext
  exact text_injective (String.toList_inj.1 htext)

end Reference

namespace Registry

open Reference (IsOrigin)

variable {r : Registry} {url path space : String} {ref : Reference} {calls : List RegistryCall}

/-- Is a text the address of a module behind something that has no mark of a reference in front of it? -/
def Denotes (r : Registry) (url path : String) : Prop :=
  ∃ origin ref, url = origin ++ ref.text ∧ IsOrigin origin ref.text ∧ r.reference? path = some ref

theorem Sound.isLive_of_reference? (h : r.Sound) (href : r.reference? path = some ref) :
    r.blobs.isLive ref = true := by
  obtain ⟨m,hm,rfl⟩ := Option.map_eq_some_iff.1 href
  exact h.isLive hm

/-- No two modules are denoted by one text. -/
theorem Sound.path_eq_of_denotes {path' : String} (h : r.Sound) (hpath : r.Denotes url path)
    (hpath' : r.Denotes url path') : path = path' := by
  obtain ⟨origin,ref,rfl,horigin,href⟩ := hpath
  obtain ⟨origin',ref',heq,horigin',href'⟩ := hpath'
  obtain rfl := Reference.eq_of_isOrigin horigin horigin' heq
  obtain ⟨m,hm,hmref⟩ := Option.map_eq_some_iff.1 href
  obtain ⟨m',hm',hmref'⟩ := Option.map_eq_some_iff.1 href'
  exact h.path_eq hm hm' (by rw [hmref,hmref'])

/-- What is found for a text is the module that it denotes. -/
theorem Sound.denotes_of_pathOf? (h : r.Sound) (hpath : r.pathOf? url = some path) : r.Denotes url path := by
  simp only [pathOf?,Option.bind_eq_bind,Option.bind_eq_some_iff,Prod.exists] at hpath
  obtain ⟨before,back,hcut,hfind⟩ := hpath
  obtain ⟨⟨p,m⟩,hm,rfl⟩ := Option.map_eq_some_iff.1 hfind
  have htest := List.find?_some hm
  have htext : m.reference.text = Reference.front ++ String.ofList back := beq_iff_eq.1 htest
  have hmod : r.module? p = some m :=
    (OrderedMap.find?_eq_some_iff h.ordered).2 (List.mem_of_find?_eq_some hm)
  have hurl : url = String.ofList before ++ m.reference.text := by
    rw [← String.toList_inj,String.toList_append,htext,String.toList_append,String.toList_ofList,
      String.toList_ofList,← List.append_assoc]
    exact (Text.cutAt?_eq_some_iff.1 hcut).1
  refine ⟨String.ofList before,m.reference,hurl,?_,congrArg (Option.map CompiledModule.reference) hmod⟩
  rw [IsOrigin,← hurl,String.toList_ofList]
  exact (Text.cutAt?_eq_some_iff.1 hcut).2

theorem Sound.pathOf?_eq_some_iff (h : r.Sound) : r.pathOf? url = some path ↔ r.Denotes url path := by
  refine ⟨h.denotes_of_pathOf?,fun hdenotes => ?_⟩
  obtain ⟨origin,ref,hurl,horigin,href⟩ := id hdenotes
  obtain ⟨m,hm,rfl⟩ := Option.map_eq_some_iff.1 href
  have hback : Reference.front ++ String.ofList m.reference.back = m.reference.text := by
    rw [← String.toList_inj,String.toList_append,String.toList_ofList,Reference.toList_text]
    rfl
  have hsome : (List.find? (fun e => e.2.reference.text == m.reference.text) r.modules).isSome = true :=
    List.find?_isSome.2 ⟨(path,m),OrderedMap.mem_of_find? hm,beq_self_eq_true _⟩
  have hpath : (r.pathOf? url).isSome = true := by
    simp only [pathOf?,hurl,Reference.isOrigin_iff.1 horigin,Option.bind_eq_bind,Option.bind_some,hback,
      Option.isSome_map]
    exact hsome
  obtain ⟨found,hfound⟩ := Option.isSome_iff_exists.1 hpath
  rw [hfound,h.path_eq_of_denotes (h.denotes_of_pathOf? hfound) hdenotes]

theorem Sound.pathOf?_append_eq_some_iff (h : r.Sound) {origin : String} (horigin : IsOrigin origin ref.text) :
    r.pathOf? (origin ++ ref.text) = some path ↔ r.reference? path = some ref := by
  rw [h.pathOf?_eq_some_iff]
  constructor
  · rintro ⟨origin',ref',heq,horigin',href⟩
    rwa [Reference.eq_of_isOrigin horigin horigin' heq]
  · exact fun href => ⟨origin,ref,rfl,horigin,href⟩

/-- A reference that was live and is not any more is not live later. -/
theorem isLive_eq_false_of_released {before between : List RegistryCall} (after : List RegistryCall)
    (hlive : ((empty space).run before).blobs.isLive ref = true)
    (hgone : ((empty space).run (before ++ between)).blobs.isLive ref = false) :
    ((empty space).run (before ++ between ++ after)).blobs.isLive ref = false := by
  have hevolves : ∀ calls more : List RegistryCall,
      ((empty space).run calls).blobs.Evolves ((empty space).run (calls ++ more)).blobs := fun calls more => by
    rw [show (empty space).run (calls ++ more) = ((empty space).run calls).run more from List.foldl_append,
      ((empty space).run calls).blobs_run more]
    exact BlobStore.evolves_run _ _
  have hvalid : ((empty space).run before).blobs.Valid := by
    rw [blobs_run]
    exact (BlobStore.valid_empty space).run _
  have hkey : ∀ b : BlobStore, b.isLive ref = true ↔ ref.text ∈ b.live.keys := fun b =>
    OrderedMap.contains_iff_mem_keys
  rw [Bool.eq_false_iff,Ne,hkey] at hgone ⊢
  exact (hevolves before between).not_mem_keys (hevolves (before ++ between) after) hvalid ((hkey _).1 hlive) hgone

/-- An address is attributed to the module that it denotes, and to no other one: behind any origin without a mark of its
own it is attributed to the module that has it, if its space is that of the registry and it has not been released. -/
theorem module_of_address (space : String) (calls : List RegistryCall) (hcalls : ∀ c ∈ calls, c.IsStaged) :
    let r := (empty space).run calls
    (∀ url path, r.pathOf? url = some path ↔ r.Denotes url path) ∧
    (∀ url path path', r.Denotes url path → r.Denotes url path' → path = path') ∧
    ∀ (origin : String) (ref : Reference), IsOrigin origin ref.text →
      (∀ path, r.reference? path = some ref → r.pathOf? (origin ++ ref.text) = some path) ∧
      (ref.space ≠ space → r.pathOf? (origin ++ ref.text) = none) ∧
      ∀ before between after, calls = before ++ between ++ after →
        ((empty space).run before).blobs.isLive ref = true →
        ((empty space).run (before ++ between)).blobs.isLive ref = false → r.pathOf? (origin ++ ref.text) = none := by
  intro r
  have hsound : r.Sound := (sound_empty space).run hcalls
  refine ⟨fun url path => hsound.pathOf?_eq_some_iff,fun url path path' => hsound.path_eq_of_denotes,
    fun origin ref horigin => ?_⟩
  have hiff : ∀ path, r.pathOf? (origin ++ ref.text) = some path ↔ r.reference? path = some ref := fun path =>
    hsound.pathOf?_append_eq_some_iff horigin
  refine ⟨fun path => (hiff path).2,fun hspace => ?_,fun before between after heq hlive hgone => ?_⟩
  · refine Option.eq_none_iff_forall_ne_some.2 fun path hpath => hspace ?_
    rw [hsound.space_of_reference? ((hiff path).1 hpath),space_run]
    rfl
  · refine Option.eq_none_iff_forall_ne_some.2 fun path hpath => ?_
    have hnow : r.blobs.isLive ref = true := hsound.isLive_of_reference? ((hiff path).1 hpath)
    have hlater := isLive_eq_false_of_released after hlive hgone
    rw [← heq] at hlater
    exact absurd (hnow.symm.trans hlater) (by decide)

/-- The mark stands in the space of the registry as well, and one of two modules that import each other is released. -/
theorem module_of_address_of_nested_mark :
    let space := "a/@blob/t"
    let staged : StagedBuild := (FileSet.stage
      [("/a.js",.file "import './b.js'"),("/b.js",.file "import './a.js'")] {} {}).toOption.getD []
    let calls := [RegistryCall.commit staged,.release "/b.js"]
    let r := (empty space).run calls
    let url := fun (ref : Reference) => "http://localhost:5173" ++ ref.text
    r.reference? "/a.js" = some ⟨space,1⟩ ∧ r.pathOf? (url ⟨space,1⟩) = some "/a.js" ∧
    r.pathOf? (url ⟨space,2⟩) = none ∧ r.pathOf? (url ⟨"t",1⟩) = none := by
  intro space staged calls r url
  have hstaged : staged.IsStaged := StagedBuild.isStaged_of_isOk (by decide +kernel) (by decide +kernel)
  have hcalls : ∀ c ∈ calls, c.IsStaged := by
    simp only [calls,List.forall_mem_cons]
    exact ⟨hstaged,trivial,fun _ hm => absurd hm List.not_mem_nil⟩
  have horigin : ∀ ref ∈ [(⟨space,1⟩ : Reference),⟨space,2⟩,⟨"t",1⟩], IsOrigin "http://localhost:5173" ref.text := by
    intro ref href
    refine Reference.isOrigin_iff.2 ?_
    revert ref
    decide +kernel
  have href : r.reference? "/a.js" = some ⟨space,1⟩ := by decide +kernel
  obtain ⟨-,-,h⟩ := module_of_address space calls hcalls
  obtain ⟨hfound,-⟩ := h _ _ (horigin ⟨space,1⟩ (by simp))
  obtain ⟨-,-,hreleased⟩ := h _ _ (horigin ⟨space,2⟩ (by simp))
  obtain ⟨-,hother,-⟩ := h _ _ (horigin ⟨"t",1⟩ (by simp))
  refine ⟨href,hfound "/a.js" href,?_,hother (by decide)⟩
  exact hreleased [.commit staged] [.release "/b.js"] [] rfl (by decide +kernel) (by decide +kernel)

end Registry

end PreviewCompiler
