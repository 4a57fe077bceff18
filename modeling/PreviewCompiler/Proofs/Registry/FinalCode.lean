import PreviewCompiler.Proofs.Compile.Placeholder
import PreviewCompiler.Proofs.Registry.Origin

namespace PreviewCompiler

open Data Script

/-- The text of a reference holds a placeholder only if its space does, and none reaches over its ends. -/
theorem Reference.fenced {i : Nat} {ref : Reference} (h : ¬ (placeholder i).toList <:+: ref.space.toList) :
    Text.Fenced (placeholder i).toList ref.text.toList := by
  have hnot (x : Char) (hx : x ∉ placeholderFront.toList ∧ ¬ x.isDigit = true) : x ∉ (placeholder i).toList :=
    fun hm => (mem_placeholder hm).elim hx.1 hx.2
  refine ⟨⟨'/',_,toList_text ref,hnot _ (by decide)⟩,⟨front.toList ++ (ref.space.toList ++ '/' ::
    ((toString ref.id).toList ++ ".j".toList)),'s',?_,hnot _ (by decide)⟩,fun hin => ?_⟩
  · rw [toList_text,(by decide : ".js".toList = ".j".toList ++ ['s'])]
    simp only [List.append_assoc,List.cons_append]
  · have hline : '_' ∈ (placeholder i).toList := by
      rw [placeholder,String.toList_append]
      exact List.mem_append_right _ (by decide)
    have hdigits : '_' ∉ (toString ref.id).toList ++ ".js".toList := fun hm => (List.mem_append.1 hm).elim
      (fun hm => absurd (Text.isDigit_of_mem_toString hm) (by decide)) (by decide)
    have hfront : front.toList = "/@blob".toList ++ '/' :: [] := by decide
    rw [toList_text,hfront,List.append_assoc,List.cons_append,List.nil_append,
      Text.infix_append_cons_iff (hnot _ (by decide)),Text.infix_append_cons_iff (hnot _ (by decide))] at hin
    rcases hin with hin | hin | hin
    · exact absurd (hin.subset hline) (by decide)
    · exact h hin
    · exact hdigits (hin.subset hline)

namespace Registry

variable {r : Registry} {space path : String} {calls : List RegistryCall} {c : CompiledModule}

/-- The references of a registry are in its space. -/
theorem Sound.space_of_reference? (h : r.Sound) {ref : Reference} (href : r.reference? path = some ref) :
    ref.space = r.blobs.space := by
  obtain ⟨m,hm,rfl⟩ := Option.map_eq_some_iff.1 href
  have hlive := h.isLive hm
  rw [BlobStore.isLive,OrderedMap.contains,Option.isSome_iff_ne_none,Ne,OrderedMap.find?_eq_none_iff,
    Classical.not_not] at hlive
  obtain ⟨id,-,-,hid⟩ := h.valid.given _ hlive
  rw [Reference.text_injective hid]
  rfl

theorem space_run (r : Registry) (calls : List RegistryCall) : (r.run calls).blobs.space = r.blobs.space := by
  rw [blobs_run]
  exact (BlobStore.evolves_run _ _).space

/-- A commit leaves a reference for each module that a staged one imports. -/
theorem exists_reference_of_link {staged : StagedBuild} {m : StagedModule} {d : String} (h : r.Sound)
    (hs : staged.IsStaged) (hm : m ∈ staged) (hd : d ∈ m.template.links.modules) :
    ∃ ref, (r.commit staged).1.reference? d = some ref := by
  have hc := (contains_commit h hs.nodup_paths).2 (hs.mem_paths_of_link hm hd)
  obtain ⟨c,hc⟩ := Option.isSome_iff_exists.1 hc
  exact ⟨c.reference,congrArg (Option.map CompiledModule.reference) hc⟩

/-- The code of a registered script, seen from the commit that has registered it, whatever snapshot has been committed
there: one sketch gives what the script is compiled to under any addresses of its imports, and its template.  It gives
the code as well, with the addresses that the modules have after the commit, exactly if the rest of the text spells no
placeholder of an import. -/
theorem code_of_script {isTyped hasMarkup : Bool} (hcalls : ∀ call ∈ calls, call.IsStaged)
    (h : ((empty space).run calls).module? path = some c)
    (hkind : SourceKind.ofPath path = .script isTyped hasMarkup) :
    ∃ before staged, before ++ [.commit staged] <+: calls ∧
      ∀ (fs : FileSet) (redirects : Redirects) (options : TransformOptions), fs.stage redirects options = .ok staged →
        ∃ (content : String) (sketch : Sketch),
          let text := fun address => Template.scriptText ⟨path,fs,redirects⟩ ⟨isTyped,hasMarkup⟩ options content
            (known c.links.modules address)
          let after := (empty space).run (before ++ [.commit staged])
          (path,content) ∈ fs.modules ∧ sketch.IsOf c.links.modules ∧
          (∀ address, text address = sketch.fill (Write.quoted ∘ address)) ∧
          (∃ m ∈ staged, m.path = path ∧
            m.template.text = sketch.fill fun d => between (placeholder (c.links.modules.idxOf d))) ∧
          ∃ ref : String → Reference, (∀ d ∈ c.links.modules, after.reference? d = some (ref d)) ∧
            (FreeOfPlaceholders c.links.modules.length space →
              (c.code = (sketch.fill fun d => between (ref d).text) ↔
                FreeOfPlaceholders c.links.modules.length (text fun _ => ""))) := by
  obtain ⟨before,staged,rest,m,own,rfl,hm,rfl,rfl⟩ := registeredBy_of_run hcalls h
  have hbefore : ((empty space).run before).Sound :=
    (sound_empty space).run fun call hc => hcalls call (List.mem_append_left _ hc)
  have hs : staged.IsStaged := hcalls _ (List.mem_append_right _ List.mem_cons_self)
  refine ⟨before,staged,⟨rest,by rw [List.append_assoc]; rfl⟩,fun fs redirects options hstage => ?_⟩
  obtain ⟨⟨path,content⟩,hmem,hcompile,-⟩ := FileSet.exists_of_mem_stage hstage hm
  obtain rfl : m.path = path := (Template.of_compile hcompile).1
  obtain ⟨sketch,hof,hfill⟩ := Template.exists_sketch_of_scriptText ⟨m.path,fs,redirects⟩ ⟨isTyped,hasMarkup⟩ options
    content m.template.links.modules
  have htext : m.template.text =
      sketch.fill fun d => between (placeholder (m.template.links.modules.idxOf d)) := by
    rw [Template.text_of_compile hkind hcompile,Surroundings.placeholders,hfill]
    exact Sketch.fill_congr fun d _ => quoted_placeholder _
  have hafter : (empty space).run (before ++ [.commit staged]) = (((empty space).run before).commit staged).1 :=
    run_append_singleton ..
  have hrefs : ∀ d ∈ m.template.links.modules,
      ∃ ref, ((empty space).run (before ++ [.commit staged])).reference? d = some ref := fun d hd => by
    rw [hafter]
    exact exists_reference_of_link hbefore hs hm hd
  have : Nonempty Reference := ⟨own⟩
  choose! ref href using hrefs
  refine ⟨content,sketch,hmem,hof,hfill,⟨m,hm,rfl,htext⟩,ref,href,fun hspace => ?_⟩
  have htargets : ((empty space).run (before ++ [.commit staged])).targets m.template.links.modules =
      m.template.links.modules.map fun d => (ref d).text :=
    List.map_congr_left fun d hd => by rw [href d hd]; rfl
  have hempty : sketch.fill (Write.quoted ∘ fun _ => "") = sketch.fill fun _ => between "" :=
    Sketch.fill_congr fun d _ => quoted_empty
  change substitute m.template.text _ = _ ↔ FreeOfPlaceholders m.template.links.modules.length
    (Template.scriptText _ _ _ _ (known m.template.links.modules fun _ => ""))
  rw [htargets,htext,hfill,hempty]
  refine substitute_fill_iff hof fun d hd i hi => Reference.fenced ?_
  rw [Sound.space_of_reference? (hafter ▸ hbefore.commit hs.nodup_paths) (href d hd),space_run]
  exact hspace i hi

/-- A script with one import that spells the placeholder of a second one. -/
theorem code_of_script_of_import :
    let fs : FileSet := .ofFiles [("/App.js","import './b.js';\nconsole.log('__livepreview_dep_1__');"),("/b.js","")]
    let r := (empty "preview").run [.commit ((fs.stage {} {}).toOption.getD [])]
    ∃ (c : CompiledModule) (sketch : Sketch) (ref : String → Reference), r.module? "/App.js" = some c ∧
      (∀ address, Template.scriptText ⟨"/App.js",fs,{}⟩ ⟨false,true⟩ {}
        "import './b.js';\nconsole.log('__livepreview_dep_1__');" (known ["/b.js"] address) =
          sketch.fill (Write.quoted ∘ address)) ∧
      r.reference? "/b.js" = some (ref "/b.js") ∧ c.code = sketch.fill fun d => between (ref d).text := by
  intro fs r
  have hordered : OrderedMap.IsOrdered fs := by decide +kernel
  have hok : (fs.stage {} {}).isOk = true := by decide +kernel
  have hfiles : fs.modules =
      [("/App.js","import './b.js';\nconsole.log('__livepreview_dep_1__');"),("/b.js","")] := by decide +kernel
  have hlinks : (r.module? "/App.js").map (·.links.modules) = some ["/b.js"] := by decide +kernel
  have hfree : FreeOfPlaceholders 1 (Template.scriptText ⟨"/App.js",fs,{}⟩ ⟨false,true⟩ {}
      "import './b.js';\nconsole.log('__livepreview_dep_1__');" (known ["/b.js"] fun _ => "")) := by
    unfold FreeOfPlaceholders
    decide +kernel
  have hspace : FreeOfPlaceholders 1 "preview" := by
    unfold FreeOfPlaceholders
    decide +kernel
  clear_value fs
  obtain ⟨c,hc,hlinks⟩ := Option.map_eq_some_iff.1 hlinks
  obtain ⟨before,staged,⟨rest,hcalls⟩,hall⟩ := code_of_script (fun call hcall => by
    obtain rfl := List.mem_singleton.1 hcall
    exact StagedBuild.isStaged_of_isOk hordered hok) hc
    (show SourceKind.ofPath "/App.js" = .script false true by decide)
  obtain ⟨rfl,rfl,rfl⟩ : before = [] ∧ staged = (fs.stage {} {}).toOption.getD [] ∧ rest = [] := by
    cases before with
    | nil => simpa using hcalls
    | cons call before => simp at hcalls
  obtain ⟨content,sketch,hmem,-,htext,-,ref,href,hcode⟩ := hall fs {} {} (by
    cases hstage : fs.stage {} {} with
    | error e =>
      rw [hstage] at hok
      contradiction
    | ok staged => rfl)
  obtain rfl : content = "import './b.js';\nconsole.log('__livepreview_dep_1__');" := by
    simpa [hfiles] using hmem
  rw [hlinks] at htext href hcode
  exact ⟨c,sketch,ref,hc,htext,href _ List.mem_cons_self,(hcode hspace).2 hfree⟩

/-- The placeholder that a string spells is replaced in it like that of the import, though the script with the
addresses of its imports keeps it. -/
theorem code_of_spelled_placeholder :
    let fs : FileSet := .ofFiles
      [("/App.js","import './b.js';\nconsole.log(\"__livepreview_dep_0__\");\n"),("/b.js","")]
    let r := (((empty "t").recompileAll fs {} {}).toOption.getD (empty "t",{})).1
    ((empty "t").recompileAll fs {} {}).isOk = true ∧
    (r.module? "/App.js").map (·.code) = some "import \"/@blob/t/2.js\";\nconsole.log(\"/@blob/t/2.js\");\n" ∧
    Template.scriptText ⟨"/App.js",fs,{}⟩ ⟨false,true⟩ {}
      "import './b.js';\nconsole.log(\"__livepreview_dep_0__\");\n" (known ["/b.js"] fun _ => "/@blob/t/2.js") =
        "import \"/@blob/t/2.js\";\nconsole.log(\"__livepreview_dep_0__\");\n" ∧
    ¬ ∀ c ∈ r.module? "/App.js", c.code = Template.scriptText ⟨"/App.js",fs,{}⟩ ⟨false,true⟩ {}
      "import './b.js';\nconsole.log(\"__livepreview_dep_0__\");\n"
      (known c.links.modules fun d => ((r.reference? d).map Reference.text).getD "") := by
  decide +kernel

end Registry

end PreviewCompiler
