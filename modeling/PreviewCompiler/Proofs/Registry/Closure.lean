import PreviewCompiler.Proofs.Compile.Linked
import PreviewCompiler.Proofs.Compile.SameFiles
import PreviewCompiler.Proofs.Registry.Commit

namespace PreviewCompiler

open Data Script

namespace Template

variable {fs : FileSet} {redirects : Redirects} {options : TransformOptions} {path content : String} {t : Template}

/-- A script that is not blank is read, lowered, linked and printed. -/
theorem exists_linked_program {isTyped hasMarkup : Bool} (hkind : SourceKind.ofPath path = .script isTyped hasMarkup)
    (hblank : Text.allBlank content.toList = false) (h : compile fs redirects options path content = .ok t) :
    ∃ p p', Program.read ⟨isTyped,hasMarkup⟩ content.toList = .ok p ∧
      Surroundings.linkProgram ⟨path,fs,redirects⟩ (p.lower ⟨isTyped,hasMarkup⟩ options) = .ok (p',t.links) ∧
      t.text = p'.print options.minify := by
  simp only [compile,hkind] at h
  obtain ⟨⟨text,links⟩,htext,hret⟩ := bind_eq_ok h
  obtain rfl := Except.ok.inj hret
  simp only [ofScript,hblank,Bool.false_eq_true,if_false] at htext
  cases hread : Program.read ⟨isTyped,hasMarkup⟩ content.toList with
  | error f =>
    rw [hread] at htext
    contradiction
  | ok p =>
    rw [hread] at htext
    obtain ⟨⟨p',links'⟩,hlink,hret'⟩ := bind_eq_ok htext
    obtain ⟨rfl,rfl⟩ := Prod.mk.inj (Except.ok.inj hret')
    exact ⟨p,p',rfl,hlink,rfl⟩

end Template

namespace Commit

variable {c : Commit} {todo : StagedBuild} {p : String}

theorem isSome_references_refer (m : StagedModule) (h : (OrderedMap.find? p c.references).isSome = true) :
    (OrderedMap.find? p (c.refer m).references).isSome = true := by
  by_cases hp : p = m.path
  · rw [hp,references_refer_self]
    rfl
  · rwa [references_refer_of_ne c hp]

/-- Every module of a build has a reference as soon as all have been referred to. -/
theorem isSome_references_foldl_refer (hp : p ∈ todo.paths ∨ (OrderedMap.find? p c.references).isSome = true) :
    (OrderedMap.find? p (todo.foldl refer c).references).isSome = true := by
  induction todo generalizing c with
  | nil => exact hp.resolve_left List.not_mem_nil
  | cons m todo ih =>
    refine ih ?_
    rcases hp with hp | hp
    · rcases List.mem_cons.1 hp with rfl | hp
      · refine .inr ?_
        rw [references_refer_self]
        rfl
      · exact .inl hp
    · exact .inr (isSome_references_refer m hp)

theorem references_foldl_register (c : Commit) (todo : StagedBuild) :
    (todo.foldl register c).references = c.references := by
  induction todo generalizing c with
  | nil => rfl
  | cons m todo ih => rw [List.foldl_cons,ih,references_register]

end Commit

namespace Registry

private theorem map_eq_map_some {α β : Type} {f : α → Option β} {as : List α} (h : ∀ a ∈ as, (f a).isSome = true) :
    as.map f = (as.filterMap f).map some := by
  induction as with
  | nil => rfl
  | cons a as ih =>
    obtain ⟨b,hb⟩ := Option.isSome_iff_exists.1 (h a List.mem_cons_self)
    rw [List.filterMap_cons_some hb,List.map_cons,List.map_cons,hb,ih fun a ha => h a (List.mem_cons_of_mem _ ha)]

/-- The code of a module is made with a reference for each module that it imports. -/
theorem exists_references_of_staged {b : StagedBuild} {m : StagedModule} (r : Registry) (before : StagedBuild)
    (hd : ∀ d ∈ m.template.links.modules, d ∈ b.paths) :
    let c := before.foldl Commit.register (r.referred b)
    ∃ refs : List Reference,
      m.template.links.modules.map (fun d => OrderedMap.find? d c.references) = refs.map some ∧
      c.finalCode m.template = substitute m.template.text (refs.map Reference.text) := by
  intro c
  have hsome (d : String) (hdm : d ∈ m.template.links.modules) : (OrderedMap.find? d c.references).isSome = true := by
    rw [Commit.references_foldl_register]
    exact Commit.isSome_references_foldl_refer (.inl (hd d hdm))
  let refs := m.template.links.modules.filterMap fun d => OrderedMap.find? d c.references
  have hrefs : m.template.links.modules.map (fun d => OrderedMap.find? d c.references) = refs.map some :=
    map_eq_map_some hsome
  refine ⟨refs,hrefs,congrArg (substitute m.template.text) ?_⟩
  have htexts := congrArg (List.map fun ref : Option Reference => (ref.map Reference.text).getD "") hrefs
  simpa only [List.map_map,Function.comp_def,Option.map_some,Option.getD_some] using htexts

/-- A staged build holds the module files of its snapshot, one module each in ascending order, with everything that a
module imports.  A placeholder that linking has put into a module has the number of one of its imports, and when the
build is committed, whatever has been registered before, each of these has a reference. -/
theorem stage_is_closed (fs : FileSet) (redirects : Redirects) (options : TransformOptions) (b : StagedBuild)
    (ho : OrderedMap.IsOrdered fs) (h : fs.stage redirects options = .ok b) :
    b.paths.Pairwise (· < ·) ∧
    (∀ path, path ∈ b.paths ↔ fs.IsModuleFile path) ∧
    (∀ m ∈ b, m.template.links.modules.Nodup ∧ ∀ d ∈ m.template.links.modules, d ∈ b.paths) ∧
    (∀ m ∈ b, ∃ content, (m.path,content) ∈ fs.modules ∧ ∀ isTyped hasMarkup,
      SourceKind.ofPath m.path = .script isTyped hasMarkup → Text.allBlank content.toList = false →
      ∃ p p', Program.read ⟨isTyped,hasMarkup⟩ content.toList = .ok p ∧
        let lowered := p.lower ⟨isTyped,hasMarkup⟩ options
        let s : Surroundings := ⟨m.path,fs,redirects⟩
        s.linkProgram lowered = .ok (p',m.template.links) ∧ m.template.text = p'.print options.minify ∧
        List.Forall₂ (s.DiffersByLinks m.template.links)
          (lowered.module.body.filter fun n => !Surroundings.namesStyles n) p'.module.body) ∧
    ∀ (r : Registry) (before after : StagedBuild) (m : StagedModule), b = before ++ m :: after →
      let c := before.foldl Commit.register (r.referred b)
      (∃ refs : List Reference,
        m.template.links.modules.map (fun d => OrderedMap.find? d c.references) = refs.map some ∧
        c.finalCode m.template = substitute m.template.text (refs.map Reference.text)) ∧
      (r.commit b).1 = (after.foldl Commit.register (c.register m)).registry := by
  have hstaged : b.IsStaged := ⟨fs,redirects,options,ho,h⟩
  refine ⟨hstaged.pairwise_paths,fun path => FileSet.mem_paths_of_stage ho h,fun m hm => ?_,fun m hm => ?_,
    fun r before after m hb => ?_⟩
  · obtain ⟨f,-,hf,-⟩ := FileSet.exists_of_mem_stage h hm
    refine ⟨?_,fun d => hstaged.mem_paths_of_link hm⟩
    exact (Template.of_compile_of_keeps (Surroundings.keeps_nodup_link ⟨f.1,fs,redirects⟩) List.nodup_nil hf).2.2
  · obtain ⟨⟨path,content⟩,hfile,hf,-⟩ := FileSet.exists_of_mem_stage h hm
    obtain rfl : m.path = path := (Template.of_compile hf).1
    refine ⟨content,hfile,fun isTyped hasMarkup hkind hblank => ?_⟩
    obtain ⟨p,p',hread,hlink,htext⟩ := Template.exists_linked_program hkind hblank hf
    exact ⟨p,p',hread,hlink,htext,(Surroundings.linksTo_of_linkProgram hlink).imp fun _ _ hn => hn.differsByLinks⟩
  · refine ⟨exists_references_of_staged r before fun d hd => hstaged.mem_paths_of_link ?_ hd,?_⟩
    · rw [hb]
      exact List.mem_append_right _ List.mem_cons_self
    · rw [commit_eq,hb,List.foldl_append,List.foldl_cons]

/-- Two modules import each other, one of them from the index file of a directory. -/
theorem stage_is_closed_of_cycle :
    let fs : FileSet := .ofFiles
      [("/App.tsx","import { a } from './lib'; export const b = () => a;"),("/index.html",""),("/data.json","[1]"),
        ("/lib/index.js","import '../App'; import data from '../data.json'; export const a = data;")]
    ∃ b, fs.stage {} {} = .ok b ∧ b.map (fun m => (m.path,m.template.links.modules)) =
      [("/App.tsx",["/lib/index.js"]),("/data.json",[]),("/lib/index.js",["/App.tsx","/data.json"])] ∧
    ∀ (r : Registry) (before after : StagedBuild) (m : StagedModule), b = before ++ m :: after →
      let c := before.foldl Commit.register (r.referred b)
      ∃ refs : List Reference,
        m.template.links.modules.map (fun d => OrderedMap.find? d c.references) = refs.map some ∧
        c.finalCode m.template = substitute m.template.text (refs.map Reference.text) := by
  intro fs
  have ho : OrderedMap.IsOrdered fs := by decide +kernel
  obtain ⟨b,hb,himports⟩ := exists_eq_ok (x := fs.stage {} {})
    (p := fun b => decide (b.map (fun m => (m.path,m.template.links.modules)) =
      [("/App.tsx",["/lib/index.js"]),("/data.json",[]),("/lib/index.js",["/App.tsx","/data.json"])]))
    (by decide +kernel)
  refine ⟨b,hb,of_decide_eq_true himports,fun r before after m hcut => ?_⟩
  exact ((stage_is_closed fs {} {} b ho hb).2.2.2.2 r before after m hcut).1

end Registry

end PreviewCompiler
