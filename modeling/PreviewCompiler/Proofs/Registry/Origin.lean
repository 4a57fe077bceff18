import PreviewCompiler.Proofs.Registry.Run
import Mathlib.Data.List.Induction

namespace PreviewCompiler.Registry

open Data

/-- Has a module been registered at a path by one of some calls? -/
def RegisteredBy (space : String) (calls : List RegistryCall) (path : String) (c : CompiledModule) : Prop :=
  ∃ before staged after m ref, calls = before ++ .commit staged :: after ∧ m ∈ staged ∧ m.path = path ∧
    c = .ofStaged m (substitute m.template.text
      (((empty space).run (before ++ [.commit staged])).targets m.template.links.modules)) ref

variable {space path : String} {calls : List RegistryCall} {c : CompiledModule}

theorem run_append_singleton (r : Registry) (calls : List RegistryCall) (call : RegistryCall) :
    r.run (calls ++ [call]) = (r.run calls).call call := List.foldl_append

theorem RegisteredBy.append (h : RegisteredBy space calls path c) (more : List RegistryCall) :
    RegisteredBy space (calls ++ more) path c := by
  obtain ⟨before,staged,after,m,ref,rfl,h⟩ := h
  exact ⟨before,staged,after ++ more,m,ref,by rw [List.append_assoc,List.cons_append],h⟩

theorem registeredBy_of_commit {staged : StagedBuild} (hsound : ((empty space).run calls).Sound) (hs : staged.IsStaged)
    (hold : ∀ old, ((empty space).run calls).module? path = some old → RegisteredBy space calls path old)
    (h : (((empty space).run calls).commit staged).1.module? path = some c) :
    RegisteredBy space (calls ++ [.commit staged]) path c := by
  have hn := hs.nodup_paths
  have hp : path ∈ staged.paths := (contains_commit hsound hn).1 (congrArg Option.isSome h)
  obtain ⟨m,hm,rfl⟩ := StagedBuild.mem_paths.1 hp
  obtain ⟨ref,rfl⟩ | ⟨-,hbefore,-⟩ := module?_commit_cases hsound hn hm h
  · refine ⟨calls,staged,[],m,ref,rfl,hm,rfl,?_⟩
    rw [run_append_singleton]
    rfl
  · exact (hold c hbefore).append _

theorem registeredBy_of_run (hcalls : ∀ c ∈ calls, c.IsStaged) (h : ((empty space).run calls).module? path = some c) :
    RegisteredBy space calls path c := by
  induction calls using List.reverseRecOn generalizing c with
  | nil => contradiction
  | append_singleton calls call ih =>
    have hbefore : ∀ c ∈ calls, c.IsStaged := fun c hc => hcalls c (List.mem_append_left _ hc)
    have hlast := hcalls call (List.mem_append_right _ List.mem_cons_self)
    have hsound : ((empty space).run calls).Sound := (sound_empty space).run hbefore
    rw [run_append_singleton] at h
    cases call with
    | commit staged => exact registeredBy_of_commit hsound hlast (fun _ hold => ih hbefore hold) h
    | release p =>
      refine RegisteredBy.append (ih hbefore ?_) _
      cases hr : ((empty space).run calls).release p with
      | none =>
        simp only [call,hr] at h
        exact h
      | some r' =>
        simp only [call,hr] at h
        change r'.module? path = some c at h
        rw [module?_of_release hr] at h
        split at h
        · contradiction
        · exact h
    | releaseAll => contradiction

/-- A snapshot that is compiled after some calls is committed as one more call. -/
theorem exists_staged_of_recompileAll {r' : Registry} {summary : CommitSummary} {fs : FileSet} {redirects : Redirects}
    {options : TransformOptions}
    (h : ((empty space).run calls).recompileAll fs redirects options = .ok (r',summary)) :
    ∃ staged, fs.stage redirects options = .ok staged ∧ r' = (((empty space).run calls).commit staged).1 := by
  obtain ⟨staged,hstaged,hcommit⟩ := map_eq_ok h
  exact ⟨staged,hstaged,(congrArg Prod.fst hcommit).symm⟩

end PreviewCompiler.Registry
