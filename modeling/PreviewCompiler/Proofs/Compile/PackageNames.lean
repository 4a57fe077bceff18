import PreviewCompiler.Proofs.Compile.Packages
import PreviewCompiler.Proofs.Package.Text

namespace PreviewCompiler

open Data Script

namespace PackageSpec

/-- The name of a package is how a text that names it starts. -/
theorem name_of_parse? {s : String} {p : PackageSpec} (h : parse? s = some p) :
    p.name.toList <+: s.toList ∧ p.name.toList ≠ [] ∧ p.name.toList ≠ ['@'] := by
  obtain ⟨-,subpath,hs,hcan,-⟩ := parse?_eq_some_iff_cut.1 h
  rw [hs,List.append_assoc]
  exact ⟨List.prefix_append _ _,hcan.ne_nil,hcan.ne_at⟩

/-- Is a package one that some specifier names? -/
def IsNamed (p : PackageSpec) : Prop :=
  ∃ specifier, Resolution.isLocal specifier = false ∧ parse? specifier = some p

theorem prefix_name_of_prefix_bare {front : List Char} {p : PackageSpec} (h : front <+: p.bare.toList)
    (hlength : front.length ≤ p.name.toList.length) : front <+: p.name.toList := by
  rw [bare,String.toList_append] at h
  exact List.prefix_of_prefix_length_le h (List.prefix_append _ _) hlength

/-- No package is named like a file of the project. -/
theorem IsNamed.not_hasFront_bare {p : PackageSpec} (h : p.IsNamed) :
    Text.hasFront "/" p.bare = false ∧ Text.hasFront "@/" p.bare = false := by
  obtain ⟨specifier,hlocal,hp⟩ := h
  obtain ⟨hparsed,hne,hat⟩ := name_of_parse? hp
  have hfronts : ∀ front ∈ ["@/","./","../","/"], ¬ front.toList <+: p.name.toList := by
    intro front hfront hname
    have hany : ["@/","./","../","/"].any (Text.hasFront · specifier) = true :=
      List.any_eq_true.2 ⟨front,hfront,List.isPrefixOf_iff_prefix.2 (hname.trans hparsed)⟩
    rw [Resolution.isLocal,hany] at hlocal
    contradiction
  have hlength : p.name.toList.length ≠ 0 := fun h => hne (List.length_eq_zero_iff.1 h)
  refine ⟨Bool.eq_false_iff.2 fun h => ?_,Bool.eq_false_iff.2 fun h => ?_⟩
  · refine hfronts "/" (by decide) (prefix_name_of_prefix_bare (List.isPrefixOf_iff_prefix.1 h) ?_)
    exact Nat.one_le_iff_ne_zero.2 hlength
  · have h := List.isPrefixOf_iff_prefix.1 h
    have hfirst := prefix_name_of_prefix_bare ((List.prefix_append ['@'] ['/']).trans h)
      (Nat.one_le_iff_ne_zero.2 hlength)
    obtain ⟨rest,hrest⟩ := hfirst
    refine hfronts "@/" (by decide) (prefix_name_of_prefix_bare h ?_)
    cases rest with
    | nil => exact absurd hrest.symm hat
    | cons c rest =>
      rw [← hrest]
      exact Nat.le_add_left 2 rest.length

end PackageSpec

theorem Resolution.isNamed_of_resolve {fs : FileSet} {specifier importer : String} {q : PackageSpec}
    (h : resolve fs specifier importer = .package q) : q.IsNamed := by
  unfold resolve at h
  split at h
  · split at h <;> contradiction
  · rename_i hlocal
    split at h
    · rename_i hp
      obtain rfl := Resolution.package.inj h
      exact ⟨specifier,Bool.eq_false_iff.2 hlocal,hp⟩
    · contradiction

/-- Does some specifier name each linked package? -/
def Links.NamesPackages (links : Links) : Prop := ∀ p ∈ links.packages, p.IsNamed

theorem Surroundings.keeps_namesPackages_link (s : Surroundings) (specifier : String) :
    Linking.Keeps Links.NamesPackages (Option String) (s.link specifier) := by
  have hc := Linking.composes_keeps Links.NamesPackages
  unfold link
  split
  · exact hc.pure _
  · split
    · split
      · refine hc.bind (Linking.keeps_modifyGet fun links hI p hp => ?_) fun i => hc.pure _
        rw [Links.packages_indexOf] at hp
        exact hI p hp
      · exact Linking.keeps_throw_bind _ _
    · rename_i q hq
      refine hc.bind (Linking.keeps_modify fun links hI p hp => ?_) fun _ => hc.pure _
      rcases PackageSpec.mem_insert_iff.1 hp with rfl | hp
      · exact Resolution.isNamed_of_resolve hq
      · exact hI p hp
    · exact Linking.keeps_throw _

theorem StagedBuild.IsStaged.isNamed {b : StagedBuild} {m : StagedModule} {p : PackageSpec} (h : b.IsStaged)
    (hm : m ∈ b) (hp : p ∈ m.template.links.packages) : p.IsNamed := by
  obtain ⟨fs,redirects,options,-,hb⟩ := h
  obtain ⟨f,-,hcompile,-⟩ := FileSet.exists_of_mem_stage hb hm
  have hnames : m.template.links.NamesPackages := (Template.of_compile_of_keeps
    (Surroundings.keeps_namesPackages_link ⟨f.1,fs,redirects⟩) (fun _ h => absurd h List.not_mem_nil) hcompile).2.2
  exact hnames p hp

end PreviewCompiler
