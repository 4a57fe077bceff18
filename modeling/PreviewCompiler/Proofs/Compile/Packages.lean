import PreviewCompiler.Proofs.Compile.Links
import PreviewCompiler.Proofs.Script.Agreement

namespace PreviewCompiler

open Data Script

theorem PackageSpec.mem_insert_iff {p q : PackageSpec} {ps : List PackageSpec} :
    q ∈ p.insert ps ↔ q = p ∨ q ∈ ps := by
  induction ps with
  | nil => simp [insert]
  | cons r ps ih =>
    unfold insert
    split
    · rename_i heq
      subst heq
      simp
    · split
      · simp
      · rw [List.mem_cons,ih,List.mem_cons]
        exact or_left_comm

theorem Resolution.resolve_package {fs : FileSet} {specifier importer : String} {q : PackageSpec}
    (h : resolve fs specifier importer = .package q) (fs' : FileSet) :
    resolve fs' specifier importer = .package q := by
  unfold resolve at h ⊢
  split at h
  · split at h <;> contradiction
  · rename_i hlocal
    rwa [if_neg hlocal]

namespace Linking

/-- Two linking steps that lead from the same packages to the same, if both succeed. -/
def SamePackages {α : Type} (R : α → α → Prop) (x y : Linking α) : Prop :=
  ∀ links links', links.packages = links'.packages →
    ∀ a m a' m', x links = .ok (a,m) → y links' = .ok (a',m') →
    m.packages = m'.packages ∧ R a a'

theorem relates_samePackages : Relates (m := Linking) SamePackages where
  pure hR links links' hl a m a' m' h h' := by
    obtain ⟨rfl,rfl⟩ := Prod.mk.inj (Except.ok.inj h)
    obtain ⟨rfl,rfl⟩ := Prod.mk.inj (Except.ok.inj h')
    exact ⟨hl,hR⟩
  bind hx hf links links' hl b m b' m' h h' := by
    obtain ⟨⟨a,mid⟩,ha,hb⟩ := bind_eq_ok h
    obtain ⟨⟨a',mid'⟩,ha',hb'⟩ := bind_eq_ok h'
    obtain ⟨hmid,hR⟩ := hx links links' hl a mid a' mid' ha ha'
    exact hf a a' hR mid mid' hmid b m b' m' hb hb'

/-- Two steps that do not change the packages. -/
theorem samePackages_of_keeps {α : Type} {x y : Linking α} (hx : ∀ ps, Keeps (·.packages = ps) α x)
    (hy : ∀ ps, Keeps (·.packages = ps) α y) : SamePackages (fun _ _ => True) x y := by
  intro links links' hl a m a' m' h h'
  exact ⟨(hx _ links rfl a m h).trans (hl.trans (hy _ links' rfl a' m' h').symm),trivial⟩

theorem samePackages_lift {α : Type} {x y : Except CompileError α} (h : ∀ a b, x = .ok a → y = .ok b → a = b) :
    SamePackages (· = ·) (liftM x : Linking α) (liftM y) := by
  intro links links' hl a m a' m' hx hy
  obtain ⟨b,hb,hret⟩ := bind_eq_ok hx
  obtain ⟨b',hb',hret'⟩ := bind_eq_ok hy
  obtain ⟨rfl,rfl⟩ := Prod.mk.inj (Except.ok.inj hret)
  obtain ⟨rfl,rfl⟩ := Prod.mk.inj (Except.ok.inj hret')
  exact ⟨hl,h b b' hb hb'⟩

theorem samePackages_modify {f : Links → Links}
    (hf : ∀ links links', links.packages = links'.packages → (f links).packages = (f links').packages) :
    SamePackages (fun _ _ => True) (modify f : Linking PUnit) (modify f) := by
  intro links links' hl a m a' m' h h'
  obtain ⟨-,rfl⟩ := Prod.mk.inj (Except.ok.inj h)
  obtain ⟨-,rfl⟩ := Prod.mk.inj (Except.ok.inj h')
  exact ⟨hf links links' hl,trivial⟩

end Linking

theorem Links.packages_indexOf (path : String) (links : Links) :
    (links.indexOf path).2.packages = links.packages := by
  unfold indexOf
  split
  · rfl
  · rfl

namespace Surroundings

variable {importer : String} {redirects redirects' : Redirects} {fs fs' : FileSet}

theorem keeps_packages_link {specifier : String} (h : ∀ q, Resolution.resolve fs specifier importer ≠ .package q)
    (ps : List PackageSpec) :
    Linking.Keeps (·.packages = ps) (Option String) (link ⟨importer,fs,redirects⟩ specifier) := by
  have hc := Linking.composes_keeps (·.packages = ps)
  unfold link
  split
  · exact hc.pure _
  · split
    · split
      · refine hc.bind (Linking.keeps_modifyGet fun links hl => ?_) fun i => hc.pure _
        exact (Links.packages_indexOf _ links).trans hl
      · exact Linking.keeps_throw_bind _ _
    · rename_i q hq
      exact absurd hq (h q)
    · exact Linking.keeps_throw _

/-- Linking a specifier adds the same package, if any, whatever files there are and wherever packages come from. -/
theorem samePackages_link (specifier : String) :
    Linking.SamePackages (fun _ _ => True) (link ⟨importer,fs,redirects⟩ specifier)
      (link ⟨importer,fs',redirects'⟩ specifier) := by
  by_cases h : ∃ q, Resolution.resolve fs specifier importer = .package q
  · obtain ⟨q,hq⟩ := h
    have hr := Linking.relates_samePackages
    simp only [link,hq,Resolution.resolve_package hq fs']
    split
    · exact hr.pure trivial
    · refine hr.bind (Linking.samePackages_modify fun links links' hl => ?_) fun _ _ _ => hr.pure trivial
      exact congrArg q.insert hl
  -- It is linked to a file or fails, perhaps not alike in both, but packages are not touched in either.
  · rw [not_exists] at h
    have h' : ∀ q, Resolution.resolve fs' specifier importer ≠ .package q := fun q hq =>
      h q (Resolution.resolve_package hq fs)
    exact Linking.samePackages_of_keeps (keeps_packages_link h) (keeps_packages_link h')

/-- Is an item written like an import of nothing from a stylesheet? -/
def namesStyles : Node → Bool
  | .importDecl _ _ [] source _ => source.stringValue?.any Path.isStylesheet
  | _ => false

theorem eq_namesStyles_of_isStyleImport {s : Surroundings} {n : Node} {b : Bool} (h : s.isStyleImport n = .ok b) :
    b = namesStyles n := by
  unfold isStyleImport at h
  split at h
  · rename_i source _
    cases hv : source.stringValue? with
    | none =>
      simp only [hv] at h
      rw [namesStyles,hv]
      exact (Except.ok.inj h).symm
    | some specifier =>
      simp only [hv] at h
      rw [namesStyles,hv,Option.any_some]
      split at h
      · rename_i hstyle
        split at h
        · contradiction
        · exact (Except.ok.inj h).symm.trans hstyle.symm
      · rename_i hstyle
        exact (Except.ok.inj h).symm.trans (Bool.eq_false_iff.2 hstyle).symm
  · rename_i hother
    unfold namesStyles
    split
    · exact (hother _ _ _ _ rfl).elim
    · exact (Except.ok.inj h).symm

/-- The same imports of stylesheets are dropped. -/
theorem dropStyleImports_agree {items kept kept' : List Node}
    (h : dropStyleImports ⟨importer,fs,redirects⟩ items = .ok kept)
    (h' : dropStyleImports ⟨importer,fs',redirects'⟩ items = .ok kept') : kept = kept' := by
  induction items generalizing kept kept' with
  | nil => exact Except.ok.inj (h.symm.trans h')
  | cons n items ih =>
    obtain ⟨b,hb,hrest⟩ := bind_eq_ok h
    obtain ⟨b',hb',hrest'⟩ := bind_eq_ok h'
    obtain ⟨rest,hr,hret⟩ := bind_eq_ok hrest
    obtain ⟨rest',hr',hret'⟩ := bind_eq_ok hrest'
    obtain rfl := (eq_namesStyles_of_isStyleImport hb).trans (eq_namesStyles_of_isStyleImport hb').symm
    obtain rfl := ih hr hr'
    exact Except.ok.inj (hret.symm.trans hret')

theorem samePackages_linkItems (items : List Node) :
    Linking.SamePackages (List.Forall₂ Node.Alike) (linkItems ⟨importer,fs,redirects⟩ items)
      (linkItems ⟨importer,fs',redirects'⟩ items) := by
  have hr := Linking.relates_samePackages
  unfold linkItems
  refine hr.bind (Linking.samePackages_lift fun _ _ => dropStyleImports_agree) fun kept kept' heq => ?_
  subst heq
  exact hr.mapM (hr.mapSpecifiers samePackages_link) kept

theorem packages_linkProgram {p q q' : Program} {links links' : Links}
    (h : linkProgram ⟨importer,fs,redirects⟩ p = .ok (q,links))
    (h' : linkProgram ⟨importer,fs',redirects'⟩ p = .ok (q',links')) : links.packages = links'.packages := by
  obtain ⟨⟨body,m⟩,hbody,hret⟩ := bind_eq_ok h
  obtain ⟨⟨body',m'⟩,hbody',hret'⟩ := bind_eq_ok h'
  obtain ⟨-,rfl⟩ := Prod.mk.inj (Except.ok.inj hret)
  obtain ⟨-,rfl⟩ := Prod.mk.inj (Except.ok.inj hret')
  exact (samePackages_linkItems _ {} {} rfl body m body' m' hbody hbody').1

end Surroundings

namespace Template

variable {options options' : TransformOptions} {content : String}

theorem lower_congr (hruntime : options.runtime = options'.runtime)
    (hsource : options.importSource = options'.importSource)
    (p : Program) (dialect : Dialect) : p.lower dialect options = p.lower dialect options' := by
  simp only [Program.lower,hruntime,hsource]

theorem packages_ofScript {importer : String} {redirects redirects' : Redirects} {fs fs' : FileSet}
    {dialect : Dialect} {text text' : String} {links links' : Links}
    (hruntime : options.runtime = options'.runtime) (hsource : options.importSource = options'.importSource)
    (h : ofScript ⟨importer,fs,redirects⟩ dialect options content = .ok (text,links))
    (h' : ofScript ⟨importer,fs',redirects'⟩ dialect options' content = .ok (text',links')) :
    links.packages = links'.packages := by
  simp only [ofScript,lower_congr hruntime hsource] at h h'
  split at h
  · rename_i hblank
    rw [if_pos hblank] at h'
    obtain ⟨-,rfl⟩ := Prod.mk.inj (Except.ok.inj h)
    obtain ⟨-,rfl⟩ := Prod.mk.inj (Except.ok.inj h')
    rfl
  · rename_i hblank
    rw [if_neg hblank] at h'
    cases hread : Program.read dialect content.toList with
    | error f =>
      rw [hread] at h
      contradiction
    | ok p =>
      rw [hread] at h h'
      obtain ⟨⟨q,m⟩,hq,hret⟩ := bind_eq_ok h
      obtain ⟨⟨q',m'⟩,hq',hret'⟩ := bind_eq_ok h'
      obtain ⟨-,rfl⟩ := Prod.mk.inj (Except.ok.inj hret)
      obtain ⟨-,rfl⟩ := Prod.mk.inj (Except.ok.inj hret')
      exact Surroundings.packages_linkProgram hq hq'

/-- The packages of a template depend neither on the other files nor on where packages come from. -/
theorem packages_compile {fs fs' : FileSet} {redirects redirects' : Redirects} {path : String} {t t' : Template}
    (hruntime : options.runtime = options'.runtime) (hsource : options.importSource = options'.importSource)
    (h : compile fs redirects options path content = .ok t)
    (h' : compile fs' redirects' options' path content = .ok t') : t.links.packages = t'.links.packages := by
  unfold compile at h h'
  cases hkind : SourceKind.ofPath path with
  | script isTyped hasMarkup =>
    rw [hkind] at h h'
    obtain ⟨⟨text,links⟩,htext,hret⟩ := bind_eq_ok h
    obtain ⟨⟨text',links'⟩,htext',hret'⟩ := bind_eq_ok h'
    obtain rfl := Except.ok.inj hret
    obtain rfl := Except.ok.inj hret'
    exact packages_ofScript hruntime hsource htext htext'
  | json =>
    rw [hkind] at h h'
    exact congrArg (·.links.packages) (Except.ok.inj (h.symm.trans h'))
  | style | other =>
    rw [hkind] at h
    contradiction

end Template

end PreviewCompiler
