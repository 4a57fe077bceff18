import PreviewCompiler.Proofs.Compile.Linked

namespace PreviewCompiler

open Data Script

namespace Resolution

/-- No address is the name of a file. -/
theorem isLocal_of_isUrl {v : String} (h : isUrl v = true) : isLocal v = false := by
  obtain ⟨front,hfront,hv⟩ := List.any_eq_true.1 h
  rw [Text.hasFront,List.isPrefixOf_iff_prefix] at hv
  have hdiffer : ∀ start ∈ ["@/","./","../","/",".",".."], ¬ start.toList <+: v.toList := fun start hstart hstarts =>
    absurd (List.prefix_or_prefix_of_prefix hstarts hv)
      ((by decide : ∀ start ∈ ["@/","./","../","/",".",".."], ∀ front ∈ ["http://","https://","data:","blob:"],
        ¬ (start.toList <+: front.toList ∨ front.toList <+: start.toList)) start hstart front hfront)
  refine Bool.eq_false_iff.2 fun hlocal => ?_
  simp only [isLocal,Bool.or_eq_true,beq_iff_eq,List.any_eq_true,Text.hasFront,List.isPrefixOf_iff_prefix] at hlocal
  rcases hlocal with (⟨start,hstart,hstarts⟩ | rfl) | rfl
  · exact hdiffer start (List.mem_append_left [".",".."] hstart) hstarts
  · exact hdiffer "." (by decide) List.prefix_rfl
  · exact hdiffer ".." (by decide) List.prefix_rfl

/-- What is an address is never found. -/
theorem resolve_of_isUrl {fs : FileSet} {v importer : String} (h : isUrl v = true) :
    resolve fs v importer = .nothing := by
  obtain ⟨front,hfront,hv⟩ := List.any_eq_true.1 h
  obtain ⟨rest,hrest⟩ := List.isPrefixOf_iff_prefix.1 hv
  have hcolon : ':' ∈ v.toList := by
    rw [← hrest]
    exact List.mem_append_left _ ((by decide : ∀ front ∈ ["http://","https://","data:","blob:"], ':' ∈ front.toList)
      front hfront)
  have hany : v.toList.any PackageSpec.isForbidden = true := List.any_eq_true.2 ⟨_,hcolon,rfl⟩
  have hparse : PackageSpec.parse? v = none := by
    rw [PackageSpec.parse?,hany,Bool.not_true,Bool.and_false]
    rfl
  rw [resolve,isLocal_of_isUrl h,hparse]
  rfl

end Resolution

namespace Script.Node

/-- The text behind `import` in an import of nothing. -/
def effectSource? : Node → Option String
  | importDecl _ _ [] source _ => source.stringValue?
  | _ => none

theorem eq_of_outline_of_no_parts {n n' : Node} (h : n'.outline = n.outline) (hn : n.parts = []) : n' = n := by
  have hparts : n'.outline.parts = n.outline.parts := congrArg parts h
  rw [outline,outline,parts_mapParts,parts_mapParts,hn] at hparts
  exact eq_of_outline_of_parts h (by rw [hn,List.map_eq_nil_iff.1 hparts])

end Script.Node

namespace Surroundings

variable {s : Surroundings} {n n' : Node} {links : Links} {v : String}

/-- Can a specifier be linked? -/
def canLink (s : Surroundings) (v : String) : Bool :=
  match s.target? v with
  | some (.file path) => Path.isModule path
  | some .nothing => false
  | some (.package _) | none => true

theorem canLink_of_isUrl (h : Resolution.isUrl v = true) : s.canLink v = true := by
  rw [canLink,target?,if_pos h]

/-- A linking step that succeeds exactly if some specifiers can be linked, and then has a result that `R` is true of. -/
def Decides (s : Surroundings) (vs : List String) (α : Type) (R : α → Prop) (x : Linking α) : Prop :=
  ∀ links, ((x links).isOk = true ↔ ∀ v ∈ vs, s.canLink v = true) ∧ ∀ a links', x links = .ok (a,links') → R a

theorem visits_decides (s : Surroundings) : Visits (Decides s) where
  pure hR links := by
    refine ⟨iff_of_true rfl fun _ hv => absurd hv List.not_mem_nil,fun a links' h => ?_⟩
    obtain ⟨rfl,-⟩ := Prod.mk.inj (Except.ok.inj h)
    exact hR
  bind {α β R S vs vs' x f} hx hf links := by
    obtain ⟨hok,hR⟩ := hx links
    rw [List.forall_mem_append,← hok]
    cases hxl : x links with
    | error e =>
      have hbind : (x >>= f) links = .error e := by simp [bind,StateT.bind,hxl,Except.bind]
      rw [hbind]
      exact ⟨iff_of_false nofun (fun h => nomatch h.1),nofun⟩
    | ok al =>
      have hbind : (x >>= f) links = f al.1 al.2 := by simp [bind,StateT.bind,hxl,Except.bind]
      rw [hbind]
      obtain ⟨hok',hS⟩ := hf al.1 (hR al.1 al.2 hxl) al.2
      exact ⟨hok'.trans (and_iff_right rfl).symm,hS⟩

theorem decides_link (s : Surroundings) (v : String) : Decides s [v] (Option String) (fun _ => True) (s.link v) := by
  intro links
  refine ⟨?_,fun _ _ _ => trivial⟩
  rw [List.forall_mem_singleton,canLink,target?]
  unfold link
  split
  · exact iff_of_true rfl rfl
  · cases Resolution.resolve s.files v s.importer with
    | file path =>
      by_cases hm : Path.isModule path = true
      · simp only [if_pos hm]
        exact iff_of_true rfl hm
      · simp only [if_neg hm]
        exact iff_of_false nofun hm
    | package q => exact iff_of_true rfl rfl
    | nothing => exact iff_of_false nofun nofun

/-- Is an item an import of nothing from a stylesheet that names nothing? -/
def MissesStyles (s : Surroundings) (n : Node) (v : String) : Prop :=
  n.effectSource? = some v ∧ Path.isStylesheet v = true ∧ Resolution.resolve s.files v s.importer = .nothing

theorem isOk_isStyleImport_iff : (s.isStyleImport n).isOk = true ↔ ∀ v, ¬ s.MissesStyles n v := by
  unfold isStyleImport
  split
  · rename_i span typeOnly source attributes
    have hsource : (Node.importDecl span typeOnly [] source attributes).effectSource? = source.stringValue? := rfl
    simp only [MissesStyles,hsource]
    cases source.stringValue? with
    | none => exact iff_of_true rfl fun _ h => nomatch h.1
    | some v =>
      by_cases hstyle : Path.isStylesheet v = true
      · simp only [if_pos hstyle]
        cases hr : Resolution.resolve s.files v s.importer with
        | nothing => exact iff_of_false Bool.false_ne_true fun h => h v ⟨rfl,hstyle,hr⟩
        | file | package =>
          refine iff_of_true rfl fun v' ⟨hv,_,hnothing⟩ => ?_
          obtain rfl := Option.some.inj hv
          cases hr.symm.trans hnothing
      · simp only [if_neg hstyle]
        refine iff_of_true rfl fun v' ⟨hv,hstyle',_⟩ => hstyle ?_
        rwa [Option.some.inj hv]
  · rename_i hother
    refine iff_of_true rfl fun v ⟨hv,_⟩ => ?_
    unfold Node.effectSource? at hv
    split at hv
    · exact hother _ _ _ _ rfl
    · contradiction

theorem isOk_dropStyleImports_iff {items : List Node} : (s.dropStyleImports items).isOk = true ↔
    ∀ n ∈ items, (s.isStyleImport n).isOk = true := by
  induction items with
  | nil => exact iff_of_true rfl fun _ hn => absurd hn List.not_mem_nil
  | cons n items ih =>
    rw [List.forall_mem_cons,← ih,dropStyleImports]
    cases s.isStyleImport n with
    | error e => exact iff_of_false nofun fun h => nomatch h.1
    | ok isStyle => cases s.dropStyleImports items <;>
        simp [bind,Except.bind,Except.isOk,Except.toBool,pure,Except.pure]

/-- A program is linked exactly if no import of styles misses them and its specifiers can be linked. -/
theorem isOk_linkProgram_iff {p : Program} : (s.linkProgram p).isOk = true ↔
    (∀ n ∈ p.module.body, ∀ v, ¬ s.MissesStyles n v) ∧
    ∀ v ∈ (p.module.body.filter fun n => !namesStyles n).flatMap Node.specifiers, s.canLink v = true := by
  simp only [← isOk_isStyleImport_iff]
  rw [← isOk_dropStyleImports_iff]
  have hitems := fun items => (visits_decides s).mapM
    (fun n => (visits_decides s).mapSpecifiers (decides_link s) n) items
  cases hdrop : s.dropStyleImports p.module.body with
  | error e =>
    have hlink : s.linkProgram p = .error e := by
      simp [linkProgram,linkItems,hdrop,bind,Except.bind,StateT.bind,StateT.run,liftM,monadLift,MonadLift.monadLift,
        StateT.lift]
    rw [hlink]
    exact iff_of_false Bool.false_ne_true fun h => absurd h.1 Bool.false_ne_true
  | ok kept =>
    have hkept := kept_of_dropStyleImports hdrop
    rw [← hkept,← (hitems kept {}).1]
    cases hmap : kept.mapM (Node.mapSpecifiers s.link) {} <;>
      simp [linkProgram,linkItems,hdrop,hmap,bind,Except.bind,StateT.bind,StateT.run,liftM,monadLift,
        MonadLift.monadLift,StateT.lift,pure,Except.pure,Except.isOk,Except.toBool]

/-- Does an item miss the styles that it names, or hold a specifier that cannot be linked? -/
def IsBlamed (s : Surroundings) (n : Node) (v : String) : Prop :=
  s.MissesStyles n v ∨ namesStyles n = false ∧ s.canLink v = false ∧
    ∃ way, n.Specifier way v ∧ Node.isShielded way n = false

/-- What can make linking fail: an import of nothing from an address that ends like the path of a stylesheet, and what
is no address. -/
theorem linkProgram_fails_iff {p : Program} : (s.linkProgram p).isOk = false ↔
    (∃ n ∈ p.module.body, ∃ v, n.effectSource? = some v ∧ Path.isStylesheet v = true ∧ Resolution.isUrl v = true) ∨
    ∃ n ∈ p.module.body, ∃ v, Resolution.isUrl v = false ∧ s.IsBlamed n v := by
  rw [Bool.eq_false_iff,Ne,isOk_linkProgram_iff]
  constructor
  · intro h
    rcases not_and_or.1 h with h | h
    · simp only [not_forall,not_not,exists_prop] at h
      obtain ⟨n,hn,v,hmisses⟩ := h
      cases hurl : Resolution.isUrl v with
      | true => exact .inl ⟨n,hn,v,hmisses.1,hmisses.2.1,hurl⟩
      | false => exact .inr ⟨n,hn,v,hurl,.inl hmisses⟩
    · simp only [not_forall,exists_prop,Bool.not_eq_true,List.mem_flatMap,List.mem_filter,Bool.not_eq_true',
        Node.mem_specifiers] at h
      obtain ⟨v,⟨n,⟨hn,hkept⟩,hway⟩,hlink⟩ := h
      have hurl : Resolution.isUrl v = false := Bool.eq_false_iff.2 fun hurl =>
        absurd hlink (ne_false_of_eq_true (canLink_of_isUrl hurl))
      exact .inr ⟨n,hn,v,hurl,.inr ⟨hkept,hlink,hway⟩⟩
  · rintro (⟨n,hn,v,hsource,hstyle,hurl⟩ | ⟨n,hn,v,-,hmisses | ⟨hkept,hlink,hway⟩⟩) ⟨hstyles,hspecifiers⟩
    · exact hstyles n hn v ⟨hsource,hstyle,Resolution.resolve_of_isUrl hurl⟩
    · exact hstyles n hn v hmisses
    · have hmem : v ∈ (p.module.body.filter fun n => !namesStyles n).flatMap Node.specifiers :=
        List.mem_flatMap.2 ⟨n,List.mem_filter.2 ⟨hn,by rw [hkept]; rfl⟩,Node.mem_specifiers.2 hway⟩
      exact absurd (hspecifiers v hmem) (ne_true_of_eq_false hlink)

/-- An address is the same before and after linking, wherever it stands. -/
theorem LinksTo.at?_of_isUrl (h : s.LinksTo links n n') {way : List Nat} (hs : n.Specifier way v)
    (hurl : Resolution.isUrl v = true) : n'.at? way = n.at? way := by
  obtain ⟨part,hat,hv⟩ := hs.exists_at?
  cases hway : Node.isShielded way n with
  | false =>
    obtain ⟨part',hat',hcarries⟩ := h.carried way part v hs hway hat
    have htarget : s.target? v = none := if_pos hurl
    cases hcarries with
    | address => rw [hat,hat']
    | module hmodule => cases htarget.symm.trans hmodule
    | package hpackage => cases htarget.symm.trans hpackage
  | true =>
    have houtline := h.kept way fun _ _ => hway
    rw [hat,Option.map_some,Option.map_eq_some_iff] at houtline
    obtain ⟨part',hat',hsame⟩ := houtline
    rw [hat,hat',Node.eq_of_outline_of_no_parts hsame (Node.parts_eq_nil_of_stringValue? hv)]

/-- Is a tree what another one is linked to as far as addresses go? -/
structure KeepsUrls (n n' : Node) : Prop where
  outline : n'.outline = n.outline
  urls : ∀ way v, n.Specifier way v → Resolution.isUrl v = true → n'.at? way = n.at? way

theorem LinksTo.keepsUrls (h : s.LinksTo links n n') : KeepsUrls n n' where
  outline := Option.some.inj (h.kept [] fun _ hs => absurd rfl hs.ne_nil)
  urls _ _ hs hurl := h.at?_of_isUrl hs hurl

/-- What names something is no address. -/
theorem exists_of_mem_specifiers {items : List Node} {r : Resolution}
    (h : ∃ v ∈ (items.filter fun n => !namesStyles n).flatMap Node.specifiers, s.target? v = some r) :
    ∃ n ∈ items, ∃ way v, n.Specifier way v ∧ Resolution.isUrl v = false ∧
      Resolution.resolve s.files v s.importer = r := by
  obtain ⟨n,hn,-,way,v,hs,-,htarget⟩ := mem_flatMap_specifiers.1 h
  obtain ⟨hurl,hr⟩ := target?_eq_some htarget
  exact ⟨n,hn,way,v,hs,hurl,hr⟩

/-- An item that names styles and a module names both by one text. -/
theorem effectSource?_of_namesStyles (h : namesStyles n = true) (hv : n.ownSpecifier? = some v) :
    n.effectSource? = some v ∧ Path.isStylesheet v = true := by
  unfold namesStyles at h
  split at h
  · rename_i span typeOnly source attributes
    obtain ⟨w,hw,hstyle⟩ := (Option.any_eq_true _ _).1 h
    obtain ⟨i,part,hpart,hi,hpv⟩ := Node.ownSpecifier?_eq_some.1 hv
    rw [Node.parts_importDecl] at hpart
    cases typeOnly with
    | true => contradiction
    | false =>
      obtain rfl : 0 = i := Option.some.inj hi
      obtain rfl : source = part := Option.some.inj hpart
      obtain rfl := Option.some.inj (hpv.symm.trans hw)
      exact ⟨hpv,hstyle⟩
  · contradiction

/-- In a linked program the addresses are where and as they were, and the links tell what other specifiers name. -/
theorem urls_of_linkProgram {p p' : Program} (h : s.linkProgram p = .ok (p',links)) :
    List.Forall₂ KeepsUrls (p.module.body.filter fun n => !namesStyles n) p'.module.body ∧
    (∀ n ∈ p.module.body, ∀ v, n.ownSpecifier? = some v → Resolution.isUrl v = true → namesStyles n = false) ∧
    (∀ d ∈ links.modules, ∃ n ∈ p.module.body, ∃ way v, n.Specifier way v ∧ Resolution.isUrl v = false ∧
      Resolution.resolve s.files v s.importer = .file d) ∧
    ∀ r ∈ links.packages, ∃ n ∈ p.module.body, ∃ way v, n.Specifier way v ∧ Resolution.isUrl v = false ∧
      Resolution.resolve s.files v s.importer = .package r := by
  have haccount := accounts_of_linkProgram h
  refine ⟨(linksTo_of_linkProgram h).imp fun _ _ => LinksTo.keepsUrls,fun n hn v hv hurl => ?_,fun d hd => ?_,
    fun r hr => ?_⟩
  · refine Bool.eq_false_iff.2 fun hstyles => ?_
    obtain ⟨hsource,hstyle⟩ := effectSource?_of_namesStyles hstyles hv
    have hfails : (s.linkProgram p).isOk = false := linkProgram_fails_iff.2 (.inl ⟨n,hn,v,hsource,hstyle,hurl⟩)
    rw [h] at hfails
    contradiction
  · exact exists_of_mem_specifiers (((haccount.modules d).1 hd).resolve_left List.not_mem_nil)
  · exact exists_of_mem_specifiers (((haccount.packages r).1 hr).resolve_left List.not_mem_nil)

end Surroundings

namespace Template

open Surroundings

variable {fs : FileSet} {redirects : Redirects} {options : TransformOptions} {path content : String}
  {isTyped hasMarkup : Bool} {p : Program}

/-- A script that is not blank and can be read is compiled if the program without types and markup is linked. -/
theorem compile_eq_ok_iff (hkind : SourceKind.ofPath path = .script isTyped hasMarkup)
    (hblank : Text.allBlank content.toList = false)
    (hread : Program.read ⟨isTyped,hasMarkup⟩ content.toList = .ok p) {t : Template} :
    compile fs redirects options path content = .ok t ↔ ∃ q links,
      Surroundings.linkProgram ⟨path,fs,redirects⟩ (p.lower ⟨isTyped,hasMarkup⟩ options) = .ok (q,links) ∧
      t = ⟨path,q.print options.minify,links,textHash content⟩ := by
  have hscript : ofScript ⟨path,fs,redirects⟩ ⟨isTyped,hasMarkup⟩ options content =
      (Surroundings.linkProgram ⟨path,fs,redirects⟩ (p.lower ⟨isTyped,hasMarkup⟩ options)).map fun r =>
        (r.1.print options.minify,r.2) := by
    simp only [ofScript,hblank,hread]
    cases Surroundings.linkProgram ⟨path,fs,redirects⟩ (p.lower ⟨isTyped,hasMarkup⟩ options) <;> rfl
  simp only [compile,hkind,hscript]
  cases Surroundings.linkProgram ⟨path,fs,redirects⟩ (p.lower ⟨isTyped,hasMarkup⟩ options) with
  | error e =>
    constructor
    · intro h
      contradiction
    · rintro ⟨q,links,h,-⟩
      contradiction
  | ok r =>
    constructor
    · intro h
      exact ⟨r.1,r.2,rfl,(Except.ok.inj h).symm⟩
    · rintro ⟨q,links,h,rfl⟩
      obtain rfl := Except.ok.inj h
      rfl

/-- A script that is compiled can be read. -/
theorem exists_read_of_compile (hkind : SourceKind.ofPath path = .script isTyped hasMarkup)
    (hblank : Text.allBlank content.toList = false) {t : Template}
    (h : compile fs redirects options path content = .ok t) :
    ∃ p, Program.read ⟨isTyped,hasMarkup⟩ content.toList = .ok p := by
  cases hread : Program.read ⟨isTyped,hasMarkup⟩ content.toList with
  | error e =>
    simp only [compile,hkind,ofScript,hblank,hread] at h
    contradiction
  | ok p => exact ⟨p,rfl⟩

/-- The addresses by which a script names modules stay where and as they are, in the declarations and deeper in the
program; what the template links to is named by other specifiers; and compiling fails on account of these alone, or
because nothing is imported from an address that ends like the path of a stylesheet. -/
theorem urls_of_compile (hkind : SourceKind.ofPath path = .script isTyped hasMarkup)
    (hblank : Text.allBlank content.toList = false)
    (hread : Program.read ⟨isTyped,hasMarkup⟩ content.toList = .ok p) :
    let s : Surroundings := ⟨path,fs,redirects⟩
    let q := p.lower ⟨isTyped,hasMarkup⟩ options
    (∀ t, compile fs redirects options path content = .ok t →
      (∃ body, t.text = ({ q with module := { q.module with body } } : Program).print options.minify ∧
        List.Forall₂ KeepsUrls (q.module.body.filter fun n => !namesStyles n) body) ∧
      (∀ n ∈ q.module.body, ∀ v, n.ownSpecifier? = some v → Resolution.isUrl v = true → namesStyles n = false) ∧
      (∀ d ∈ t.links.modules, ∃ n ∈ q.module.body, ∃ way v, n.Specifier way v ∧ Resolution.isUrl v = false ∧
        Resolution.resolve fs v path = .file d) ∧
      ∀ r ∈ t.links.packages, ∃ n ∈ q.module.body, ∃ way v, n.Specifier way v ∧ Resolution.isUrl v = false ∧
        Resolution.resolve fs v path = .package r) ∧
    ((∀ t, compile fs redirects options path content ≠ .ok t) ↔
      (∃ n ∈ q.module.body, ∃ v, n.effectSource? = some v ∧ Path.isStylesheet v = true ∧ Resolution.isUrl v = true) ∨
      ∃ n ∈ q.module.body, ∃ v, Resolution.isUrl v = false ∧ s.IsBlamed n v) := by
  intro s q
  have hcompile : ∀ t, compile fs redirects options path content = .ok t ↔ ∃ q' links,
      s.linkProgram q = .ok (q',links) ∧ t = ⟨path,q'.print options.minify,links,textHash content⟩ :=
    fun _ => compile_eq_ok_iff hkind hblank hread
  refine ⟨fun t ht => ?_,?_⟩
  · obtain ⟨q',links,hlink,rfl⟩ := (hcompile t).1 ht
    obtain ⟨hitems,hlinks⟩ := urls_of_linkProgram hlink
    have hbody := program_of_linkProgram hlink
    exact ⟨⟨q'.module.body,by rw [hbody]; rfl,hitems⟩,hlinks⟩
  · rw [← linkProgram_fails_iff]
    cases hlink : s.linkProgram q with
    | error e => exact iff_of_true (fun t ht => by
        obtain ⟨q',links,hok,-⟩ := (hcompile t).1 ht
        cases hlink.symm.trans hok) rfl
    | ok r => exact iff_of_false (fun h => h _ ((hcompile _).2 ⟨r.1,r.2,hlink,rfl⟩)) nofun

/-- Addresses of every kind, in declarations and in a call inside of a call, next to a module of the project. -/
theorem urls_of_compile_of_nested :
    let source := "import x from 'https://a/x.css'; export * from 'data:,';\n" ++
      "import('http://b').then(() => import('blob:c')); import './b';\n"
    let fs : FileSet := [("/App.js",.file source),("/b.js",.file "")]
    SourceKind.ofPath "/App.js" = .script false true ∧ Text.allBlank source.toList = false ∧
    ∃ p t, Program.read ⟨false,true⟩ source.toList = .ok p ∧ compile fs {} {} "/App.js" source = .ok t ∧
      t.links.modules = ["/b.js"] ∧ t.links.packages = [] ∧
      ∀ n ∈ (p.lower ⟨false,true⟩ {}).module.body, ∀ v, n.ownSpecifier? = some v → Resolution.isUrl v = true →
        namesStyles n = false := by
  intro source fs
  have hkind : SourceKind.ofPath "/App.js" = .script false true := by decide +kernel
  have hblank : Text.allBlank source.toList = false := by decide +kernel
  obtain ⟨t,ht,hlinks⟩ := exists_eq_ok (x := compile fs {} {} "/App.js" source)
    (p := fun t => decide (t.links = ⟨["/b.js"],[]⟩)) (by decide +kernel)
  have hlinks : t.links = ⟨["/b.js"],[]⟩ := of_decide_eq_true hlinks
  obtain ⟨p,hread⟩ := exists_read_of_compile hkind hblank ht
  have hurls := (urls_of_compile hkind hblank hread).1 t ht
  exact ⟨hkind,hblank,p,t,hread,ht,by rw [hlinks],by rw [hlinks],hurls.2.1⟩

/-- Nothing is imported from an address that ends like the path of a stylesheet: it is looked for and not found,
though a module that only names addresses asks for no file. -/
theorem url_of_styles_fails :
    let source := "import 'https://cdn.example/x.css';\n"
    let fs : FileSet := [("/App.js",.file source)]
    Resolution.isUrl "https://cdn.example/x.css" = true ∧
    compile fs {} {} "/App.js" source = .error (.resolution "https://cdn.example/x.css" "/App.js") ∧
    ¬ ∀ (s : Surroundings) (p : Program),
      (∀ n ∈ p.module.body, ∀ way v, n.Specifier way v → Resolution.isUrl v = true) →
      (s.linkProgram p).isOk = true := by
  intro source fs
  have hurl : Resolution.isUrl "https://cdn.example/x.css" = true := by decide +kernel
  refine ⟨hurl,by decide +kernel,fun hall => ?_⟩
  let literal : Node := .literal ⟨8,35⟩ (.string "https://cdn.example/x.css" none)
  let n : Node := .importDecl ⟨1,36⟩ false [] literal none
  let p : Program := { module := { span := ⟨1,36⟩, shebang := none, body := [n] }, comments := {} }
  have hfails : (linkProgram ⟨"/App.js",fs,{}⟩ p).isOk = false := by decide +kernel
  have hok := hall ⟨"/App.js",fs,{}⟩ p fun n' hn way v hs => by
    obtain rfl : n' = n := List.mem_singleton.1 hn
    cases hs with
    | own hpart hi hv =>
      obtain rfl := Option.some.inj hi
      obtain rfl := Option.some.inj hpart
      obtain rfl := Option.some.inj hv
      exact hurl
    | @inside n part i way v hpart hs =>
      have hvalue := hs.stringValue?_of_parts
      match i, hpart with
      | 0, hpart =>
        obtain rfl := Option.some.inj hpart
        contradiction
  rw [hfails] at hok
  contradiction

end Template

end PreviewCompiler
