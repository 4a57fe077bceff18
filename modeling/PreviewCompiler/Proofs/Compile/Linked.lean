import PreviewCompiler.Proofs.Compile.Addresses
import PreviewCompiler.Proofs.Script.Way

namespace PreviewCompiler

open Data Script

namespace Links

theorem mem_indexOf_iff {path d : String} {links : Links} :
    d ∈ (links.indexOf path).2.modules ↔ d = path ∨ d ∈ links.modules := by
  refine ⟨mem_modules_indexOf,fun h => ?_⟩
  rcases h with rfl | h
  · exact (idxOf_indexOf d links).2
  · exact (prefix_indexOf path links).mem h

theorem nodup_indexOf {path : String} {links : Links} (h : links.modules.Nodup) :
    (links.indexOf path).2.modules.Nodup := by
  unfold indexOf
  split
  · exact h
  · rename_i hnone
    have hmem : path ∉ links.modules := fun hmem => by
      have := List.findIdx?_eq_none_iff.1 hnone path hmem
      simp at this
    exact List.nodup_append.2 ⟨h,List.nodup_singleton _,fun a ha b hb hab => hmem (by
      rwa [← List.mem_singleton.1 hb,← hab])⟩

end Links

namespace Surroundings

/-- What a specifier names, if it is no address. -/
def target? (s : Surroundings) (specifier : String) : Option Resolution :=
  if Resolution.isUrl specifier then none else some (Resolution.resolve s.files specifier s.importer)

variable {s : Surroundings} {n n' part : Node} {links links' : Links} {path v : String} {q : PackageSpec}

theorem target?_eq_some {r : Resolution} (h : s.target? v = some r) :
    Resolution.isUrl v = false ∧ Resolution.resolve s.files v s.importer = r := by
  unfold target? at h
  split at h
  · contradiction
  · rename_i hurl
    exact ⟨Bool.eq_false_iff.2 hurl,Option.some.inj h⟩

/-- Do links tell what some specifiers name, besides what other links tell? -/
structure Accounts (s : Surroundings) (vs : List String) (links links' : Links) : Prop where
  modules : ∀ path, path ∈ links'.modules ↔ path ∈ links.modules ∨ ∃ v ∈ vs, s.target? v = some (.file path)
  packages : ∀ q, q ∈ links'.packages ↔ q ∈ links.packages ∨ ∃ v ∈ vs, s.target? v = some (.package q)
  resolved : ∀ v ∈ vs, s.target? v ≠ some .nothing

/-- A linking step with a result that `R` is true of, which accounts for some specifiers. -/
def Records (s : Surroundings) (vs : List String) (α : Type) (R : α → Prop) (x : Linking α) : Prop :=
  ∀ links a links', x links = .ok (a,links') → R a ∧ s.Accounts vs links links'

theorem Accounts.of_same (h : links.modules = links'.modules) (h' : links.packages = links'.packages) :
    s.Accounts [] links links' where
  modules path := by simp [h]
  packages q := by simp [h']
  resolved _ hv := absurd hv List.not_mem_nil

theorem Accounts.append {vs vs' : List String} {mid : Links} (h : s.Accounts vs links mid)
    (h' : s.Accounts vs' mid links') : s.Accounts (vs ++ vs') links links' where
  modules path := by
    rw [h'.modules,h.modules]
    simp only [List.mem_append,or_and_right,exists_or,or_assoc]
  packages q := by
    rw [h'.packages,h.packages]
    simp only [List.mem_append,or_and_right,exists_or,or_assoc]
  resolved v hv := (List.mem_append.1 hv).elim (h.resolved v) (h'.resolved v)

theorem visits_records (s : Surroundings) : Visits (Records s) where
  pure hR links a links' h := by
    obtain ⟨rfl,rfl⟩ := Prod.mk.inj (Except.ok.inj h)
    exact ⟨hR,.of_same rfl rfl⟩
  bind hx hf links b links' h := by
    obtain ⟨⟨a,mid⟩,ha,hb⟩ := bind_eq_ok h
    obtain ⟨hR,haccount⟩ := hx links a mid ha
    obtain ⟨hS,haccount'⟩ := hf a hR mid b links' hb
    exact ⟨hS,haccount.append haccount'⟩

theorem records_link (s : Surroundings) (v : String) :
    Records s [v] (Option String) (fun _ => True) (s.link v) := by
  intro links a links' h
  refine ⟨trivial,?_⟩
  unfold link at h
  split at h
  · rename_i hurl
    obtain ⟨-,rfl⟩ := Prod.mk.inj (Except.ok.inj h)
    have hnone : s.target? v = none := if_pos hurl
    exact ⟨by simp [hnone],by simp [hnone],by simp [hnone]⟩
  · rename_i hurl
    have htarget : s.target? v = some (Resolution.resolve s.files v s.importer) := if_neg hurl
    cases hr : Resolution.resolve s.files v s.importer with
    | file path =>
      rw [hr] at htarget
      by_cases hm : Path.isModule path = true
      · simp only [hr,if_pos hm] at h
        obtain ⟨-,rfl⟩ := Prod.mk.inj (Except.ok.inj h)
        refine ⟨fun d => ?_,fun q => ?_,by simp [htarget]⟩
        · change d ∈ (links.indexOf path).2.modules ↔ _
          rw [Links.mem_indexOf_iff]
          simp [htarget,or_comm,eq_comm]
        · change q ∈ (links.indexOf path).2.packages ↔ _
          rw [Links.packages_indexOf]
          simp [htarget]
      · simp only [hr,if_neg hm] at h
        contradiction
    | package q =>
      rw [hr] at htarget
      simp only [hr] at h
      obtain ⟨-,rfl⟩ := Prod.mk.inj (Except.ok.inj h)
      refine ⟨fun d => by simp [htarget],fun p => ?_,by simp [htarget]⟩
      simp [PackageSpec.mem_insert_iff,htarget,or_comm,eq_comm]
    | nothing =>
      simp only [hr] at h
      contradiction

/-- The links of a program tell what its specifiers name. -/
theorem accounts_of_linkProgram {p p' : Program} (h : s.linkProgram p = .ok (p',links)) :
    s.Accounts ((p.module.body.filter fun n => !namesStyles n).flatMap Node.specifiers) {} links := by
  obtain ⟨⟨body,links'⟩,hbody,hret⟩ := bind_eq_ok h
  obtain ⟨-,rfl⟩ := Prod.mk.inj (Except.ok.inj hret)
  obtain ⟨⟨kept,mid⟩,hkept,hmap⟩ := bind_eq_ok hbody
  obtain ⟨kept',hdrop,hret'⟩ := bind_eq_ok hkept
  obtain ⟨rfl,rfl⟩ := Prod.mk.inj (Except.ok.inj hret')
  have hitems := (visits_records s).mapM (fun n => (visits_records s).mapSpecifiers (records_link s) n) kept'
  rw [← kept_of_dropStyleImports hdrop]
  exact (hitems _ _ _ hmap).2

theorem keeps_nodup_link (s : Surroundings) (specifier : String) :
    Linking.Keeps (fun links => links.modules.Nodup) (Option String) (s.link specifier) := by
  have hc := Linking.composes_keeps fun links => links.modules.Nodup
  unfold link
  split
  · exact hc.pure _
  · split
    · split
      · exact hc.bind (Linking.keeps_modifyGet fun links hI => Links.nodup_indexOf hI) fun i => hc.pure _
      · exact Linking.keeps_throw_bind _ _
    · exact hc.bind (Linking.keeps_modify fun links hI => hI) fun _ => hc.pure _
    · exact Linking.keeps_throw _

/-- Is what stands in the place of a specifier what its text asks for: itself if it is an address, and the placeholder
of a module or the address of a package that the links tell of? -/
inductive Carries (s : Surroundings) (links : Links) (v : String) (part : Node) : Node → Prop
  | address (h : s.target? v = none) : Carries s links v part part
  | module {path : String} {i : Nat} (h : s.target? v = some (.file path)) (hi : links.modules[i]? = some path) :
      Carries s links v part (.literal part.span (.string (placeholder i) none))
  | package {q : PackageSpec} (h : s.target? v = some (.package q)) (hq : q ∈ links.packages) :
      Carries s links v part (.literal part.span (.string (s.redirects.urlFor q) none))

/-- Is a tree what another one is linked to?  What its specifiers ask for stands in the places of them, unless they
are shielded, and every other node stays. -/
structure LinksTo (s : Surroundings) (links : Links) (n n' : Node) : Prop where
  carried : ∀ way part v, n.Specifier way v → Node.isShielded way n = false → n.at? way = some part →
    ∃ part', n'.at? way = some part' ∧ s.Carries links v part part'
  kept : ∀ way, (∀ v, n.Specifier way v → Node.isShielded way n = true) →
    (n'.at? way).map Node.outline = (n.at? way).map Node.outline

theorem place_placeholders {modules : List String} (h : s.target? v = some (.file path)) (hpath : path ∈ modules) :
    s.place (placeholders modules) v = some (placeholder (modules.idxOf path)) := by
  obtain ⟨hurl,hr⟩ := target?_eq_some h
  simp only [place,hurl,hr,placeholders,known,if_pos hpath]
  rfl

/-- The text in the place of a specifier, if the links tell of it. -/
theorem carries_withString {vs : List String} (haccount : s.Accounts vs {} links) (hmem : v ∈ vs)
    (hpart : part.stringValue? = some v) :
    s.Carries links v part (part.withString (s.place (placeholders links.modules))) := by
  obtain ⟨span,raw,rfl⟩ := Node.stringValue?_eq_some hpart
  cases htarget : s.target? v with
  | none =>
    have hplace : s.place (placeholders links.modules) v = none := by
      unfold target? at htarget
      split at htarget
      · rename_i hurl
        exact if_pos hurl
      · contradiction
    rw [Node.withString_of_none hplace]
    exact .address htarget
  | some r =>
    obtain ⟨hurl,hr⟩ := target?_eq_some htarget
    cases r with
    | file path =>
      have hpath : path ∈ links.modules := (haccount.modules path).2 (.inr ⟨v,hmem,htarget⟩)
      rw [Node.withString_of_some (place_placeholders htarget hpath)]
      exact .module htarget (List.getElem?_idxOf hpath)
    | package q =>
      have hplace : s.place (placeholders links.modules) v = some (s.redirects.urlFor q) := by
        simp only [place,hurl,hr]
        rfl
      rw [Node.withString_of_some hplace]
      exact .package htarget ((haccount.packages q).2 (.inr ⟨v,hmem,htarget⟩))
    | nothing => exact absurd htarget (haccount.resolved v hmem)

theorem linksTo_withSpecifiers {vs : List String} (haccount : s.Accounts vs {} links)
    (hn : ∀ v ∈ n.specifiers, v ∈ vs) :
    s.LinksTo links n (n.withSpecifiers (s.place (placeholders links.modules))) where
  carried way part v hs hway hat := by
    obtain ⟨part',hat',hv⟩ := hs.exists_at?
    obtain rfl := Option.some.inj (hat'.symm.trans hat)
    refine ⟨_,?_,carries_withString haccount (hn v (hs.mem_specifiers hway)) hv⟩
    rw [Node.at?_withSpecifiers_of_specifier _ hs hway,hat]
    rfl
  kept way h := Node.outline_at?_withSpecifiers _ h

/-- Do two trees differ only by placeholders of linked modules and addresses of linked packages? -/
def DiffersByLinks (s : Surroundings) (links : Links) (n n' : Node) : Prop :=
  ∀ way part part', n.at? way = some part → n'.at? way = some part' → part'.outline ≠ part.outline →
    (∃ i < links.modules.length, part' = .literal part.span (.string (placeholder i) none)) ∨
    ∃ q ∈ links.packages, part' = .literal part.span (.string (s.redirects.urlFor q) none)

theorem LinksTo.differsByLinks (h : s.LinksTo links n n') : s.DiffersByLinks links n n' := by
  intro way part part' hat hat' hne
  by_cases hs : ∃ v, n.Specifier way v ∧ Node.isShielded way n = false
  · obtain ⟨v,hs,hway⟩ := hs
    obtain ⟨part'',hat'',hcarries⟩ := h.carried way part v hs hway hat
    obtain rfl := Option.some.inj (hat''.symm.trans hat')
    cases hcarries with
    | address => exact absurd rfl hne
    | module _ hi => exact .inl ⟨_,(List.getElem?_eq_some_iff.1 hi).1,rfl⟩
    | package _ hq => exact .inr ⟨_,hq,rfl⟩
  · have hsame := h.kept way fun v hv => Bool.of_not_eq_false fun hway => hs ⟨v,hv,hway⟩
    rw [hat,hat'] at hsame
    exact absurd (Option.some.inj hsame) hne

/-- What some specifiers of the items that are kept name. -/
theorem mem_flatMap_specifiers {items : List Node} {r : Resolution} :
    (∃ v ∈ (items.filter fun n => !namesStyles n).flatMap Node.specifiers, s.target? v = some r) ↔
      ∃ n ∈ items, namesStyles n = false ∧
        ∃ way v, n.Specifier way v ∧ Node.isShielded way n = false ∧ s.target? v = some r := by
  simp only [List.mem_flatMap,List.mem_filter,Bool.not_eq_true',Node.mem_specifiers]
  constructor
  · rintro ⟨v,⟨n,⟨hn,hkept⟩,way,hs,hway⟩,hr⟩
    exact ⟨n,hn,hkept,way,v,hs,hway,hr⟩
  · rintro ⟨n,hn,hkept,way,v,hs,hway,hr⟩
    exact ⟨v,⟨n,⟨hn,hkept⟩,way,hs,hway⟩,hr⟩

theorem linksTo_of_linkProgram {p p' : Program} (h : s.linkProgram p = .ok (p',links)) :
    List.Forall₂ (s.LinksTo links) (p.module.body.filter fun n => !namesStyles n) p'.module.body := by
  have haccount := accounts_of_linkProgram h
  rw [program_of_linkProgram h,placeProgram,placeItems,List.forall₂_map_right_iff,List.forall₂_same]
  exact fun n hn => linksTo_withSpecifiers haccount fun v hv => List.mem_flatMap.2 ⟨n,hn,hv⟩

/-- In a linked program every specifier has become what it asks for, unless it is shielded; the links tell what these
specifiers name, each module once; and nothing else is different, except that imports of nothing from stylesheets are
dropped. -/
theorem specifiers_of_linkProgram (s : Surroundings) (p p' : Program) (links : Links)
    (h : s.linkProgram p = .ok (p',links)) :
    List.Forall₂ (s.LinksTo links) (p.module.body.filter fun n => !namesStyles n) p'.module.body ∧
    p' = { p with module := { p.module with body := p'.module.body } } ∧
    links.modules.Nodup ∧
    (∀ path, path ∈ links.modules ↔ ∃ n ∈ p.module.body, namesStyles n = false ∧
      ∃ way v, n.Specifier way v ∧ Node.isShielded way n = false ∧ s.target? v = some (.file path)) ∧
    ∀ q, q ∈ links.packages ↔ ∃ n ∈ p.module.body, namesStyles n = false ∧
      ∃ way v, n.Specifier way v ∧ Node.isShielded way n = false ∧ s.target? v = some (.package q) := by
  have haccount := accounts_of_linkProgram h
  refine ⟨linksTo_of_linkProgram h,?_,links_of_linkProgram (keeps_nodup_link s) List.nodup_nil h,fun path => ?_,
    fun q => ?_⟩
  · rw [program_of_linkProgram h]
    rfl
  · rw [haccount.modules,or_iff_right List.not_mem_nil,mem_flatMap_specifiers]
  · rw [haccount.packages,or_iff_right List.not_mem_nil,mem_flatMap_specifiers]

/-- One call of `import` waits for another one, and a stylesheet is imported between them. -/
theorem specifiers_of_linkProgram_of_nested :
    let s : Surroundings := ⟨"/App.js",[("/a.css",.file ""),("/b.js",.file ""),("/c.js",.file "")],{}⟩
    let p := ((Program.read ⟨false,true⟩
      "import('react').then(() => import('./c')); import './a.css'; export * from './b';".toList).toOption.getD default)
    let links : Links := ⟨["/c.js","/b.js"],[{ name := "react" }]⟩
    p.module.body.length = 3 ∧ ∃ p', s.linkProgram p = .ok (p',links) ∧
      List.Forall₂ (s.LinksTo links) (p.module.body.filter fun n => !namesStyles n) p'.module.body := by
  intro s p links
  obtain ⟨⟨p',links'⟩,hlink,hlinks⟩ := exists_eq_ok (x := s.linkProgram p) (p := fun r => decide (r.2 = links))
    (by decide +kernel)
  obtain rfl : links' = links := of_decide_eq_true hlinks
  exact ⟨by decide +kernel,p',hlink,(specifiers_of_linkProgram s p p' links hlink).1⟩

/-- A call of `import` among the attributes of an import is shielded, though it is not of the syntax of one: it goes on
naming the file by its path, and the links do not tell of it. -/
theorem specifier_stays_in_attributes :
    let source := "import './b.js' with \x7b type: import('./c.js') \x7d;\n"
    let fs : FileSet := [("/App.ts",.file source),("/b.js",.file ""),("/c.js",.file "")]
    ((Template.compile fs {} {} "/App.ts" source).toOption.map fun t => (t.text,t.links.modules)) =
      some ("import \"__livepreview_dep_0__\" with \x7b\n    type: import('./c.js')\n\x7d;\n",["/b.js"]) ∧
    ¬ ∀ (p p' : Program) (links : Links), linkProgram ⟨"/App.ts",fs,{}⟩ p = .ok (p',links) →
      List.Forall₂ (fun n n' => ∀ way part v, n.Specifier way v → n.at? way = some part →
          ∃ part', n'.at? way = some part' ∧ Carries ⟨"/App.ts",fs,{}⟩ links v part part')
        (p.module.body.filter fun n => !namesStyles n) p'.module.body := by
  intro source fs
  refine ⟨by decide +kernel,fun hall => ?_⟩
  let s : Surroundings := ⟨"/App.ts",fs,{}⟩
  let specifier : Node := .literal ⟨37,45⟩ (.string "./c.js" (some "'./c.js'"))
  let n : Node := .importDecl ⟨1,49⟩ false [] (.literal ⟨8,16⟩ (.string "./b.js" (some "'./b.js'")))
    (some (.object ⟨22,48⟩ [.property (.keyName ⟨24,28⟩ "type")
      (.call ⟨30,46⟩ (.importWord ⟨30,36⟩) [specifier])]))
  let p : Program := { module := { span := ⟨1,49⟩, shebang := none, body := [n] }, comments := {} }
  have hkept : (p.module.body.filter fun n => !namesStyles n) = [n] := rfl
  have hspecifier : n.Specifier [1,0,1,1] "./c.js" :=
    .inside rfl (.inside rfl (.inside rfl (.own rfl rfl rfl)))
  obtain ⟨⟨p',links⟩,hlink,-⟩ := exists_eq_ok (x := s.linkProgram p) (p := fun _ => true) (by decide +kernel)
  have hitems := hall p p' links hlink
  have hlinks := linksTo_of_linkProgram hlink
  rw [hkept] at hitems hlinks
  cases hbody : p'.module.body with
  | nil => simp [hbody] at hitems
  | cons n' rest =>
    rw [hbody,List.forall₂_cons] at hitems hlinks
    obtain ⟨part',hat,hcarries⟩ := hitems.1 _ specifier _ hspecifier rfl
    have hsame := hlinks.1.kept [1,0,1,1] fun _ _ => rfl
    rw [hat] at hsame
    have htarget : s.target? "./c.js" = some (.file "/c.js") := by decide +kernel
    cases hcarries with
    | address h => cases htarget.symm.trans h
    | package h => cases htarget.symm.trans h
    | module =>
      have hliteral := (Node.literal.inj (Option.some.inj hsame)).2
      exact absurd (Literal.string.inj hliteral).2 nofun

end Surroundings

end PreviewCompiler
