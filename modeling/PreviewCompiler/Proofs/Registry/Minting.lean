import PreviewCompiler.Proofs.Registry.Run
import Mathlib.Data.Finset.Card
import Mathlib.Order.Bounds.Defs

namespace PreviewCompiler

open Data

namespace Commit

variable {c : Commit}

theorem summary_release (c : Commit) (path : String) :
    (c.release path).summary =
      { c.summary with released := c.summary.released + if c.registry.contains path then 1 else 0 } := by
  have hcontains : c.registry.contains path = (c.registry.release path).isSome := by
    rw [Registry.release,Option.isSome_map]
    rfl
  unfold release
  split
  · rename_i r' hr
    simp [hcontains,hr]
  · rename_i hr
    simp [hcontains,hr]

/-- Releasing one path does not change whether there is a module at another one. -/
theorem summary_foldl_release (c : Commit) {paths : List String} (hn : paths.Nodup) :
    (paths.foldl release c).summary =
      { c.summary with released := c.summary.released + paths.countP (c.registry.contains ·) } := by
  induction paths generalizing c with
  | nil => rfl
  | cons path paths ih =>
    obtain ⟨hnot,hrest⟩ := List.nodup_cons.1 hn
    have hsame : ∀ p ∈ paths, (c.release path).registry.contains p = c.registry.contains p := by
      intro p hp
      have hne : p ≠ path := fun heq => hnot (heq ▸ hp)
      have hmod := module?_release c path p
      rw [if_neg hne] at hmod
      exact congrArg Option.isSome hmod
    have hcount : paths.countP ((c.release path).registry.contains ·) = paths.countP (c.registry.contains ·) :=
      List.countP_congr fun p hp => by rw [hsame p hp]
    rw [List.foldl_cons,ih _ hrest,summary_release,hcount,List.countP_cons]
    simp only [CommitSummary.mk.injEq,and_true,true_and]
    omega

theorem contains_refer (c : Commit) (m : StagedModule) (p : String) :
    (c.refer m).registry.contains p = c.registry.contains p :=
  congrArg Option.isSome (module?_refer c m p)

theorem summary_refer (c : Commit) (m : StagedModule) :
    (c.refer m).summary =
      { c.summary with minted := c.summary.minted + if c.registry.contains m.path then 0 else 1 } := by
  cases hm : c.registry.module? m.path with
  | some old =>
    rw [refer_of_registered hm,if_pos (show c.registry.contains m.path = true from congrArg Option.isSome hm)]
    rfl
  | none =>
    have hc : c.registry.contains m.path = false := congrArg Option.isSome hm
    rw [refer_of_new hm,hc]
    rfl

theorem summary_foldl_refer (c : Commit) (staged : StagedBuild) :
    (staged.foldl refer c).summary =
      { c.summary with minted := c.summary.minted + staged.countP (!c.registry.contains ·.path) } := by
  induction staged generalizing c with
  | nil => rfl
  | cons m staged ih =>
    have hcount : staged.countP (!(c.refer m).registry.contains ·.path) =
        staged.countP (!c.registry.contains ·.path) :=
      List.countP_congr fun m' _ => by rw [contains_refer]
    rw [List.foldl_cons,ih,summary_refer,hcount,List.countP_cons]
    cases c.registry.contains m.path
    · simp
      omega
    · simp

theorem summary_register (c : Commit) {m : StagedModule} {ref : Reference}
    (href : OrderedMap.find? m.path c.references = some ref) :
    (c.register m).summary =
      { c.summary with reused := c.summary.reused + if c.registry.contains m.path then 1 else 0 } := by
  unfold register
  split
  · rfl
  · simp [href]

/-- Registering one module does not change whether there is one at another path. -/
theorem summary_foldl_register (c : Commit) {todo : StagedBuild} (hn : todo.paths.Nodup)
    (hrefs : ∀ m ∈ todo, ∃ ref, OrderedMap.find? m.path c.references = some ref) :
    (todo.foldl register c).summary =
      { c.summary with reused := c.summary.reused + todo.countP (c.registry.contains ·.path) } := by
  induction todo generalizing c with
  | nil => rfl
  | cons m todo ih =>
    obtain ⟨hnot,hrest⟩ := List.nodup_cons.1 hn
    obtain ⟨ref,href⟩ := hrefs m List.mem_cons_self
    have hsame : ∀ m' ∈ todo, (c.register m).registry.contains m'.path = c.registry.contains m'.path := by
      intro m' hm'
      have hmod := module?_register c href m'.path
      rw [if_neg (StagedBuild.path_ne_of_not_mem_paths hnot hm')] at hmod
      exact congrArg Option.isSome hmod
    have hcount : todo.countP ((c.register m).registry.contains ·.path) =
        todo.countP (c.registry.contains ·.path) :=
      List.countP_congr fun m' hm' => by rw [hsame m' hm']
    have hrefs' : ∀ m' ∈ todo, ∃ ref, OrderedMap.find? m'.path (c.register m).references = some ref := by
      intro m' hm'
      rw [references_register]
      exact hrefs m' (List.mem_cons_of_mem _ hm')
    rw [List.foldl_cons,ih _ hrest hrefs',summary_register c href,hcount,List.countP_cons]
    simp only [CommitSummary.mk.injEq,true_and]
    omega

/-- Has every module that is not registered yet a reference with a number above `n`? -/
def Fresh (n : Nat) (c : Commit) : Prop :=
  n ≤ c.registry.blobs.minted ∧
  ∀ p ref, OrderedMap.find? p c.references = some ref → c.registry.module? p = none → n < ref.id

theorem Fresh.refer {n : Nat} (h : c.Fresh n) (m : StagedModule) : (c.refer m).Fresh n := by
  obtain ⟨hn,hrefs⟩ := h
  have hself := references_refer_self c m
  refine ⟨?_,fun p ref href hp => ?_⟩
  · cases hm : c.registry.module? m.path with
    | some old =>
      rw [refer_of_registered hm]
      exact hn
    | none =>
      rw [refer_of_new hm]
      exact Nat.le_succ_of_le hn
  · rw [module?_refer] at hp
    by_cases heq : p = m.path
    · subst heq
      rw [hp] at hself
      obtain rfl := Option.some.inj (hself.symm.trans href)
      exact Nat.lt_succ_of_le hn
    · rw [references_refer_of_ne c heq] at href
      exact hrefs p ref href hp

theorem Fresh.foldl_refer {n : Nat} (h : c.Fresh n) (staged : StagedBuild) :
    (staged.foldl Commit.refer c).Fresh n := by
  induction staged generalizing c with
  | nil => exact h
  | cons m staged ih => exact ih (h.refer m)

theorem minted_release (c : Commit) (path : String) :
    (c.release path).registry.blobs.minted = c.registry.blobs.minted := by
  unfold release
  split
  · rename_i r' hr
    obtain ⟨m,-,rfl⟩ := Option.map_eq_some_iff.1 hr
    exact BlobStore.minted_release _ _
  · rfl

theorem minted_foldl_release (c : Commit) (paths : List String) :
    (paths.foldl release c).registry.blobs.minted = c.registry.blobs.minted := by
  induction paths generalizing c with
  | nil => rfl
  | cons path paths ih => rw [List.foldl_cons,ih,minted_release]

end Commit

namespace BlobStore

theorem minted_run (b : BlobStore) (calls : List BlobCall) :
    (b.run calls).minted = b.minted + (b.handedOut calls).length := by
  induction calls generalizing b with
  | nil => rfl
  | cons c calls ih =>
    have hrest := ih (b.call c)
    cases c with
    | allocate =>
      have hstep : (b.call .allocate).minted = b.minted + 1 := rfl
      rw [hstep] at hrest
      change ((b.call .allocate).run calls).minted = b.minted + ((b.call .allocate).handedOut calls).length.succ
      omega
    | bind r code => rwa [show (b.call (.bind r code)).minted = b.minted from b.minted_bind r code] at hrest
    | release r => rwa [show (b.call (.release r)).minted = b.minted from b.minted_release r] at hrest
    | releaseAll => exact hrest

/-- The numbers of the references that have been given out are not above the last one. -/
theorem id_le_of_mem_handedOut {b : BlobStore} {calls : List BlobCall} {ref : Reference}
    (h : ref ∈ b.handedOut calls) : ref.id ≤ (b.run calls).minted := by
  rw [b.handedOut_eq calls] at h
  obtain ⟨id,hid,rfl⟩ := List.mem_map.1 h
  rw [minted_run]
  have hlt := (List.mem_range'_1.1 hid).2
  change id ≤ _
  omega

end BlobStore

namespace Registry

variable {r : Registry} {staged : StagedBuild}

/-- Does a set of staged paths hold all modules that are new or have changed and, with a module, all that import
it? -/
structure Covers (r : Registry) (staged : StagedBuild) (S : Set String) : Prop where
  subset : ∀ p ∈ S, p ∈ staged.paths
  changed : ∀ m ∈ staged, (∀ old, r.module? m.path = some old →
    old.sourceHash ≠ m.template.sourceHash ∨ old.templateHash ≠ m.templateHash) → m.path ∈ S
  importers : ∀ m ∈ staged, ∀ d ∈ m.template.links.modules, d ∈ S → m.path ∈ S

theorem isSame_eq_false_iff {m : StagedModule} : r.isSame m = false ↔ ∀ old, r.module? m.path = some old →
    old.sourceHash ≠ m.template.sourceHash ∨ old.templateHash ≠ m.templateHash := by
  rw [← Bool.not_eq_true,isSame_iff]
  constructor
  · intro h old hold
    by_contra hsame
    simp only [not_or,not_not] at hsame
    exact h ⟨old,hold,hsame⟩
  · rintro h ⟨old,hold,hsource,htemplate⟩
    exact (h old hold).elim (· hsource) (· htemplate)

theorem isLeast_changedPaths (r : Registry) (staged : StagedBuild) :
    IsLeast {S | r.Covers staged S} {p | p ∈ r.changedPaths staged} := by
  constructor
  · exact {
      subset := changedPaths_subset
      changed := fun m hm hnew => mem_changedPaths_of_not_isSame hm (isSame_eq_false_iff.2 hnew)
      importers := fun m hm d hd hp => changedPaths_closed hm hp (List.contains_iff_mem.2 hd) }
  · intro S hS p hp
    refine changedPaths_least (S := (· ∈ S)) (fun m hm hnew => ?_) (fun m hm d hd hi => ?_) p hp
    · exact hS.changed m hm (isSame_eq_false_iff.1 hnew)
    · exact hS.importers m hm d (List.contains_iff_mem.1 hi) hd

theorem contains_cleared {m : StagedModule} (hm : m ∈ staged) :
    (r.cleared staged).registry.contains m.path = !decide (m.path ∈ r.changedPaths staged) := by
  have hp : m.path ∈ staged.paths := StagedBuild.mem_paths.2 ⟨m,hm,rfl⟩
  have hmod := congrArg Option.isSome (r.module?_cleared staged m.path)
  change (r.cleared staged).registry.contains m.path = _ at hmod
  rw [hmod]
  by_cases hc : m.path ∈ r.changedPaths staged
  · simp [hc]
  · obtain ⟨old,hold,-⟩ := isSame_iff.1 (isSame_of_not_mem_changedPaths hm hc)
    simp [hc,hp,hold]

/-- There are as many changed modules as changed paths. -/
theorem countP_changed (r : Registry) (hn : staged.paths.Nodup) :
    staged.countP (decide <| ·.path ∈ r.changedPaths staged) = (r.changedPaths staged).length := by
  have hperm : (staged.paths.filter (decide <| · ∈ r.changedPaths staged)).Perm (r.changedPaths staged) := by
    refine (List.perm_ext_iff_of_nodup (hn.filter _) (nodup_changedPaths hn)).2 fun p => ?_
    simp only [List.mem_filter,decide_eq_true_eq]
    exact ⟨fun h => h.2,fun h => ⟨changedPaths_subset p h,h⟩⟩
  rw [← hperm.length_eq,← List.countP_eq_length_filter,StagedBuild.paths,List.countP_map]
  rfl

theorem contains_of_mem_absentPaths {p : String} (hp : p ∈ r.absentPaths staged) : r.contains p = true :=
  OrderedMap.contains_iff_mem_keys.2 (List.mem_filter.1 hp).1

/-- What a commit tells. -/
theorem summary_commit (h : r.Sound) (hn : staged.paths.Nodup) :
    (r.commit staged).2 =
      { minted := (r.changedPaths staged).length
        released := (r.absentPaths staged).length + (r.changedPaths staged).countP (r.contains ·)
        reused := staged.length - (r.changedPaths staged).length } := by
  have hrefs : ∀ m ∈ staged, ∃ ref, OrderedMap.find? m.path (r.referred staged).references = some ref :=
    fun m hm => (h.referred hn).exists_reference hm
  have hkept : ∀ m ∈ staged, (r.referred staged).registry.contains m.path =
      !decide (m.path ∈ r.changedPaths staged) := fun m hm =>
    (congrArg Option.isSome (Commit.module?_foldl_refer (r.cleared staged) staged m.path)).trans
      (contains_cleared hm)
  have hnabsent : (r.absentPaths staged).Nodup := h.ordered.nodup_keys.filter _
  have habsent : (r.absentPaths staged).countP (r.contains ·) = (r.absentPaths staged).length :=
    List.countP_eq_length.2 fun p hp => contains_of_mem_absentPaths hp
  have htrimmed : (r.changedPaths staged).countP ((r.trimmed staged).registry.contains ·) =
      (r.changedPaths staged).countP (r.contains ·) := by
    refine List.countP_congr fun p hp => ?_
    rw [show (r.trimmed staged).registry.contains p = r.contains p from congrArg Option.isSome
      ((r.module?_trimmed staged p).trans (if_pos (changedPaths_subset p hp)))]
  have hminted : staged.countP (!(r.cleared staged).registry.contains ·.path) =
      (r.changedPaths staged).length := by
    rw [← r.countP_changed hn]
    exact List.countP_congr fun m hm => by rw [contains_cleared hm,Bool.not_not]
  have hreused : staged.countP ((r.referred staged).registry.contains ·.path) =
      staged.length - (r.changedPaths staged).length := by
    have hsum := List.length_eq_countP_add_countP (decide <| ·.path ∈ r.changedPaths staged) (l := staged)
    rw [r.countP_changed hn] at hsum
    rw [List.countP_congr (q := fun m => !decide (m.path ∈ r.changedPaths staged)) fun m hm => by rw [hkept m hm]]
    simp only [decide_eq_true_eq,decide_not] at hsum
    omega
  change (staged.foldl Commit.register (r.referred staged)).summary = _
  rw [Commit.summary_foldl_register _ hn hrefs,hreused,referred,Commit.summary_foldl_refer,hminted,cleared,
    Commit.summary_foldl_release _ (changedPaths_trimmed r staged ▸ nodup_changedPaths hn),changedPaths_trimmed,
    htrimmed,trimmed,Commit.foldl_discard_eq h,Commit.summary_foldl_release _ hnabsent]
  simp [habsent]

theorem Sound.keys_perm (h : r.Sound) : r.blobs.live.keys.Perm (r.modules.map (·.2.reference.text)) := by
  simpa [bound,OrderedMap.keys,Function.comp_def] using h.live_perm.map Prod.fst

/-- The number of a registered reference has been given out. -/
theorem Sound.id_le {p : String} {c : CompiledModule} (h : r.Sound) (hc : r.module? p = some c) :
    c.reference.id ≤ r.blobs.minted := by
  have hlive : c.reference.text ∈ r.blobs.live.keys := OrderedMap.contains_iff_mem_keys.1 (h.isLive hc)
  obtain ⟨id,-,hle,heq⟩ := h.valid.given _ hlive
  rw [Reference.text_injective heq]
  exact hle

theorem Sound.path_eq {p q : String} {c d : CompiledModule} (h : r.Sound) (hc : r.module? p = some c)
    (hd : r.module? q = some d) (heq : c.reference.text = d.reference.text) : p = q := by
  have hmem := List.inj_on_of_nodup_map h.nodup_references (OrderedMap.mem_of_find? hc)
    (OrderedMap.mem_of_find? hd) heq
  exact congrArg Prod.fst hmem

theorem fresh_referred (r : Registry) (staged : StagedBuild) :
    (r.referred staged).Fresh r.blobs.minted := by
  have hcleared : (r.cleared staged).Fresh r.blobs.minted := by
    refine ⟨?_,fun p ref href => ?_⟩
    · rw [cleared,Commit.minted_foldl_release,registry_trimmed,Commit.minted_foldl_release]
    · rw [cleared,Commit.references_foldl_release,references_trimmed] at href
      contradiction
  exact hcleared.foldl_refer staged

/-- The reference of a changed module has a number that had not been given out. -/
theorem minted_lt_of_changed {m : StagedModule} (h : r.Sound) (hn : staged.paths.Nodup) (hm : m ∈ staged)
    (hc : m.path ∈ r.changedPaths staged) :
    ∃ c, (r.commit staged).1.module? m.path = some c ∧ r.blobs.minted < c.reference.id := by
  obtain ⟨ref,href,-,hmod⟩ := module?_commit h hn hm
  have hgone : (r.cleared staged).registry.module? m.path = none := by
    rw [module?_cleared,if_neg fun hp => hp.2 hc]
  rw [hgone] at hmod
  refine ⟨_,hmod,(r.fresh_referred staged).2 m.path ref href ?_⟩
  rw [referred,Commit.module?_foldl_refer,hgone]

/-- The old reference of a module that has changed or is gone leads nowhere. -/
theorem dereference_commit_of_dropped {p : String} {c : CompiledModule} (h : r.Sound) (hn : staged.paths.Nodup)
    (hc : r.module? p = some c) (hp : p ∈ r.changedPaths staged ∨ p ∉ staged.paths) :
    (r.commit staged).1.dereference c.reference.text = none := by
  have hafter : (r.commit staged).1.Sound := h.commit hn
  refine BlobStore.get?_eq_none_of_not_mem fun hlive => ?_
  obtain ⟨⟨q,d⟩,he,heq⟩ := List.mem_map.1 (hafter.keys_perm.mem_iff.1 hlive)
  have hd : (r.commit staged).1.module? q = some d := (OrderedMap.find?_eq_some_iff hafter.ordered).2 he
  have hq : q ∈ staged.paths := (contains_commit h hn).1 (congrArg Option.isSome hd)
  obtain ⟨m,hm,rfl⟩ := StagedBuild.mem_paths.1 hq
  -- Whose reference would it be?  A changed module has a higher number, and an unchanged one had it before as well.
  by_cases hchanged : m.path ∈ r.changedPaths staged
  · obtain ⟨d',hd',hlt⟩ := minted_lt_of_changed h hn hm hchanged
    obtain rfl : d' = d := Option.some.inj (hd'.symm.trans hd)
    have hle := h.id_le hc
    rw [← Reference.text_injective heq] at hle
    exact absurd hlt (Nat.not_lt.2 hle)
  · obtain ⟨old,hold,hnew,-,-⟩ := module?_commit_of_unchanged h hn hm hchanged
    obtain rfl : old = d := Option.some.inj (hnew.symm.trans hd)
    obtain rfl := h.path_eq hold hc heq
    exact hp.elim hchanged fun hnot => hnot hq

end Registry

namespace Commit

variable {c : Commit}

theorem foldl_refer_of_registered {todo : StagedBuild} (h : ∀ m ∈ todo, c.registry.contains m.path = true) :
    (todo.foldl refer c).registry = c.registry ∧ (todo.foldl refer c).summary = c.summary := by
  induction todo generalizing c with
  | nil => exact ⟨rfl,rfl⟩
  | cons m todo ih =>
    obtain ⟨hm,hrest⟩ := List.forall_mem_cons.1 h
    obtain ⟨old,hold⟩ := Option.isSome_iff_exists.1 hm
    rw [List.foldl_cons,refer_of_registered hold]
    exact ih hrest

theorem foldl_register_of_registered {todo : StagedBuild} (h : ∀ m ∈ todo, c.registry.contains m.path = true) :
    todo.foldl register c = { c with summary := { c.summary with reused := c.summary.reused + todo.length } } := by
  induction todo generalizing c with
  | nil => rfl
  | cons m todo ih =>
    obtain ⟨hm,hrest⟩ := List.forall_mem_cons.1 h
    have hstep : c.register m = { c with summary := { c.summary with reused := c.summary.reused + 1 } } :=
      if_pos hm
    rw [List.foldl_cons,hstep]
    refine (ih (c := { c with summary := { c.summary with reused := c.summary.reused + 1 } }) hrest).trans ?_
    simp only [List.length_cons,Nat.add_assoc,Nat.add_comm 1]

end Commit

namespace Registry

variable {r : Registry} {staged : StagedBuild}

/-- A build that is registered as it is changes nothing. -/
theorem commit_of_same (hpaths : ∀ p, r.contains p = true → p ∈ staged.paths)
    (hsame : ∀ m ∈ staged, r.isSame m = true) : r.commit staged = (r,{ reused := staged.length }) := by
  have habsent : r.modules.keys.filter (!staged.paths.contains ·) = [] := by
    refine List.filter_eq_nil_iff.2 fun p hp => ?_
    have hmem := hpaths p (OrderedMap.contains_iff_mem_keys.2 hp)
    simpa using hmem
  have hchanged : r.changedPaths staged = [] := by
    refine List.eq_nil_iff_forall_not_mem.2 (changedPaths_least (fun m hm hnew => ?_) fun _ _ _ h _ => h)
    rw [hsame m hm] at hnew
    contradiction
  have hregistered : ∀ m ∈ staged, r.contains m.path = true := by
    intro m hm
    obtain ⟨old,hold,-⟩ := isSame_iff.1 (hsame m hm)
    exact congrArg Option.isSome hold
  obtain ⟨hregistry,hsummary⟩ := Commit.foldl_refer_of_registered (c := { registry := r }) hregistered
  simp only [commit,habsent,List.foldl_nil,hchanged]
  rw [Commit.foldl_register_of_registered (by rwa [hregistry]),hregistry,hsummary]
  simp

/-- After a commit the build is registered as it is. -/
theorem commit_commit (h : r.Sound) (hn : staged.paths.Nodup) :
    (r.commit staged).1.commit staged = ((r.commit staged).1,{ reused := staged.length }) :=
  commit_of_same (fun _ => (contains_commit h hn).1) fun _ hm => isSame_iff.2 (hashes_commit h hn hm)

/-- A commit gives new references to the least set of staged paths that holds what is new or has changed and, with a
module, whatever imports it.  It takes each path of the set from its queue once, so it ends also where modules import
each other.  All others stay as they are, the references that are replaced lead nowhere, and committing the build
again changes nothing. -/
theorem commit_mints_least (space : String) (calls : List RegistryCall) (staged : StagedBuild)
    (hcalls : ∀ c ∈ calls, c.IsStaged) (hstaged : staged.IsStaged) :
    let r := (empty space).run calls
    let r' := (r.commit staged).1
    ∃ D : Finset String, IsLeast {S | r.Covers staged S} D ∧ D.card ≤ staged.length ∧
      (∀ p ∈ staged.paths, p ∉ D → ∃ c, r.module? p = some c ∧ r'.module? p = some c) ∧
      (∀ p ∈ D, ∃ c, r'.module? p = some c ∧
        ∀ ref ∈ BlobStore.handedOut { space } ((empty space).trace calls), ref.text ≠ c.reference.text) ∧
      (r'.modules.map (·.2.reference.text)).Nodup ∧
      (∀ p c, r.module? p = some c → p ∈ D ∨ p ∉ staged.paths → r'.dereference c.reference.text = none) ∧
      (r.commit staged).2 =
        { minted := D.card
          released := (r.modules.keys.filter (· ∉ staged.paths)).length + (D.filter (r.contains ·)).card
          reused := staged.length - D.card } ∧
      r'.commit staged = (r',{ reused := staged.length }) := by
  intro r r'
  have hsound : r.Sound := (sound_empty space).run hcalls
  have hn : staged.paths.Nodup := hstaged.nodup_paths
  have hnodup : (r.changedPaths staged).Nodup := nodup_changedPaths hn
  have hcard : (r.changedPaths staged).toFinset.card = (r.changedPaths staged).length :=
    List.toFinset_card_of_nodup hnodup
  have hregistered : ((r.changedPaths staged).toFinset.filter (r.contains ·)).card =
      (r.changedPaths staged).countP (r.contains ·) := by
    rw [← List.toFinset_filter,List.toFinset_card_of_nodup (hnodup.filter _),List.countP_eq_length_filter]
  refine ⟨(r.changedPaths staged).toFinset,?_,?_,?_,?_,(hsound.commit hn).nodup_references,?_,?_,
    commit_commit hsound hn⟩
  · rw [List.coe_toFinset]
    exact r.isLeast_changedPaths staged
  · rw [hcard,← r.countP_changed hn]
    exact List.countP_le_length
  · intro p hp hnot
    obtain ⟨m,hm,rfl⟩ := StagedBuild.mem_paths.1 hp
    obtain ⟨old,hold,hnew,-,-⟩ := module?_commit_of_unchanged hsound hn hm fun hc => hnot (List.mem_toFinset.2 hc)
    exact ⟨old,hold,hnew⟩
  · intro p hp
    obtain ⟨m,hm,rfl⟩ := StagedBuild.mem_paths.1 (changedPaths_subset p (List.mem_toFinset.1 hp))
    obtain ⟨c,hc,hlt⟩ := minted_lt_of_changed hsound hn hm (List.mem_toFinset.1 hp)
    refine ⟨c,hc,fun ref href heq => ?_⟩
    have hle := BlobStore.id_le_of_mem_handedOut href
    rw [Reference.text_injective heq,show BlobStore.run { space } ((empty space).trace calls) = r.blobs from
      ((empty space).blobs_run calls).symm] at hle
    exact absurd hlt (Nat.not_lt.2 hle)
  · intro p c hc hp
    exact dereference_commit_of_dropped hsound hn hc (hp.imp_left List.mem_toFinset.1)
  · rw [summary_commit hsound hn,hcard,hregistered]
    simp [absentPaths]

/-- Of two modules that import each other one is released, so that both have to get new references. -/
theorem commit_mints_least_of_cycle :
    let staged : StagedBuild := (FileSet.stage
      [("/a.js",.file "import './b.js'"),("/b.js",.file "import './a.js'"),("/c.js",.file "")] {} {}).toOption.getD []
    let r := (empty "preview").run [.commit staged,.release "/b.js"]
    let r' := (r.commit staged).1
    ∃ D : Finset String, IsLeast {S | r.Covers staged S} D ∧ D.card ≤ staged.length ∧
      (∀ p ∈ staged.paths, p ∉ D → ∃ c, r.module? p = some c ∧ r'.module? p = some c) ∧
      (∀ p c, r.module? p = some c → p ∈ D ∨ p ∉ staged.paths → r'.dereference c.reference.text = none) ∧
      (r.commit staged).2.minted = D.card ∧ (r.commit staged).2.reused = staged.length - D.card ∧
      r'.commit staged = (r',{ reused := staged.length }) := by
  intro staged
  have hstaged : staged.IsStaged := StagedBuild.isStaged_of_isOk (by decide +kernel) (by decide +kernel)
  have hcalls : ∀ c ∈ [RegistryCall.commit staged,.release "/b.js"], c.IsStaged := by
    simp only [List.forall_mem_cons]
    exact ⟨hstaged,trivial,fun _ hm => absurd hm List.not_mem_nil⟩
  obtain ⟨D,hleast,hcard,hkept,-,-,hdropped,htold,hagain⟩ :=
    commit_mints_least "preview" [.commit staged,.release "/b.js"] staged hcalls hstaged
  exact ⟨D,hleast,hcard,hkept,hdropped,congrArg CommitSummary.minted htold,
    congrArg CommitSummary.reused htold,hagain⟩

end Registry

end PreviewCompiler
