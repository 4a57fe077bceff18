import PreviewCompiler.Proofs.Registry.Blob
import PreviewCompiler.Proofs.Registry.Changes

namespace PreviewCompiler

open Data

namespace Registry

/-- The references of the modules, with the code behind them. -/
def bound (r : Registry) : List (String × Option String) :=
  r.modules.map fun e => (e.2.reference.text,some e.2.code)

/-- The live references are those of the modules, each with the code of its module, and those that wait. -/
structure Holds (waiting : List Reference) (r : Registry) : Prop where
  ordered : OrderedMap.IsOrdered r.modules
  valid : r.blobs.Valid
  live : r.blobs.live.Perm (r.bound ++ waiting.map fun ref => (ref.text,none))

/-- The live references are those of the modules. -/
abbrev Sound : Registry → Prop := Holds []

variable {r : Registry} {waiting : List Reference}

theorem sound_empty (space : String) : (empty space).Sound :=
  ⟨List.Pairwise.nil,BlobStore.valid_empty space,.refl _⟩

theorem Holds.perm {waiting' : List Reference} (h : r.Holds waiting) (hp : waiting.Perm waiting') :
    r.Holds waiting' :=
  ⟨h.ordered,h.valid,h.live.trans ((hp.map _).append_left _)⟩

theorem Holds.live_cons {path : String} {m : CompiledModule} (h : r.Holds waiting)
    (hm : r.module? path = some m) : r.blobs.live.Perm ((m.reference.text,some m.code) ::
      (bound { r with modules := OrderedMap.erase path r.modules } ++ waiting.map fun ref => (ref.text,none))) :=
  h.live.trans (((OrderedMap.perm_cons_erase h.ordered hm).map _).append_right _)

theorem Holds.isLive {path : String} {m : CompiledModule} (h : r.Holds waiting)
    (hm : r.module? path = some m) : r.blobs.isLive m.reference = true := by
  rw [BlobStore.isLive,OrderedMap.contains,OrderedMap.find?_of_perm_cons h.valid.ordered (h.live_cons hm)]
  rfl

theorem Holds.release {path : String} {r' : Registry} (h : r.Holds waiting)
    (hr : r.release path = some r') : r'.Holds waiting := by
  obtain ⟨m,hm,rfl⟩ := Option.map_eq_some_iff.1 hr
  have hp := h.live_cons hm
  have hlive := h.isLive hm
  refine ⟨h.ordered.erase _,h.valid.release _,?_⟩
  change (r.blobs.release m.reference).2.live.Perm _
  rw [BlobStore.release,if_pos hlive]
  exact OrderedMap.erase_perm_of_perm_cons h.valid.ordered hp

theorem module?_of_release {path : String} {r' : Registry} (h : r.release path = some r') (p : String) :
    r'.module? p = if p = path then none else r.module? p := by
  obtain ⟨m,-,rfl⟩ := Option.map_eq_some_iff.1 h
  split
  · rename_i hp
    exact hp ▸ OrderedMap.find?_erase_self path r.modules
  · rename_i hp
    exact OrderedMap.find?_erase_of_ne hp r.modules

theorem Holds.releaseAll (h : r.Holds waiting) : r.releaseAll.Sound :=
  ⟨List.Pairwise.nil,h.valid.releaseAll,.refl _⟩

theorem Holds.allocate (h : r.Holds waiting) :
    Holds (r.blobs.allocate.1 :: waiting) { r with blobs := r.blobs.allocate.2 } := by
  refine ⟨h.ordered,h.valid.allocate,?_⟩
  have hp := OrderedMap.insert_perm_of_not_mem (v := none) h.valid.next_not_mem
  exact (hp.trans (h.live.cons _)).trans List.perm_middle.symm

theorem Holds.bind {path : String} {m : CompiledModule} (h : r.Holds (m.reference :: waiting))
    (hpath : r.module? path = none) :
    Holds waiting ⟨(r.blobs.bind m.reference m.code).2,OrderedMap.insert path m r.modules⟩ := by
  have hp := h.live.trans List.perm_middle
  have hfind := OrderedMap.find?_of_perm_cons h.valid.ordered hp
  refine ⟨h.ordered.insert _ _,h.valid.bind _ _,?_⟩
  have hmods := OrderedMap.insert_perm_of_not_mem (v := m) (OrderedMap.find?_eq_none_iff.1 hpath)
  have hlive := (OrderedMap.insert_perm_erase h.valid.ordered m.reference.text (some m.code)).trans
    ((OrderedMap.erase_perm_of_perm_cons h.valid.ordered hp).cons _)
  simp only [BlobStore.bind,hfind]
  exact hlive.trans ((hmods.map fun e => (e.2.reference.text,some e.2.code)).append_right _).symm

/-- The reference of a module leads to the code of the module. -/
theorem Sound.dereference {path : String} {m : CompiledModule} (h : r.Sound)
    (hm : r.module? path = some m) : r.dereference m.reference.text = some m.code := by
  have hfind := OrderedMap.find?_of_perm_cons h.valid.ordered (h.live_cons hm)
  rw [Registry.dereference,BlobStore.get?,hfind]
  rfl

theorem Sound.live_perm (h : r.Sound) : r.blobs.live.Perm r.bound := by
  simpa using h.live

/-- No two modules have one reference. -/
theorem Sound.nodup_references (h : r.Sound) : (r.modules.map (·.2.reference.text)).Nodup := by
  have hk := (h.live_perm.map Prod.fst).nodup_iff.1 h.valid.ordered.nodup_keys
  rwa [bound,List.map_map] at hk

end Registry

namespace Commit

variable {refs : List Reference} {c : Commit}

theorem module?_release (c : Commit) (path p : String) :
    (c.release path).registry.module? p = if p = path then none else c.registry.module? p := by
  unfold release
  split
  · exact Registry.module?_of_release (by assumption) p
  · rename_i hnone
    split
    · rename_i hp
      exact hp ▸ Option.map_eq_none_iff.1 hnone
    · rfl

theorem references_release (c : Commit) (path : String) : (c.release path).references = c.references := by
  unfold release
  split <;> rfl

theorem holds_release (h : c.registry.Holds refs) (path : String) :
    (c.release path).registry.Holds refs := by
  unfold release
  split
  · exact h.release (by assumption)
  · exact h

theorem module?_foldl_release (c : Commit) (paths : List String) (p : String) :
    (paths.foldl release c).registry.module? p = if p ∈ paths then none else c.registry.module? p := by
  induction paths generalizing c with
  | nil => simp
  | cons path paths ih =>
    rw [List.foldl_cons,ih,module?_release]
    by_cases hp : p = path <;> simp [hp]

theorem references_foldl_release (c : Commit) (paths : List String) :
    (paths.foldl release c).references = c.references := by
  induction paths generalizing c with
  | nil => rfl
  | cons path paths ih => rw [List.foldl_cons,ih,references_release]

theorem holds_foldl_release (h : c.registry.Holds refs) (paths : List String) :
    (paths.foldl release c).registry.Holds refs := by
  induction paths generalizing c with
  | nil => exact h
  | cons path paths ih => exact ih (holds_release h path)

theorem registry_discard (c : Commit) (path : String) : (c.discard path).registry = (c.release path).registry := by
  unfold discard release
  cases hm : c.registry.module? path with
  | some m => simp only [Registry.release,hm,Option.map_some]
  | none => simp only [Registry.release,hm,Option.map_none]

theorem references_discard (c : Commit) (path : String) : (c.discard path).references = c.references := by
  unfold discard
  split <;> rfl

theorem registry_release_congr {c' : Commit} (h : c.registry = c'.registry) (path : String) :
    (c.release path).registry = (c'.release path).registry := by
  unfold release
  rw [h]
  split
  · rfl
  · exact h

theorem registry_foldl_discard {c' : Commit} (h : c.registry = c'.registry) (paths : List String) :
    (paths.foldl discard c).registry = (paths.foldl release c').registry := by
  induction paths generalizing c c' with
  | nil => exact h
  | cons path paths ih => exact ih ((registry_discard c path).trans (registry_release_congr h path))

theorem references_foldl_discard (c : Commit) (paths : List String) :
    (paths.foldl discard c).references = c.references := by
  induction paths generalizing c with
  | nil => rfl
  | cons path paths ih => rw [List.foldl_cons,ih,references_discard]

/-- Every registered reference is live, so that it makes no difference whether a dead one counts. -/
theorem discard_eq_release (h : c.registry.Holds refs) (path : String) : c.discard path = c.release path := by
  unfold discard release
  cases hm : c.registry.module? path with
  | some m =>
    have hlive := h.isLive hm
    simp only [Registry.release,hm,Option.map_some,BlobStore.release,if_pos hlive]
    rfl
  | none => simp only [Registry.release,hm,Option.map_none]

theorem foldl_discard_eq (h : c.registry.Holds refs) (paths : List String) :
    paths.foldl discard c = paths.foldl release c := by
  induction paths generalizing c with
  | nil => rfl
  | cons path paths ih =>
    rw [List.foldl_cons,List.foldl_cons,discard_eq_release h]
    exact ih (holds_release h path)

/-- The references of the modules that are not registered yet. -/
def waiting (c : Commit) (staged : StagedBuild) : List Reference :=
  (staged.filter (!c.registry.contains ·.path)).filterMap fun m => OrderedMap.find? m.path c.references

/-- A commit after the references of `done` have been noted. -/
structure Referred (done : StagedBuild) (c : Commit) : Prop where
  holds : c.registry.Holds (c.waiting done)
  noted : ∀ m ∈ done, ∃ ref, OrderedMap.find? m.path c.references = some ref ∧
    ∀ old, c.registry.module? m.path = some old → old.reference = ref
  only : ∀ p ∉ done.paths, OrderedMap.find? p c.references = none

theorem modules_refer (c : Commit) (m : StagedModule) :
    (c.refer m).registry.modules = c.registry.modules := by
  unfold refer
  split <;> rfl

theorem module?_refer (c : Commit) (m : StagedModule) (p : String) :
    (c.refer m).registry.module? p = c.registry.module? p := by
  rw [Registry.module?,modules_refer]
  rfl

theorem references_refer_of_ne (c : Commit) {m : StagedModule} {p : String} (h : p ≠ m.path) :
    OrderedMap.find? p (c.refer m).references = OrderedMap.find? p c.references := by
  unfold refer
  split
  · exact OrderedMap.find?_insert_of_ne h _ _
  · exact OrderedMap.find?_insert_of_ne h _ _

theorem waiting_congr {c c' : Commit} {staged : StagedBuild}
    (hmods : ∀ m ∈ staged, c'.registry.module? m.path = c.registry.module? m.path)
    (hrefs : ∀ m ∈ staged, OrderedMap.find? m.path c'.references = OrderedMap.find? m.path c.references) :
    c'.waiting staged = c.waiting staged := by
  have hcontains : ∀ m ∈ staged, c'.registry.contains m.path = c.registry.contains m.path := fun m hm =>
    congrArg Option.isSome (hmods m hm)
  rw [waiting,waiting,List.filter_congr fun m hm => congrArg not (hcontains m hm)]
  exact List.filterMap_congr fun m hm => hrefs m (List.mem_filter.1 hm).1

theorem waiting_cons_of_registered {staged : StagedBuild} {m : StagedModule}
    (h : c.registry.contains m.path = true) : c.waiting (m :: staged) = c.waiting staged := by
  simp [waiting,h]

theorem waiting_cons_of_new {staged : StagedBuild} {m : StagedModule} {ref : Reference}
    (h : c.registry.contains m.path = false) (href : OrderedMap.find? m.path c.references = some ref) :
    c.waiting (m :: staged) = ref :: c.waiting staged := by
  simp [waiting,h,href]

theorem refer_of_registered {m : StagedModule} {old : CompiledModule}
    (h : c.registry.module? m.path = some old) :
    c.refer m = { c with references := OrderedMap.insert m.path old.reference c.references } := by
  simp only [refer,h]

theorem refer_of_new {m : StagedModule} (h : c.registry.module? m.path = none) :
    c.refer m = ⟨{ c.registry with blobs := c.registry.blobs.allocate.2 },
      { c.summary with minted := c.summary.minted + 1 },
      OrderedMap.insert m.path c.registry.blobs.allocate.1 c.references⟩ := by
  simp only [refer,h]

/-- The reference of a registered module is noted as it is, and any other module gets a new one. -/
theorem references_refer_self (c : Commit) (m : StagedModule) :
    OrderedMap.find? m.path (c.refer m).references =
      some (((c.registry.module? m.path).map CompiledModule.reference).getD c.registry.blobs.allocate.1) := by
  cases hold : c.registry.module? m.path with
  | some old =>
    rw [refer_of_registered hold]
    exact OrderedMap.find?_insert_self _ _ _
  | none =>
    rw [refer_of_new hold]
    exact OrderedMap.find?_insert_self _ _ _

theorem holds_refer {done : StagedBuild} {m : StagedModule} (h : c.registry.Holds (c.waiting done))
    (hm : m.path ∉ StagedBuild.paths done) :
    (c.refer m).registry.Holds ((c.refer m).waiting (m :: done)) := by
  have hsame : (c.refer m).waiting done = c.waiting done := waiting_congr
    (fun m' _ => module?_refer c m m'.path)
    fun m' hm' => references_refer_of_ne c (StagedBuild.path_ne_of_not_mem_paths hm hm')
  have hself := references_refer_self c m
  have hcontains : (c.refer m).registry.contains m.path = (c.registry.module? m.path).isSome :=
    congrArg Option.isSome (module?_refer c m m.path)
  cases hold : c.registry.module? m.path with
  | some old =>
    rw [hold] at hcontains
    rw [waiting_cons_of_registered hcontains,hsame,refer_of_registered hold]
    exact h
  | none =>
    rw [hold] at hcontains hself
    rw [waiting_cons_of_new hcontains hself,hsame,refer_of_new hold]
    exact h.allocate

theorem Referred.refer {done : StagedBuild} {m : StagedModule} (h : Referred done c)
    (hm : m.path ∉ StagedBuild.paths done) : Referred (m :: done) (c.refer m) := by
  refine ⟨holds_refer h.holds hm,fun m' hm' => ?_,fun p hp => ?_⟩
  · rcases List.mem_cons.1 hm' with rfl | hm'
    · refine ⟨_,references_refer_self c m',fun old ho => ?_⟩
      rw [module?_refer] at ho
      rw [ho]
      rfl
    · obtain ⟨ref,href,hreg⟩ := h.noted m' hm'
      have hne : m'.path ≠ m.path := StagedBuild.path_ne_of_not_mem_paths hm hm'
      exact ⟨ref,(references_refer_of_ne c hne).trans href,fun old ho =>
        hreg old ((module?_refer c _ _).symm.trans ho)⟩
  · obtain ⟨hne,hp'⟩ : p ≠ m.path ∧ p ∉ StagedBuild.paths done := by
      simpa [StagedBuild.paths] using hp
    exact (references_refer_of_ne c hne).trans (h.only p hp')

theorem Referred.exists_reference {done : StagedBuild} {m : StagedModule} (h : Referred done c)
    (hm : m ∈ done) : ∃ ref, OrderedMap.find? m.path c.references = some ref := by
  obtain ⟨ref,href,-⟩ := h.noted m hm
  exact ⟨ref,href⟩

theorem Referred.perm {done done' : StagedBuild} (h : Referred done c) (hp : done.Perm done') :
    Referred done' c := by
  refine ⟨h.holds.perm ((hp.filter _).filterMap _),fun m hm => h.noted m (hp.mem_iff.2 hm),fun p hm => ?_⟩
  exact h.only p fun hd => hm ((hp.map StagedModule.path).mem_iff.1 hd)

theorem Referred.foldl {done todo : StagedBuild} (h : Referred done c)
    (hn : (StagedBuild.paths (todo ++ done)).Nodup) : Referred (todo ++ done) (todo.foldl Commit.refer c) := by
  induction todo generalizing c done with
  | nil => exact h
  | cons m todo ih =>
    have hp : (m :: (todo ++ done)).Perm (todo ++ m :: done) := List.perm_middle.symm
    have hm : m.path ∉ StagedBuild.paths done := fun hd =>
      (List.nodup_cons.1 hn).1 (by simpa [StagedBuild.paths] using Or.inr (StagedBuild.mem_paths.1 hd))
    exact (ih (h.refer hm) ((hp.map StagedModule.path).nodup_iff.1 hn)).perm hp.symm

theorem module?_foldl_refer (c : Commit) (staged : StagedBuild) (p : String) :
    (staged.foldl refer c).registry.module? p = c.registry.module? p := by
  induction staged generalizing c with
  | nil => rfl
  | cons m staged ih => rw [List.foldl_cons,ih,module?_refer]

theorem references_register (c : Commit) (m : StagedModule) : (c.register m).references = c.references := by
  unfold register
  split
  · rfl
  · split <;> rfl

theorem register_of_registered {m : StagedModule} (h : c.registry.contains m.path = true) :
    (c.register m).registry = c.registry := by
  simp [register,h]

theorem register_of_new {m : StagedModule} {ref : Reference} (h : c.registry.contains m.path = false)
    (href : OrderedMap.find? m.path c.references = some ref) :
    (c.register m).registry = ⟨(c.registry.blobs.bind ref (c.finalCode m.template)).2,
      OrderedMap.insert m.path (.ofStaged m (c.finalCode m.template) ref) c.registry.modules⟩ := by
  simp [register,h,href]

/-- The registered modules after one more has been registered. -/
theorem module?_register (c : Commit) {m : StagedModule} {ref : Reference}
    (href : OrderedMap.find? m.path c.references = some ref) (p : String) :
    (c.register m).registry.module? p =
      if p = m.path then
        some ((c.registry.module? m.path).getD (.ofStaged m (c.finalCode m.template) ref))
      else c.registry.module? p := by
  cases hm : c.registry.module? m.path with
  | some old =>
    rw [register_of_registered (congrArg Option.isSome hm)]
    split
    · rename_i hp
      exact hp ▸ hm
    · rfl
  | none =>
    rw [register_of_new (congrArg Option.isSome hm) href]
    split
    · rename_i hp
      exact hp ▸ OrderedMap.find?_insert_self _ _ _
    · rename_i hp
      exact OrderedMap.find?_insert_of_ne hp _ _

theorem holds_register {m : StagedModule} {todo : StagedBuild} {ref : Reference}
    (h : c.registry.Holds (c.waiting (m :: todo))) (hm : m.path ∉ StagedBuild.paths todo)
    (href : OrderedMap.find? m.path c.references = some ref) :
    (c.register m).registry.Holds ((c.register m).waiting todo) := by
  have hsame : (c.register m).waiting todo = c.waiting todo := waiting_congr
    (fun m' hm' => by rw [module?_register c href,if_neg (StagedBuild.path_ne_of_not_mem_paths hm hm')])
    fun m' _ => by rw [references_register]
  rw [hsame]
  cases hc : c.registry.contains m.path with
  | true =>
    rw [register_of_registered hc,← waiting_cons_of_registered hc]
    exact h
  | false =>
    rw [waiting_cons_of_new hc href] at h
    rw [register_of_new hc href]
    exact Registry.Holds.bind (m := .ofStaged m (c.finalCode m.template) ref) h
      (Option.not_isSome_iff_eq_none.1 (Bool.eq_false_iff.1 hc))

theorem holds_foldl_register {todo : StagedBuild} (h : c.registry.Holds (c.waiting todo))
    (hn : todo.paths.Nodup) (hrefs : ∀ m ∈ todo, ∃ ref, OrderedMap.find? m.path c.references = some ref) :
    (todo.foldl register c).registry.Sound := by
  induction todo generalizing c with
  | nil => exact h
  | cons m todo ih =>
    obtain ⟨hm,hrest⟩ := List.nodup_cons.1 hn
    obtain ⟨ref,href⟩ := hrefs m List.mem_cons_self
    refine ih (holds_register h hm href) hrest fun m' hm' => ?_
    rw [references_register]
    exact hrefs m' (List.mem_cons_of_mem _ hm')

theorem module?_foldl_register_of_not_mem {todo : StagedBuild} {p : String} (hp : p ∉ todo.paths)
    (hrefs : ∀ m ∈ todo, ∃ ref, OrderedMap.find? m.path c.references = some ref) :
    (todo.foldl register c).registry.module? p = c.registry.module? p := by
  induction todo generalizing c with
  | nil => rfl
  | cons m todo ih =>
    obtain ⟨ref,href⟩ := hrefs m List.mem_cons_self
    have ⟨hne,hrest⟩ : p ≠ m.path ∧ p ∉ StagedBuild.paths todo := by simpa [StagedBuild.paths] using hp
    rw [List.foldl_cons,ih hrest,module?_register c href,if_neg hne]
    intro m' hm'
    rw [references_register]
    exact hrefs m' (List.mem_cons_of_mem _ hm')

theorem finalCode_register (c : Commit) (m : StagedModule) (t : Template) :
    (c.register m).finalCode t = c.finalCode t := by
  rw [finalCode,finalCode,references_register]

/-- A module that is registered stays as it is, and any other is registered with its final code. -/
theorem module?_foldl_register {todo : StagedBuild} {m : StagedModule} {ref : Reference} (hm : m ∈ todo)
    (hn : todo.paths.Nodup) (hrefs : ∀ m ∈ todo, ∃ ref, OrderedMap.find? m.path c.references = some ref)
    (href : OrderedMap.find? m.path c.references = some ref) :
    (todo.foldl register c).registry.module? m.path =
      some ((c.registry.module? m.path).getD (.ofStaged m (c.finalCode m.template) ref)) := by
  induction todo generalizing c with
  | nil => contradiction
  | cons m' todo ih =>
    obtain ⟨hm',hrest⟩ := List.nodup_cons.1 hn
    have hrefs' : ∀ m ∈ todo, ∃ ref, OrderedMap.find? m.path (c.register m').references = some ref := by
      intro m hm
      rw [references_register]
      exact hrefs m (List.mem_cons_of_mem _ hm)
    rw [List.foldl_cons]
    rcases List.mem_cons.1 hm with rfl | hm
    · rw [module?_foldl_register_of_not_mem hm' hrefs',module?_register c href,if_pos rfl]
    · obtain ⟨ref',href'⟩ := hrefs m' List.mem_cons_self
      have hne : m.path ≠ m'.path := StagedBuild.path_ne_of_not_mem_paths hm' hm
      rw [ih hm hrest hrefs' (by rwa [references_register]),module?_register c href',if_neg hne,
        finalCode_register]

end Commit

namespace Registry

variable {r : Registry} {staged : StagedBuild}

/-- The paths of the modules that a build does not have any more. -/
def absentPaths (r : Registry) (staged : StagedBuild) : List String :=
  r.modules.keys.filter (!staged.paths.contains ·)

/-- A commit when the modules that the build does not have have been released. -/
def trimmed (r : Registry) (staged : StagedBuild) : Commit :=
  (r.absentPaths staged).foldl Commit.discard { registry := r }

/-- A commit when everything that goes has been released. -/
def cleared (r : Registry) (staged : StagedBuild) : Commit :=
  ((r.trimmed staged).registry.changedPaths staged).foldl Commit.release (r.trimmed staged)

/-- A commit when all references of the build are known. -/
def referred (r : Registry) (staged : StagedBuild) : Commit := staged.foldl Commit.refer (r.cleared staged)

theorem commit_eq (r : Registry) (staged : StagedBuild) :
    (r.commit staged).1 = (staged.foldl Commit.register (r.referred staged)).registry := rfl

theorem registry_trimmed (r : Registry) (staged : StagedBuild) :
    (r.trimmed staged).registry = ((r.absentPaths staged).foldl Commit.release { registry := r }).registry :=
  Commit.registry_foldl_discard rfl _

theorem references_trimmed (r : Registry) (staged : StagedBuild) : (r.trimmed staged).references = [] :=
  Commit.references_foldl_discard ..

theorem module?_trimmed (r : Registry) (staged : StagedBuild) (p : String) :
    (r.trimmed staged).registry.module? p = if p ∈ staged.paths then r.module? p else none := by
  rw [registry_trimmed,absentPaths,Commit.module?_foldl_release]
  by_cases hp : p ∈ staged.paths
  · simp [hp]
  · cases hm : r.module? p with
    | none => simp [hp]
    | some m =>
      have hk : p ∈ r.modules.keys := List.mem_map.2 ⟨_,OrderedMap.mem_of_find? hm,rfl⟩
      simp [hp,hk]

theorem changedPaths_trimmed (r : Registry) (staged : StagedBuild) :
    (r.trimmed staged).registry.changedPaths staged = r.changedPaths staged :=
  changedPaths_congr fun p hp => by rw [module?_trimmed,if_pos hp]

/-- What stays are the modules of the build that have not changed. -/
theorem module?_cleared (r : Registry) (staged : StagedBuild) (p : String) :
    (r.cleared staged).registry.module? p =
      if p ∈ staged.paths ∧ p ∉ r.changedPaths staged then r.module? p else none := by
  rw [cleared,Commit.module?_foldl_release,module?_trimmed,changedPaths_trimmed]
  by_cases hp : p ∈ staged.paths <;> by_cases hd : p ∈ r.changedPaths staged <;> simp [hp,hd]

theorem Sound.referred (h : r.Sound) (hn : staged.paths.Nodup) :
    Commit.Referred staged (r.referred staged) := by
  have hcleared : Commit.Referred [] (r.cleared staged) := by
    refine ⟨Commit.holds_foldl_release ?_ _,by simp,fun p _ => ?_⟩
    · rw [registry_trimmed]
      exact Commit.holds_foldl_release h _
    · rw [cleared,Commit.references_foldl_release,references_trimmed]
      rfl
  have hall : Commit.Referred (staged ++ []) (r.referred staged) := hcleared.foldl (by simpa using hn)
  rwa [List.append_nil] at hall

theorem Sound.commit (h : r.Sound) (hn : staged.paths.Nodup) : (r.commit staged).1.Sound := by
  have hr := h.referred hn
  exact Commit.holds_foldl_register hr.holds hn fun _ => hr.exists_reference

theorem module?_commit_of_not_mem {p : String} (h : r.Sound) (hn : staged.paths.Nodup)
    (hp : p ∉ staged.paths) : (r.commit staged).1.module? p = none := by
  have hr := h.referred hn
  rw [commit_eq,Commit.module?_foldl_register_of_not_mem hp fun _ => hr.exists_reference]
  rw [referred,Commit.module?_foldl_refer,module?_cleared,if_neg fun hc => hp hc.1]

/-- A staged module is registered with the reference that is noted for it: as what is left of it, or else anew. -/
theorem module?_commit {m : StagedModule} (h : r.Sound) (hn : staged.paths.Nodup) (hm : m ∈ staged) :
    ∃ ref, OrderedMap.find? m.path (r.referred staged).references = some ref ∧
      (∀ old, (r.cleared staged).registry.module? m.path = some old → old.reference = ref) ∧
      (r.commit staged).1.module? m.path = some (((r.cleared staged).registry.module? m.path).getD
        (.ofStaged m ((r.referred staged).finalCode m.template) ref)) := by
  have hr := h.referred hn
  obtain ⟨ref,href,hold⟩ := hr.noted m hm
  have hsame := Commit.module?_foldl_refer (r.cleared staged) staged m.path
  refine ⟨ref,href,fun old ho => hold old (hsame.trans ho),?_⟩
  rw [commit_eq,Commit.module?_foldl_register hm hn (fun _ => hr.exists_reference) href,referred,hsame]

/-- A commit registers what it stages, and nothing else. -/
theorem contains_commit {p : String} (h : r.Sound) (hn : staged.paths.Nodup) :
    (r.commit staged).1.contains p = true ↔ p ∈ staged.paths := by
  refine ⟨fun hc => Classical.byContradiction fun hp => ?_,fun hp => ?_⟩
  · rw [contains,OrderedMap.contains] at hc
    rw [show OrderedMap.find? p _ = none from module?_commit_of_not_mem h hn hp] at hc
    contradiction
  · obtain ⟨m,hm,rfl⟩ := StagedBuild.mem_paths.1 hp
    obtain ⟨ref,-,-,hmod⟩ := module?_commit h hn hm
    exact congrArg Option.isSome hmod

/-- The references that a commit notes are those of the registry after it. -/
private theorem find?_references (h : r.Sound) (hn : staged.paths.Nodup) (p : String) :
    OrderedMap.find? p (r.referred staged).references = (r.commit staged).1.reference? p := by
  by_cases hp : p ∈ staged.paths
  · obtain ⟨m,hm,rfl⟩ := StagedBuild.mem_paths.1 hp
    obtain ⟨ref,href,hold,hmod⟩ := module?_commit h hn hm
    rw [href,reference?,hmod]
    cases ho : (r.cleared staged).registry.module? m.path with
    | none => rfl
    | some old => exact congrArg some (hold old ho).symm
  · rw [(h.referred hn).only p hp,reference?,module?_commit_of_not_mem h hn hp]
    rfl

/-- The addresses of some modules; that of a module which is not registered is empty. -/
def targets (r : Registry) (paths : List String) : List String :=
  paths.map fun p => ((r.reference? p).map Reference.text).getD ""

/-- A module that has not changed is registered with the texts that the build has for it, and is left alone. -/
theorem module?_commit_of_unchanged {m : StagedModule} (h : r.Sound) (hn : staged.paths.Nodup)
    (hm : m ∈ staged) (hc : m.path ∉ r.changedPaths staged) :
    ∃ old, r.module? m.path = some old ∧ (r.commit staged).1.module? m.path = some old ∧
      old.sourceHash = m.template.sourceHash ∧ old.templateHash = m.templateHash := by
  obtain ⟨ref,-,-,hmod⟩ := module?_commit h hn hm
  obtain ⟨old,hold,hsource,htemplate⟩ := isSame_iff.1 (isSame_of_not_mem_changedPaths hm hc)
  refine ⟨old,hold,?_,hsource,htemplate⟩
  rw [hmod,module?_cleared,if_pos ⟨StagedBuild.mem_paths.2 ⟨m,hm,rfl⟩,hc⟩,hold]
  rfl

/-- A module that has changed is registered with the references of after the commit. -/
theorem module?_commit_of_changed {m : StagedModule} (h : r.Sound) (hn : staged.paths.Nodup)
    (hm : m ∈ staged) (hc : m.path ∈ r.changedPaths staged) :
    ∃ ref, (r.commit staged).1.module? m.path = some (.ofStaged m
      (substitute m.template.text ((r.commit staged).1.targets m.template.links.modules)) ref) := by
  obtain ⟨ref,-,-,hmod⟩ := module?_commit h hn hm
  refine ⟨ref,?_⟩
  rw [hmod,module?_cleared,if_neg fun hp => hp.2 hc,Commit.finalCode,targets]
  simp only [find?_references h hn,Option.getD_none]

/-- What is registered for a staged module has just been made from it, or has been there before with its hashes. -/
theorem module?_commit_cases {m : StagedModule} {c : CompiledModule} (h : r.Sound) (hn : staged.paths.Nodup)
    (hm : m ∈ staged) (hc : (r.commit staged).1.module? m.path = some c) :
    (∃ ref, c = .ofStaged m
      (substitute m.template.text ((r.commit staged).1.targets m.template.links.modules)) ref) ∨
    m.path ∉ r.changedPaths staged ∧ r.module? m.path = some c ∧ c.sourceHash = m.template.sourceHash ∧
      c.templateHash = m.templateHash := by
  by_cases hchanged : m.path ∈ r.changedPaths staged
  · obtain ⟨ref,hmod⟩ := module?_commit_of_changed h hn hm hchanged
    exact .inl ⟨ref,Option.some.inj (hc.symm.trans hmod)⟩
  · obtain ⟨old,hold,hnew,hsource,htemplate⟩ := module?_commit_of_unchanged h hn hm hchanged
    obtain rfl := Option.some.inj (hnew.symm.trans hc)
    exact .inr ⟨hchanged,hold,hsource,htemplate⟩

/-- A staged module is registered with its hashes. -/
theorem hashes_commit {m : StagedModule} (h : r.Sound) (hn : staged.paths.Nodup) (hm : m ∈ staged) :
    ∃ c, (r.commit staged).1.module? m.path = some c ∧ c.sourceHash = m.template.sourceHash ∧
      c.templateHash = m.templateHash := by
  have hcontains := (contains_commit h hn).2 (StagedBuild.mem_paths.2 ⟨m,hm,rfl⟩)
  obtain ⟨c,hc⟩ := Option.isSome_iff_exists.1 hcontains
  obtain ⟨ref,rfl⟩ | ⟨-,-,hhashes⟩ := module?_commit_cases h hn hm hc
  · exact ⟨_,hc,rfl,rfl⟩
  · exact ⟨c,hc,hhashes⟩

theorem recompileAll_of_stage {fs : FileSet} {redirects : Redirects} {options : TransformOptions}
    (h : fs.stage redirects options = .ok staged) (r : Registry) :
    r.recompileAll fs redirects options = .ok (r.commit staged) := by
  rw [recompileAll,h]
  rfl

end Registry

end PreviewCompiler
