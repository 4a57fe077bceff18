import PreviewCompiler.Registry.Basic
import Mathlib.Data.List.Nodup

namespace PreviewCompiler

open Data

namespace StagedBuild

theorem mem_importers {path : String} {b : StagedBuild} {m : StagedModule} :
    m ∈ b.importers path ↔ m ∈ b ∧ m.imports path = true := List.mem_filter

theorem mem_others {path : String} {b : StagedBuild} {m : StagedModule} :
    m ∈ b.others path ↔ m ∈ b ∧ m.imports path = false := by
  rw [others,List.mem_filter,Bool.not_eq_true']

theorem mem_paths {path : String} {b : StagedBuild} : path ∈ b.paths ↔ ∃ m ∈ b, m.path = path :=
  List.mem_map

theorem path_ne_of_not_mem_paths {m m' : StagedModule} {b : StagedBuild} (h : m.path ∉ b.paths) (hm' : m' ∈ b) :
    m'.path ≠ m.path := fun heq => h (mem_paths.2 ⟨m',hm',heq⟩)

theorem paths_importers_append_others_perm (path : String) (b : StagedBuild) :
    ((b.importers path).paths ++ (b.others path).paths).Perm b.paths := by
  rw [paths,paths,← List.map_append]
  exact (List.filter_append_perm _ b).map _

end StagedBuild

namespace Registry

theorem subset_spread {clean : StagedBuild} {queue : List String} {p : String} (h : p ∈ queue) :
    p ∈ spread clean queue := by
  induction clean,queue using spread.induct with
  | case1 clean => contradiction
  | case2 clean path queue ih =>
    rw [spread]
    rcases List.mem_cons.1 h with rfl | h
    · exact List.mem_cons_self
    · exact List.mem_cons_of_mem _ (ih (List.mem_append_right _ h))

/-- A module that imports a reached path is either found when that path is taken from the queue, or has been
before. -/
theorem spread_closed {clean : StagedBuild} {queue : List String} {m : StagedModule} {p : String}
    (hm : m ∈ clean) (hp : p ∈ spread clean queue) (hi : m.imports p = true) :
    m.path ∈ spread clean queue := by
  induction clean,queue using spread.induct with
  | case1 clean => rw [spread] at hp; contradiction
  | case2 clean path queue ih =>
    rw [spread] at hp ⊢
    refine List.mem_cons_of_mem _ ?_
    by_cases hpath : m.imports path = true
    · have hq : m.path ∈ (clean.importers path).paths :=
        StagedBuild.mem_paths.2 ⟨m,StagedBuild.mem_importers.2 ⟨hm,hpath⟩,rfl⟩
      exact subset_spread (List.mem_append_left _ hq)
    · have ho : m ∈ clean.others path := StagedBuild.mem_others.2 ⟨hm,by simpa using hpath⟩
      rcases List.mem_cons.1 hp with rfl | hp
      · exact absurd hi hpath
      · exact ih ho hp

theorem spread_least {clean : StagedBuild} {queue : List String} {S : String → Prop}
    (hqueue : ∀ p ∈ queue, S p) (hclosed : ∀ m ∈ clean, ∀ p, S p → m.imports p = true → S m.path) :
    ∀ p ∈ spread clean queue, S p := by
  induction clean,queue using spread.induct with
  | case1 clean => rw [spread]; exact hqueue
  | case2 clean path queue ih =>
    rw [spread]
    have hpath : S path := hqueue path List.mem_cons_self
    have hrest := ih ?_ fun m hm => hclosed m (StagedBuild.mem_others.1 hm).1
    · intro p hp
      rcases List.mem_cons.1 hp with rfl | hp
      · exact hpath
      · exact hrest p hp
    · intro p hp
      rcases List.mem_append.1 hp with hp | hp
      · obtain ⟨m,hm,rfl⟩ := StagedBuild.mem_paths.1 hp
        obtain ⟨hmem,hi⟩ := StagedBuild.mem_importers.1 hm
        exact hclosed m hmem path hpath hi
      · exact hqueue p (List.mem_cons_of_mem _ hp)

/-- No path is reached twice. -/
theorem nodup_spread {clean : StagedBuild} {queue : List String} (h : (clean.paths ++ queue).Nodup) :
    (spread clean queue).Nodup := by
  induction clean,queue using spread.induct with
  | case1 clean => rw [spread]; exact List.nodup_nil
  | case2 clean path queue ih =>
    rw [spread]
    have hperm : (clean.paths ++ path :: queue).Perm
        (path :: ((clean.others path).paths ++ ((clean.importers path).paths ++ queue))) := by
      refine List.perm_middle.trans (List.Perm.cons path ?_)
      rw [← List.append_assoc]
      exact (((clean.paths_importers_append_others_perm path).symm.trans List.perm_append_comm).append_right _)
    obtain ⟨hnew,hrest⟩ := List.nodup_cons.1 (hperm.nodup_iff.1 h)
    refine List.nodup_cons.2 ⟨fun hp => hnew ?_,ih hrest⟩
    -- What is reached from here on is queued or waits to be found, and the path has just left both.
    refine spread_least (S := (· ∈ (clean.others path).paths ++ ((clean.importers path).paths ++ queue)))
      (fun p hp => List.mem_append_right _ hp) ?_ path hp
    intro m hm _ _ _
    exact List.mem_append_left _ (StagedBuild.mem_paths.2 ⟨m,hm,rfl⟩)

variable {r : Registry} {staged : StagedBuild}

theorem mem_changedPaths_of_not_isSame {m : StagedModule} (hm : m ∈ staged) (h : r.isSame m = false) :
    m.path ∈ r.changedPaths staged :=
  subset_spread (StagedBuild.mem_paths.2 ⟨m,List.mem_filter.2 ⟨hm,by rw [h]; rfl⟩,rfl⟩)

theorem isSame_of_not_mem_changedPaths {m : StagedModule} (hm : m ∈ staged)
    (h : m.path ∉ r.changedPaths staged) : r.isSame m = true := by
  cases hs : r.isSame m with
  | true => rfl
  | false => exact absurd (mem_changedPaths_of_not_isSame hm hs) h

theorem isSame_iff {m : StagedModule} : r.isSame m = true ↔ ∃ old, r.module? m.path = some old ∧
    old.sourceHash = m.template.sourceHash ∧ old.templateHash = m.templateHash := by
  simp [isSame,Option.any_eq_true]

/-- What imports a changed module is changed. -/
theorem changedPaths_closed {m : StagedModule} {p : String} (hm : m ∈ staged)
    (hp : p ∈ r.changedPaths staged) (hi : m.imports p = true) : m.path ∈ r.changedPaths staged := by
  cases hs : r.isSame m with
  | false => exact mem_changedPaths_of_not_isSame hm hs
  | true => exact spread_closed (List.mem_filter.2 ⟨hm,hs⟩) hp hi

theorem changedPaths_least {S : String → Prop}
    (hnew : ∀ m ∈ staged, r.isSame m = false → S m.path)
    (hclosed : ∀ m ∈ staged, ∀ p, S p → m.imports p = true → S m.path) :
    ∀ p ∈ r.changedPaths staged, S p := by
  refine spread_least ?_ fun m hm => hclosed m (List.mem_filter.1 hm).1
  intro p hp
  obtain ⟨m,hm,rfl⟩ := StagedBuild.mem_paths.1 hp
  obtain ⟨hmem,hs⟩ := List.mem_filter.1 hm
  exact hnew m hmem (by simpa using hs)

theorem changedPaths_subset : ∀ p ∈ r.changedPaths staged, p ∈ staged.paths :=
  changedPaths_least (fun m hm _ => StagedBuild.mem_paths.2 ⟨m,hm,rfl⟩)
    fun m hm _ _ _ => StagedBuild.mem_paths.2 ⟨m,hm,rfl⟩

theorem nodup_changedPaths (h : staged.paths.Nodup) : (r.changedPaths staged).Nodup := by
  refine nodup_spread ?_
  rw [StagedBuild.paths,StagedBuild.paths,← List.map_append]
  exact ((List.filter_append_perm r.isSame staged).map StagedModule.path).nodup_iff.2 h

/-- Only the registered modules at staged paths matter. -/
theorem changedPaths_congr {r' : Registry} (h : ∀ p ∈ staged.paths, r'.module? p = r.module? p) :
    r'.changedPaths staged = r.changedPaths staged := by
  have hs : ∀ m ∈ staged, r'.isSame m = r.isSame m := fun m hm => by
    rw [isSame,isSame,h _ (StagedBuild.mem_paths.2 ⟨m,hm,rfl⟩)]
  rw [changedPaths,changedPaths,List.filter_congr hs,
    List.filter_congr fun m hm => congrArg not (hs m hm)]

end Registry

end PreviewCompiler
