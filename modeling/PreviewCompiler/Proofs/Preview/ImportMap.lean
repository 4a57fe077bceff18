import PreviewCompiler.ImportMap
import PreviewCompiler.Proofs.Data.OrderedMap

namespace PreviewCompiler.ImportMap

open Data

variable {r : Registry} {redirects : Redirects} {e : String × String}

theorem mem_keysOf_iff {key path : String} : key ∈ keysOf r path ↔
    ∃ form ∈ path :: shortForms path, key ∈ aliases form ∧ (key = path ∨ means r form path = true) := by
  simp only [keysOf,List.mem_flatMap,List.mem_filter,Bool.or_eq_true,beq_iff_eq]

theorem mem_keysOf_self (r : Registry) (path : String) : path ∈ keysOf r path := by
  refine List.mem_flatMap.2 ⟨path,List.mem_cons_self,List.mem_filter.2 ⟨?_,by simp⟩⟩
  exact List.mem_cons_of_mem _ List.mem_cons_self

theorem mem_ownEntries (h : e ∈ ownEntries r) :
    ∃ m ∈ r.modules, e.1 ∈ keysOf r m.1 ∧ e.2 = m.2.reference.text := by
  obtain ⟨m,hm,he⟩ := List.mem_flatMap.1 (OrderedMap.mem_ofList h)
  obtain ⟨key,hkey,rfl⟩ := List.mem_map.1 he
  exact ⟨m,hm,hkey,rfl⟩

theorem contains_ownEntries_of_mem_keysOf {key path : String} {m : CompiledModule} (hm : r.module? path = some m)
    (hkey : key ∈ keysOf r path) : OrderedMap.contains key (ownEntries r) = true := by
  refine OrderedMap.contains_ofList (e := (key,m.reference.text)) (List.mem_flatMap.2 ⟨(path,m),?_,?_⟩)
  · exact OrderedMap.mem_of_find? hm
  · exact List.mem_map.2 ⟨key,hkey,rfl⟩

theorem contains_ownEntries {path : String} (h : r.contains path = true) :
    OrderedMap.contains path (ownEntries r) = true := by
  obtain ⟨m,hm⟩ := Option.isSome_iff_exists.1 h
  exact contains_ownEntries_of_mem_keysOf hm (mem_keysOf_self r path)

/-- A key that no other module has leads to the module. -/
theorem find?_ownEntries {key path : String} {m : CompiledModule} (ho : OrderedMap.IsOrdered r.modules)
    (hm : r.module? path = some m) (hkey : key ∈ keysOf r path)
    (honly : ∀ q, r.contains q = true → key ∈ keysOf r q → q = path) :
    OrderedMap.find? key (ownEntries r) = some m.reference.text := by
  obtain ⟨v,hv⟩ := Option.isSome_iff_exists.1 (contains_ownEntries_of_mem_keysOf hm hkey)
  obtain ⟨e,he,hekey,hev⟩ := mem_ownEntries (OrderedMap.mem_of_find? hv)
  have hmod : r.module? e.1 = some e.2 := (OrderedMap.find?_eq_some_iff ho).2 he
  have hpath : e.1 = path := honly e.1 (congrArg Option.isSome hmod) hekey
  rw [hpath] at hmod
  obtain rfl := Option.some.inj (hm.symm.trans hmod)
  exact hv.trans (congrArg some hev)

/-- A key that no module has leads to none. -/
theorem find?_ownEntries_eq_none {key : String} (h : ∀ path ∈ r.modules.keys, key ∉ keysOf r path) :
    OrderedMap.find? key (ownEntries r) = none := by
  refine OrderedMap.find?_eq_none_iff.2 fun hkey => ?_
  obtain ⟨e,he,rfl⟩ := List.mem_map.1 hkey
  obtain ⟨m,hm,hkeys,-⟩ := mem_ownEntries he
  exact h m.1 (List.mem_map_of_mem hm) hkeys

theorem get?_build (r : Registry) (redirects : Redirects) (key : String) : (build r redirects).get? key =
    (OrderedMap.find? key (ownEntries r)).or (OrderedMap.find? key (packageEntries r redirects)) :=
  OrderedMap.find?_foldl_insertNew key (packageEntries r redirects) (ownEntries r)

theorem get?_build_of_ownEntries {key v : String} (h : OrderedMap.find? key (ownEntries r) = some v)
    (redirects : Redirects) : (build r redirects).get? key = some v := by
  rw [get?_build,h,Option.some_or]

/-- The packages that a page needs. -/
def neededPackages (r : Registry) : List PackageSpec := runtimePackages.filterMap PackageSpec.parse? ++ r.packages

theorem mem_packageEntries (h : e ∈ packageEntries r redirects) :
    ∃ p ∈ neededPackages r, e = (p.bare,redirects.urlFor p) := by
  refine List.foldlRecOn (motive := fun m => e ∈ m → ∃ p ∈ neededPackages r, e = (p.bare,redirects.urlFor p))
    (neededPackages r) _ (fun h => by contradiction) ?_ h
  intro m ih p hp h
  rcases OrderedMap.mem_insertNew h with rfl | h
  · exact ⟨p,hp,rfl⟩
  · exact ih h

theorem mem_build (h : e ∈ (build r redirects).imports) :
    e ∈ ownEntries r ∨ e ∈ packageEntries r redirects := by
  refine List.foldlRecOn (motive := fun m => e ∈ m → e ∈ ownEntries r ∨ e ∈ packageEntries r redirects)
    (packageEntries r redirects) _ Or.inl ?_ h
  intro m ih p hp h
  rcases OrderedMap.mem_insertNew h with rfl | h
  · exact .inr hp
  · exact ih h

/-- A registered module can be imported by its path. -/
theorem contains_build {path : String} (h : r.contains path = true) (redirects : Redirects) :
    (build r redirects).contains path = true := by
  refine List.foldlRecOn (motive := fun m => OrderedMap.contains path m = true)
    (packageEntries r redirects) _ (contains_ownEntries h) ?_
  exact fun m ih p _ => OrderedMap.contains_insertNew_of_contains ih p.2

variable {r' : Registry}

/-- Do two registries hold modules at the same paths, which import the same packages? -/
def SameNames (r r' : Registry) : Prop :=
  r.modules.map (fun e => (e.1,e.2.links.packages)) = r'.modules.map fun e => (e.1,e.2.links.packages)

theorem SameNames.keys_eq (h : SameNames r r') : r.modules.keys = r'.modules.keys := by
  have hkeys := congrArg (List.map Prod.fst) h
  rwa [List.map_map,List.map_map] at hkeys

/-- The keys of a module depend on the paths at which there are modules. -/
theorem keysOf_congr (h : r.modules.keys = r'.modules.keys) : keysOf r = keysOf r' := by
  have hcontains : (fun p => r.contains p) = fun p => r'.contains p := funext fun p => OrderedMap.contains_congr h p
  funext path
  simp only [keysOf,means,hcontains]

theorem SameNames.keys_ownEntries (h : SameNames r r') : (ownEntries r).keys = (ownEntries r').keys := by
  have hkeys : ∀ r : Registry, (r.modules.flatMap fun e =>
      (keysOf r e.1).map fun key => (key,e.2.reference.text)).map (·.1) = r.modules.keys.flatMap (keysOf r) := by
    intro r
    rw [List.map_flatMap,OrderedMap.keys,List.flatMap_map]
    refine congrArg (List.flatMap · r.modules) (funext fun e => ?_)
    rw [List.map_map]
    exact List.map_id _
  refine OrderedMap.keys_ofList_congr ((hkeys r).trans ?_)
  rw [keysOf_congr h.keys_eq,h.keys_eq]
  exact (hkeys r').symm

theorem packages_eq_foldl (r : Registry) : r.packages =
    ((r.modules.map fun e => (e.1,e.2.links.packages)).flatMap (·.2)).foldl (fun ps p => p.insert ps) [] := by
  rw [List.flatMap_map]
  rfl

theorem SameNames.packages_eq (h : SameNames r r') : r.packages = r'.packages := by
  rw [packages_eq_foldl,packages_eq_foldl,show r.modules.map _ = _ from h]

theorem SameNames.packageEntries_eq (h : SameNames r r') (redirects : Redirects) :
    packageEntries r redirects = packageEntries r' redirects := by
  rw [packageEntries,packageEntries,h.packages_eq]

/-- The keys of an import map tell of a registry only what its modules and their packages are. -/
theorem SameNames.keys_build (h : SameNames r r') (redirects : Redirects) :
    (build r redirects).imports.keys = (build r' redirects).imports.keys := by
  rw [build,build,merge,merge,h.packageEntries_eq redirects]
  exact OrderedMap.keys_foldl_insertNew_congr h.keys_ownEntries _

variable {rename : String → String}

/-- Modules with other addresses have their keys for those. -/
theorem ownEntries_mapValues (h : r'.modules.map (fun e => (e.1,e.2.reference.text)) =
      OrderedMap.mapValues (fun _ => rename) (r.modules.map fun e => (e.1,e.2.reference.text))) :
    ownEntries r' = (ownEntries r).mapValues fun _ => rename := by
  have hkeys : r'.modules.keys = r.modules.keys := by
    have hfst := congrArg OrderedMap.keys h
    rwa [OrderedMap.keys_mapValues,OrderedMap.keys,OrderedMap.keys,List.map_map,List.map_map] at hfst
  have hown : ∀ r : Registry, ownEntries r = OrderedMap.ofList ((r.modules.map fun e =>
      (e.1,e.2.reference.text)).flatMap fun e => (keysOf r e.1).map fun key => (key,e.2)) := by
    intro r
    rw [List.flatMap_map]
    rfl
  rw [hown,hown,← OrderedMap.ofList_mapValues,h,keysOf_congr hkeys]
  refine congrArg _ ?_
  rw [OrderedMap.mapValues,OrderedMap.mapValues,List.flatMap_map,List.map_flatMap]
  refine congrArg (List.flatMap · _) (funext fun e => ?_)
  rw [List.map_map]
  rfl

/-- With the same packages the maps differ in the addresses of the modules. -/
theorem build_mapValues {redirects : Redirects} (hown : ownEntries r' = (ownEntries r).mapValues fun _ => rename)
    (hpackages : packageEntries r' redirects = packageEntries r redirects) :
    (build r' redirects).imports = (build r redirects).imports.mapValues fun key v =>
      if OrderedMap.contains key (ownEntries r) = true then rename v else v := by
  have hsame : (ownEntries r).mapValues (fun _ => rename) = (ownEntries r).mapValues fun key v =>
      if OrderedMap.contains key (ownEntries r) = true then rename v else v := by
    refine OrderedMap.mapValues_congr fun e he => ?_
    rw [if_pos (OrderedMap.contains_iff_mem_keys.2 (List.mem_map_of_mem he))]
  rw [build,build,merge,merge,hpackages,hown,hsame]
  refine OrderedMap.foldl_insertNew_mapValues fun e _ hnew => ?_
  rw [hnew,if_neg Bool.false_ne_true]

end PreviewCompiler.ImportMap
