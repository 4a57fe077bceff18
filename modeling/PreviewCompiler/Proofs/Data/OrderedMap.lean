import PreviewCompiler.Data.OrderedMap
import Mathlib.Data.List.Induction
import Mathlib.Data.List.Nodup

namespace PreviewCompiler.Data.OrderedMap

variable {κ α β : Type} {f : κ → α → β} {m : OrderedMap κ α}

/-- The map with other values under the same keys. -/
def mapValues (f : κ → α → β) (m : OrderedMap κ α) : OrderedMap κ β := m.map fun e => (e.1,f e.1 e.2)

theorem keys_mapValues (f : κ → α → β) (m : OrderedMap κ α) : keys (mapValues f m) = keys m := by
  rw [mapValues,keys,List.map_map]
  rfl

theorem mapValues_congr {f' : κ → α → β} (h : ∀ e ∈ m, f e.1 e.2 = f' e.1 e.2) : mapValues f m = mapValues f' m :=
  List.map_congr_left fun e he => congrArg (e.1,·) (h e he)

/-- What is kept because of its key is kept with any value. -/
theorem filter_mapValues (f : κ → α → β) (keep : κ → Bool) (m : OrderedMap κ α) :
    (mapValues f m).filter (fun e => keep e.1) = mapValues f (m.filter fun e => keep e.1) := List.filter_map

section

variable [DecidableEq κ]

/-- What is made of the entries can be looked up by their keys. -/
theorem IsOrdered.map_eq_map_keys [LT κ] [Std.Irrefl fun a b : κ => a < b] (h : IsOrdered m) (g : α → β)
    (default : β) :
    m.map (fun e => (e.1,g e.2)) = (keys m).map fun k => (k,((find? k m).map g).getD default) := by
  rw [keys,List.map_map]
  refine List.map_congr_left fun e he => ?_
  have hfind : find? e.1 m = some e.2 := (find?_eq_some_iff h).2 he
  simp only [Function.comp_apply,hfind,Option.map_some,Option.getD_some]

/-- A map is known from what is found in it. -/
theorem IsOrdered.eq_of_find? [LT κ] [Std.Irrefl fun a b : κ => a < b] [Std.Asymm fun a b : κ => a < b]
    {m' : OrderedMap κ α} (h : IsOrdered m) (h' : IsOrdered m') (hfind : ∀ k, find? k m = find? k m') : m = m' := by
  have hmem : ∀ e, e ∈ m ↔ e ∈ m' := by
    rintro ⟨k,v⟩
    rw [← find?_eq_some_iff h,← find?_eq_some_iff h',hfind]
  have hnodup : m.Nodup := List.Nodup.of_map Prod.fst h.nodup_keys
  have hnodup' : m'.Nodup := List.Nodup.of_map Prod.fst h'.nodup_keys
  have hperm : m.Perm m' := (List.perm_ext_iff_of_nodup hnodup hnodup').2 hmem
  refine hperm.eq_of_pairwise ?_ h h'
  intro e e' _ _ hlt hgt
  exact absurd hgt (Std.Asymm.asymm (r := (· < ·)) _ _ hlt)

theorem contains_mapValues (f : κ → α → β) (k : κ) (m : OrderedMap κ α) :
    contains k (mapValues f m) = contains k m := contains_congr (keys_mapValues f m) k

theorem find?_mapValues (f : κ → α → β) (k : κ) (m : OrderedMap κ α) :
    find? k (mapValues f m) = (find? k m).map (f k) := by
  induction m with
  | nil => rfl
  | cons e m ih =>
    have hcons : mapValues f (e :: m) = (e.1,f e.1 e.2) :: mapValues f m := rfl
    by_cases hk : k = e.1
    · rw [hcons,find?,find?,if_pos hk,if_pos hk,hk,Option.map_some]
    · rw [hcons,find?,find?,if_neg hk,if_neg hk,ih]

end

section

variable [LT κ] [DecidableLT κ] [DecidableEq κ]

theorem insert_mapValues (f : κ → α → β) (k : κ) (v : α) (m : OrderedMap κ α) :
    insert k (f k v) (mapValues f m) = mapValues f (insert k v m) := by
  induction m with
  | nil => rfl
  | cons e m ih =>
    have hcons : ∀ m', mapValues f (e :: m') = (e.1,f e.1 e.2) :: mapValues f m' := fun _ => rfl
    rw [hcons]
    unfold insert
    split
    · rfl
    · split
      · rfl
      · rw [ih]
        rfl

theorem insertNew_mapValues (f : κ → α → β) (k : κ) (v : α) (m : OrderedMap κ α) :
    insertNew k (f k v) (mapValues f m) = mapValues f (insertNew k v m) := by
  unfold insertNew
  rw [contains_mapValues,insert_mapValues]
  split <;> rfl

/-- A greater key comes last. -/
theorem insert_of_forall_lt [Std.Irrefl fun a b : κ => a < b] [Std.Asymm fun a b : κ => a < b] {k : κ}
    (h : ∀ e ∈ m, e.1 < k) (v : α) : insert k v m = m ++ [(k,v)] := by
  induction m with
  | nil => rfl
  | cons e m ih =>
    obtain ⟨hlt,hm⟩ := List.forall_mem_cons.1 h
    have hnlt : ¬k < e.1 := Std.Asymm.asymm (r := (· < ·)) _ _ hlt
    have hne : k ≠ e.1 := fun heq => Std.Irrefl.irrefl (r := (· < ·)) k (heq ▸ hlt)
    rw [insert,if_neg hnlt,if_neg hne,ih hm,List.cons_append]

theorem IsOrdered.ofList_eq [Std.Irrefl fun a b : κ => a < b] [Std.Asymm fun a b : κ => a < b] (h : IsOrdered m) :
    ofList m = m := by
  induction m using List.reverseRecOn with
  | nil => rfl
  | append_singleton m e ih =>
    obtain ⟨hm,-,hlt⟩ := List.pairwise_append.1 h
    have hlast : ∀ e' ∈ m, e'.1 < e.1 := fun e' he' => hlt e' he' e List.mem_cons_self
    have hofList : ofList (m ++ [e]) = OrderedMap.insert e.1 e.2 (ofList m) := List.foldl_append
    rw [hofList,ih hm,insert_of_forall_lt hlast]

theorem ofList_mapValues (f : κ → α → β) (es : List (κ × α)) :
    ofList (mapValues f es) = mapValues f (ofList es) := by
  induction es using List.reverseRecOn with
  | nil => rfl
  | append_singleton es e ih =>
    have hsnoc : mapValues f (es ++ [e]) = mapValues f es ++ [(e.1,f e.1 e.2)] := List.map_append
    have hofList : ∀ {γ : Type} (es : List (κ × γ)) e, ofList (es ++ [e]) = insert e.1 e.2 (ofList es) := fun _ _ =>
      List.foldl_append
    rw [hsnoc,hofList,hofList,ih,insert_mapValues]

theorem find?_insertNew (k k' : κ) (v : α) (m : OrderedMap κ α) :
    find? k' (insertNew k v m) = (find? k' m).or (find? k' [(k,v)]) := by
  cases h : find? k' m with
  | some v' => rw [find?_insertNew_of_find? h,Option.some_or]
  | none =>
    unfold insertNew
    by_cases hk : k' = k
    · subst hk
      rw [contains,h,if_neg (by simp),find?_insert_self]
      simp [find?]
    · split
      · simp [h,find?,hk]
      · simp [find?_insert_of_ne hk,h,find?,hk]

/-- What is there comes first, then the first of the entries that are put in. -/
theorem find?_foldl_insertNew (k : κ) (es : List (κ × α)) (m : OrderedMap κ α) :
    find? k (es.foldl (fun m e => insertNew e.1 e.2 m) m) = (find? k m).or (find? k es) := by
  induction es generalizing m with
  | nil => exact (Option.or_none).symm
  | cons e es ih =>
    have hcons : find? k (e :: es) = (find? k [e]).or (find? k es) := by
      by_cases hk : k = e.1
      · simp [find?,hk]
      · simp [find?,hk]
    rw [List.foldl_cons,ih,find?_insertNew,hcons,Option.or_assoc]

/-- Entries that have their values in any case can be put in later. -/
theorem foldl_insertNew_mapValues {f : κ → α → α} {es : List (κ × α)}
    (h : ∀ e ∈ es, contains e.1 m = false → f e.1 e.2 = e.2) :
    es.foldl (fun m e => insertNew e.1 e.2 m) (mapValues f m) =
      mapValues f (es.foldl (fun m e => insertNew e.1 e.2 m) m) := by
  induction es generalizing m with
  | nil => rfl
  | cons e es ih =>
    obtain ⟨he,hes⟩ := List.forall_mem_cons.1 h
    have hstep : insertNew e.1 e.2 (mapValues f m) = mapValues f (insertNew e.1 e.2 m) := by
      unfold insertNew
      rw [contains_mapValues]
      split
      · rfl
      · rename_i hnew
        have hv := he (Bool.eq_false_iff.2 hnew)
        rw [← insert_mapValues,hv]
    rw [List.foldl_cons,List.foldl_cons,hstep]
    refine ih fun e' he' hnew => hes e' he' ?_
    exact Bool.eq_false_iff.2 fun hc => Bool.eq_false_iff.1 hnew (contains_insertNew_of_contains hc e.2)

end

end PreviewCompiler.Data.OrderedMap
