namespace PreviewCompiler.Data

/-- Entries in ascending order of their keys. -/
abbrev OrderedMap (κ α : Type) := List (κ × α)

namespace OrderedMap

variable {κ α : Type}

def keys (m : OrderedMap κ α) : List κ := m.map (·.1)

def values (m : OrderedMap κ α) : List α := m.map (·.2)

section

variable [DecidableEq κ]

def find? (k : κ) : OrderedMap κ α → Option α
  | [] => none
  | (k',v) :: m => if k = k' then some v else find? k m

def contains (k : κ) (m : OrderedMap κ α) : Bool := (find? k m).isSome

def erase (k : κ) (m : OrderedMap κ α) : OrderedMap κ α := m.filter fun e => decide (e.1 ≠ k)

theorem find?_nil (k : κ) : find? k ([] : OrderedMap κ α) = none := rfl

theorem mem_of_find? {k : κ} {v : α} {m : OrderedMap κ α} (h : find? k m = some v) : (k,v) ∈ m := by
  induction m with
  | nil => contradiction
  | cons e m ih =>
    by_cases hk : k = e.1
    · have hv : e.2 = v := by simpa [find?,hk] using h
      subst hk hv
      exact List.mem_cons_self
    · exact List.mem_cons_of_mem _ (ih (by simpa [find?,hk] using h))

theorem contains_iff_mem_keys {k : κ} {m : OrderedMap κ α} : contains k m = true ↔ k ∈ keys m := by
  induction m with
  | nil => simp [contains,find?,keys]
  | cons e m ih =>
    by_cases hk : k = e.1
    · simp [contains,find?,keys,hk]
    · simpa [contains,find?,keys,hk] using ih

theorem find?_eq_none_iff {k : κ} {m : OrderedMap κ α} : find? k m = none ↔ k ∉ keys m := by
  rw [← contains_iff_mem_keys,contains,Option.isSome_iff_ne_none,Decidable.not_not]

theorem contains_congr {β : Type} {m : OrderedMap κ α} {m' : OrderedMap κ β} (h : keys m = keys m') (k : κ) :
    contains k m = contains k m' := by
  rw [Bool.eq_iff_iff,contains_iff_mem_keys,contains_iff_mem_keys,h]

theorem erase_of_not_mem {k : κ} {m : OrderedMap κ α} (h : k ∉ keys m) : erase k m = m :=
  List.filter_eq_self.2 fun e he => decide_eq_true fun heq => h (List.mem_map.2 ⟨e,he,heq⟩)

theorem erase_cons_self (k : κ) (v : α) (m : OrderedMap κ α) : erase k ((k,v) :: m) = erase k m := by
  simp [erase]

theorem erase_cons_of_ne {k : κ} {e : κ × α} (h : k ≠ e.1) (m : OrderedMap κ α) :
    erase k (e :: m) = e :: erase k m := by
  simp [erase,Ne.symm h]

theorem mem_erase {k : κ} {e : κ × α} {m : OrderedMap κ α} : e ∈ erase k m ↔ e ∈ m ∧ e.1 ≠ k := by
  simp [erase]

theorem find?_erase_self (k : κ) (m : OrderedMap κ α) : find? k (erase k m) = none := by
  rw [find?_eq_none_iff]
  intro h
  obtain ⟨e,he,hk⟩ := List.mem_map.1 h
  exact (mem_erase.1 he).2 hk

theorem find?_erase_of_ne {k k' : κ} (h : k' ≠ k) (m : OrderedMap κ α) :
    find? k' (erase k m) = find? k' m := by
  induction m with
  | nil => rfl
  | cons e m ih =>
    by_cases he : k = e.1
    · subst he
      rw [erase_cons_self,ih]
      simp [find?,h]
    · rw [erase_cons_of_ne he]
      simp only [find?,ih]

end

section

variable [LT κ] [DecidableLT κ] [DecidableEq κ]

def insert (k : κ) (v : α) : OrderedMap κ α → OrderedMap κ α
  | [] => [(k,v)]
  | (k',v') :: m =>
    if k < k' then (k,v) :: (k',v') :: m
    else if k = k' then (k,v) :: m
    else (k',v') :: insert k v m

/-- Put a value at a key that has none. -/
def insertNew (k : κ) (v : α) (m : OrderedMap κ α) : OrderedMap κ α :=
  if contains k m then m else insert k v m

/-- The map with the entries of a list; of two with one key the later one counts. -/
def ofList (es : List (κ × α)) : OrderedMap κ α := es.foldl (fun m e => insert e.1 e.2 m) []

theorem find?_insert_self (k : κ) (v : α) (m : OrderedMap κ α) : find? k (insert k v m) = some v := by
  induction m with
  | nil => simp [insert,find?]
  | cons e m ih =>
    unfold insert
    split
    · simp [find?]
    · split
      · simp [find?]
      · rename_i hne
        simp [find?,hne,ih]

theorem find?_insert_of_ne {k k' : κ} (h : k' ≠ k) (v : α) (m : OrderedMap κ α) :
    find? k' (insert k v m) = find? k' m := by
  induction m with
  | nil => simp [insert,find?,h]
  | cons e m ih =>
    unfold insert
    split
    · simp [find?,h]
    · split
      · rename_i hk
        subst hk
        simp [find?,h]
      · simp [find?,ih]

theorem mem_insert {k : κ} {v : α} {e : κ × α} {m : OrderedMap κ α} (he : e ∈ insert k v m) :
    e = (k,v) ∨ e ∈ m := by
  induction m with
  | nil => exact .inl (by simpa [insert] using he)
  | cons e' m ih =>
    unfold insert at he
    split at he
    · simpa using he
    · split at he
      · exact (List.mem_cons.1 he).imp_right (List.mem_cons_of_mem _)
      · rcases List.mem_cons.1 he with rfl | he
        · exact .inr List.mem_cons_self
        · exact (ih he).imp_right (List.mem_cons_of_mem _)

theorem contains_insert_of_contains {k k' : κ} {m : OrderedMap κ α} (h : contains k' m = true) (v : α) :
    contains k' (insert k v m) = true := by
  by_cases hk : k' = k
  · rw [contains,hk,find?_insert_self]
    rfl
  · rwa [contains,find?_insert_of_ne hk]

theorem contains_insertNew_of_contains {k k' : κ} {m : OrderedMap κ α} (h : contains k' m = true) (v : α) :
    contains k' (insertNew k v m) = true := by
  unfold insertNew
  split
  · exact h
  · exact contains_insert_of_contains h v

/-- What is there already stays. -/
theorem find?_insertNew_of_find? {k k' : κ} {v' : α} {m : OrderedMap κ α} (h : find? k' m = some v') (v : α) :
    find? k' (insertNew k v m) = some v' := by
  unfold insertNew
  split
  · exact h
  · rename_i hk
    refine (find?_insert_of_ne (fun heq => hk ?_) v m).trans h
    rw [← heq,contains,h]
    rfl

theorem mem_insertNew {k : κ} {v : α} {e : κ × α} {m : OrderedMap κ α} (he : e ∈ insertNew k v m) :
    e = (k,v) ∨ e ∈ m := by
  unfold insertNew at he
  split at he
  · exact .inr he
  · exact mem_insert he

theorem mem_ofList {e : κ × α} {es : List (κ × α)} (he : e ∈ ofList es) : e ∈ es := by
  refine List.foldlRecOn (motive := fun m => e ∈ m → e ∈ es) es _ (fun h => by contradiction) ?_ he
  intro m ih e' he' h
  rcases mem_insert h with rfl | h
  · exact he'
  · exact ih h

theorem contains_ofList {e : κ × α} {es : List (κ × α)} (he : e ∈ es) : contains e.1 (ofList es) = true := by
  obtain ⟨before,after,rfl⟩ := List.append_of_mem he
  rw [ofList,List.foldl_append,List.foldl_cons]
  refine List.foldlRecOn (motive := fun m => contains e.1 m = true) after _ ?_ fun m ih e' _ =>
    contains_insert_of_contains ih e'.2
  rw [contains,find?_insert_self]
  rfl

theorem keys_insert_congr {m m' : OrderedMap κ α} (h : keys m = keys m') (k : κ) (v v' : α) :
    keys (insert k v m) = keys (insert k v' m') := by
  induction m generalizing m' with
  | nil =>
    obtain rfl : m' = [] := List.map_eq_nil_iff.1 h.symm
    rfl
  | cons e m ih =>
    cases m' with
    | nil => contradiction
    | cons e' m' =>
      obtain ⟨k₀,v₀⟩ := e
      obtain ⟨k₁,v₁⟩ := e'
      obtain ⟨rfl,hrest⟩ : k₀ = k₁ ∧ keys m = keys m' := List.cons.inj h
      unfold insert
      split
      · exact congrArg (k :: k₀ :: ·) hrest
      · split
        · exact congrArg (k :: ·) hrest
        · exact congrArg (k₀ :: ·) (ih hrest)

theorem keys_insertNew_congr {m m' : OrderedMap κ α} (h : keys m = keys m') (k : κ) (v v' : α) :
    keys (insertNew k v m) = keys (insertNew k v' m') := by
  unfold insertNew
  rw [contains_congr h k]
  split
  · exact h
  · exact keys_insert_congr h k v v'

/-- Which keys a map has in the end depends on the keys that are put in. -/
theorem keys_foldl_insert_congr {es es' : List (κ × α)} {m m' : OrderedMap κ α}
    (h : es.map (·.1) = es'.map (·.1)) (hm : keys m = keys m') :
    keys (es.foldl (fun m e => insert e.1 e.2 m) m) = keys (es'.foldl (fun m e => insert e.1 e.2 m) m') := by
  induction es generalizing es' m m' with
  | nil =>
    obtain rfl : es' = [] := List.map_eq_nil_iff.1 h.symm
    exact hm
  | cons e es ih =>
    cases es' with
    | nil => contradiction
    | cons e' es' =>
      obtain ⟨k,v⟩ := e
      obtain ⟨k',v'⟩ := e'
      obtain ⟨rfl,hrest⟩ : k = k' ∧ es.map (·.1) = es'.map (·.1) := List.cons.inj h
      rw [List.foldl_cons,List.foldl_cons]
      exact ih hrest (keys_insert_congr hm k v v')

theorem keys_foldl_insertNew_congr {m m' : OrderedMap κ α} (h : keys m = keys m') (es : List (κ × α)) :
    keys (es.foldl (fun m e => insertNew e.1 e.2 m) m) = keys (es.foldl (fun m e => insertNew e.1 e.2 m) m') := by
  induction es generalizing m m' with
  | nil => exact h
  | cons e es ih => exact ih (keys_insertNew_congr h e.1 e.2 e.2)

theorem keys_ofList_congr {es es' : List (κ × α)} (h : es.map (·.1) = es'.map (·.1)) :
    keys (ofList es) = keys (ofList es') := keys_foldl_insert_congr h rfl

theorem insert_perm_of_not_mem {k : κ} {v : α} {m : OrderedMap κ α} (h : k ∉ keys m) :
    (insert k v m).Perm ((k,v) :: m) := by
  induction m with
  | nil => exact .refl _
  | cons e m ih =>
    have hne : k ≠ e.1 := fun heq => h (by simp [keys,heq])
    unfold insert
    rw [if_neg hne]
    split
    · exact .refl _
    · exact ((ih fun hm => h (List.mem_cons_of_mem _ hm)).cons _).trans (.swap _ _ _)

end

section

variable [LT κ]

/-- Are the keys in ascending order? -/
def IsOrdered (m : OrderedMap κ α) : Prop := m.Pairwise fun e e' => e.1 < e'.1

instance [DecidableLT κ] (m : OrderedMap κ α) : Decidable (IsOrdered m) :=
  inferInstanceAs (Decidable (List.Pairwise (fun e e' => e.1 < e'.1) m))

theorem IsOrdered.filter {m : OrderedMap κ α} (h : IsOrdered m) (p : κ × α → Bool) :
    IsOrdered (List.filter p m) := List.Pairwise.filter p h

theorem IsOrdered.erase [DecidableEq κ] {m : OrderedMap κ α} (h : IsOrdered m) (k : κ) :
    IsOrdered (erase k m) := h.filter _

theorem IsOrdered.insert [DecidableLT κ] [DecidableEq κ] [Trans (fun a b : κ => a < b) (· < ·) (· < ·)]
    [Std.Trichotomous fun a b : κ => a < b] {m : OrderedMap κ α} (h : IsOrdered m) (k : κ) (v : α) :
    IsOrdered (insert k v m) := by
  induction m with
  | nil => exact List.pairwise_singleton _ _
  | cons e m ih =>
    have ⟨hlt,hrest⟩ := List.pairwise_cons.1 h
    unfold OrderedMap.insert
    split
    · rename_i hk
      refine List.pairwise_cons.2 ⟨fun e' he' => ?_,h⟩
      rcases List.mem_cons.1 he' with rfl | he'
      · exact hk
      · exact Trans.trans hk (hlt _ he')
    · split
      · rename_i hk
        exact List.pairwise_cons.2 ⟨fun e' he' => hk ▸ hlt _ he',hrest⟩
      · rename_i hnlt hne
        refine List.pairwise_cons.2 ⟨fun e' he' => ?_,ih hrest⟩
        rcases mem_insert he' with rfl | he'
        · exact Classical.byContradiction fun hn =>
            hne (Std.Trichotomous.trichotomous (r := (· < ·)) _ _ hnlt hn)
        · exact hlt _ he'

theorem IsOrdered.insertNew [DecidableLT κ] [DecidableEq κ] [Trans (fun a b : κ => a < b) (· < ·) (· < ·)]
    [Std.Trichotomous fun a b : κ => a < b] {m : OrderedMap κ α} (h : IsOrdered m) (k : κ) (v : α) :
    IsOrdered (insertNew k v m) := by
  unfold OrderedMap.insertNew
  split
  · exact h
  · exact h.insert k v

variable [Std.Irrefl fun a b : κ => a < b]

theorem IsOrdered.nodup_keys {m : OrderedMap κ α} (h : IsOrdered m) : (keys m).Nodup := by
  refine List.pairwise_map.2 (List.Pairwise.imp ?_ h)
  intro e e' hlt heq
  exact Std.Irrefl.irrefl (r := (· < ·)) e'.1 (heq ▸ hlt)

variable [DecidableEq κ]

theorem find?_eq_some_iff {k : κ} {v : α} {m : OrderedMap κ α} (h : IsOrdered m) :
    find? k m = some v ↔ (k,v) ∈ m := by
  refine ⟨mem_of_find?,fun hm => ?_⟩
  induction m with
  | nil => contradiction
  | cons e m ih =>
    rcases List.mem_cons.1 hm with rfl | hm
    · simp [find?]
    · have hne : k ≠ e.1 := by
        intro heq
        exact (List.nodup_cons.1 h.nodup_keys).1 (List.mem_map.2 ⟨_,hm,heq⟩)
      simpa [find?,hne] using ih (List.pairwise_cons.1 h).2 hm

theorem perm_cons_erase {k : κ} {v : α} {m : OrderedMap κ α} (h : IsOrdered m)
    (hk : find? k m = some v) : m.Perm ((k,v) :: erase k m) := by
  induction m with
  | nil => contradiction
  | cons e m ih =>
    by_cases he : k = e.1
    · have hv : e.2 = v := by simpa [find?,he] using hk
      subst he hv
      rw [erase_cons_self,erase_of_not_mem (List.nodup_cons.1 h.nodup_keys).1]
    · rw [erase_cons_of_ne he]
      have hm := ih (List.pairwise_cons.1 h).2 (by simpa [find?,he] using hk)
      exact (hm.cons e).trans (.swap _ _ _)

theorem find?_of_perm_cons {k : κ} {v : α} {m rest : OrderedMap κ α} (h : IsOrdered m)
    (hp : m.Perm ((k,v) :: rest)) : find? k m = some v :=
  (find?_eq_some_iff h).2 (hp.mem_iff.2 List.mem_cons_self)

theorem erase_perm_of_perm_cons {k : κ} {v : α} {m rest : OrderedMap κ α} (h : IsOrdered m)
    (hp : m.Perm ((k,v) :: rest)) : (erase k m).Perm rest :=
  ((perm_cons_erase h (find?_of_perm_cons h hp)).symm.trans hp).cons_inv

theorem insert_perm_erase [DecidableLT κ] [Trans (fun a b : κ => a < b) (· < ·) (· < ·)]
    {m : OrderedMap κ α} (h : IsOrdered m) (k : κ) (v : α) :
    (insert k v m).Perm ((k,v) :: erase k m) := by
  induction m with
  | nil => exact .refl _
  | cons e m ih =>
    have ⟨hlt,hrest⟩ := List.pairwise_cons.1 h
    unfold insert
    split
    · rename_i hk
      have hk' : IsOrdered ((k,v) :: e :: m) := by
        refine List.pairwise_cons.2 ⟨fun e' he' => ?_,h⟩
        rcases List.mem_cons.1 he' with rfl | he'
        · exact hk
        · exact Trans.trans hk (hlt _ he')
      rw [erase_of_not_mem (List.nodup_cons.1 hk'.nodup_keys).1]
    · split
      · rename_i hk
        subst hk
        rw [erase_cons_self,erase_of_not_mem (List.nodup_cons.1 h.nodup_keys).1]
      · rename_i hne
        rw [erase_cons_of_ne hne]
        exact ((ih hrest).cons _).trans (.swap _ _ _)

end

end OrderedMap

end PreviewCompiler.Data
