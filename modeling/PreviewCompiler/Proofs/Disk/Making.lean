import PreviewCompiler.Proofs.Disk.Walk

namespace PreviewCompiler

open Data

namespace DiskNode

/-- What a node is, without what is in it. -/
def shape : DiskNode → DiskNode
  | directory _ => directory []
  | n => n

def shape? (place : List RawText) (n : DiskNode) : Option DiskNode := (n.get? place).map shape

variable {n x : DiskNode} {es : List (RawText × DiskNode)} {name : RawText} {p q r : List RawText} {bytes : List UInt8}

theorem shape?_directory_cons (name : RawText) (q : List RawText) (es : List (RawText × DiskNode)) :
    (directory es).shape? (name :: q) = (OrderedMap.find? name es).bind (·.shape? q) := by
  rw [shape?,get?,child?]
  cases OrderedMap.find? name es with
  | none => rfl
  | some child => rfl

theorem shape?_append (q r : List RawText) (n : DiskNode) : n.shape? (q ++ r) = (n.get? q).bind (·.shape? r) := by
  rw [shape?,get?_append,Option.map_bind]
  rfl

/-- Nothing is below what is not there. -/
theorem shape?_append_of_none (h : n.shape? q = none) (r : List RawText) : n.shape? (q ++ r) = none := by
  rw [shape?_append,Option.map_eq_none_iff.1 h,Option.bind_none]

theorem exists_directory_of_shape? (h : n.shape? q = some (directory [])) : ∃ es, n.get? q = some (directory es) := by
  obtain ⟨m,hm,hshape⟩ := Option.map_eq_some_iff.1 h
  cases m with
  | directory es => exact ⟨es,hm⟩
  | file bytes => contradiction
  | link target => contradiction

theorem shape?_eq_file_iff : n.shape? q = some (file bytes) ↔ n.get? q = some (file bytes) := by
  refine ⟨fun h => ?_,fun h => by rw [shape?,h]; rfl⟩
  obtain ⟨m,hm,hshape⟩ := Option.map_eq_some_iff.1 h
  cases m with
  | file bytes' => exact hm.trans (congrArg some hshape)
  | directory es => contradiction
  | link target => contradiction

theorem set_cons (new : Option DiskNode) (name : RawText) (hne : p ≠ []) (es : List (RawText × DiskNode)) :
    set new (name :: p) (directory es) =
      match OrderedMap.find? name es with
      | some child => directory (OrderedMap.insert name (set new p child) es)
      | none => directory es := by
  cases p with
  | nil => contradiction
  | cons name' p => rfl

theorem shape?_insert (name : RawText) (x : DiskNode) (es : List (RawText × DiskNode)) (q : List RawText) :
    (directory (OrderedMap.insert name x es)).shape? q =
      if [name] <+: q then x.shape? (q.drop 1) else (directory es).shape? q := by
  cases q with
  | nil => rfl
  | cons name' q =>
    rw [shape?_directory_cons,shape?_directory_cons,List.drop_one,List.tail_cons]
    by_cases hname : name' = name
    · rw [if_pos (by simp [hname]),hname,OrderedMap.find?_insert_self,Option.bind_some]
    · rw [if_neg (by simp [Ne.symm hname]),OrderedMap.find?_insert_of_ne hname]

/-- What is put into a directory is there with all that is in it, and nothing else changes. -/
theorem shape?_set (haround : n.shape? r = some (directory [])) (x : DiskNode) (q : List RawText) :
    (n.set (some x) (r ++ [name])).shape? q =
      if r ++ [name] <+: q then x.shape? (q.drop (r.length + 1)) else n.shape? q := by
  -- By induction on the way to the directory, which must be there: else nothing is put.
  induction r generalizing n q with
  | nil =>
    obtain ⟨es,hes⟩ := exists_directory_of_shape? haround
    rw [get?_nil] at hes
    obtain rfl := Option.some.inj hes
    exact shape?_insert name x es q
  | cons name' r ih =>
    cases n with
    | file bytes => contradiction
    | link target => contradiction
    | directory es =>
      rw [shape?_directory_cons] at haround
      obtain ⟨child,hchild,haround⟩ := Option.bind_eq_some_iff.1 haround
      rw [List.cons_append,set_cons _ _ (by simp),hchild]
      change (directory (OrderedMap.insert name' _ es)).shape? q = _
      rw [shape?_insert]
      cases q with
      | nil => simp
      | cons name'' q =>
        by_cases hname : name' = name''
        · subst hname
          rw [if_pos (by simp),List.drop_one,List.tail_cons,ih haround,shape?_directory_cons,hchild,Option.bind_some]
          simp only [List.cons_prefix_cons,true_and,List.length_cons,List.drop_succ_cons]
        · rw [if_neg (by simp [hname]),if_neg (by simp [hname])]

end DiskNode

namespace Disk

def shape? (place : List RawText) (d : Disk) : Option DiskNode := d.top.shape? place

variable {d : Disk} {n x : DiskNode} {name : RawText} {names place q : List RawText}

/-- A new file or empty directory changes only its own place. -/
theorem shape?_put (haround : d.shape? place = some (.directory [])) (hnew : d.shape? (place ++ [name]) = none)
    (hleaf : ∀ name r, x.get? (name :: r) = none) (q : List RawText) :
    (d.put (place ++ [name]) (some x)).shape? q = if q = place ++ [name] then some x.shape else d.shape? q := by
  have hset : (d.top.set (some x) (place ++ [name])).shape? q = _ := DiskNode.shape?_set haround x q
  rw [shape?,put,hset]
  by_cases hfront : place ++ [name] <+: q
  · obtain ⟨r,rfl⟩ := hfront
    have hdrop : (place ++ [name] ++ r).drop (place.length + 1) = r := List.drop_left' (by simp)
    rw [if_pos (List.prefix_append _ _),hdrop]
    cases r with
    | nil => simp [DiskNode.shape?,DiskNode.get?_nil]
    | cons name' r =>
      rw [if_neg (by simp),shape?,DiskNode.shape?_append_of_none hnew,DiskNode.shape?,hleaf]
      rfl
  · have hne : q ≠ place ++ [name] := by
      rintro rfl
      exact hfront List.prefix_rfl
    rw [if_neg hfront,if_neg hne]
    rfl

/-- A name that is looked for as it is. -/
structure IsPlain (name : RawText) : Prop where
  ne_dot : name ≠ "."
  ne_dots : name ≠ ".."
  short : name.bytes.length ≤ nameLimit

/-- A name that is missing in a directory, or is that of a directory in it, leads to its place. -/
theorem follow_singleton (hname : IsPlain name) (haround : d.shape? place = some (.directory []))
    (hat : d.shape? (place ++ [name]) = none ∨ d.shape? (place ++ [name]) = some (.directory [])) :
    follow d.top true linkLimit [name] place = .ok (place ++ [name]) := by
  obtain ⟨es,hes⟩ := DiskNode.exists_directory_of_shape? haround
  have hdirectory : (d.top.get? place).any DiskNode.isDirectory = true := by rw [hes]; rfl
  rw [follow,hdirectory,Bool.not_true,if_neg Bool.false_ne_true,if_neg hname.ne_dot,if_neg hname.ne_dots,
    if_neg (Nat.not_lt.2 hname.short)]
  rcases hat with hat | hat
  · rw [Option.map_eq_none_iff.1 hat]
    rfl
  · obtain ⟨es',hes'⟩ := DiskNode.exists_directory_of_shape? hat
    rw [hes']
    change follow d.top true linkLimit [] (place ++ [name]) = _
    rw [follow]

/-- One directory is made if it is missing, and then the others from there. -/
theorem makeDirectories_cons (hname : IsPlain name) (haround : d.shape? place = some (.directory []))
    (hat : d.shape? (place ++ [name]) = none ∨ d.shape? (place ++ [name]) = some (.directory []))
    (names : List RawText) :
    ∃ made : Disk, d.makeDirectories place (name :: names) = made.makeDirectories (place ++ [name]) names ∧
      ∀ q, made.shape? q = if q = place ++ [name] then some (.directory []) else d.shape? q := by
  have hfollow := follow_singleton hname haround hat
  rcases hat with hat | hat
  · refine ⟨d.put (place ++ [name]) (some (.directory [])),?_,shape?_put haround hat fun _ _ => rfl⟩
    rw [makeDirectories,hfollow]
    simp only [Option.map_eq_none_iff.1 hat,if_pos]
  · obtain ⟨es,hes⟩ := DiskNode.exists_directory_of_shape? hat
    refine ⟨d,?_,fun q => ?_⟩
    · rw [makeDirectories,hfollow]
      simp only [hes]
    · split
      · rename_i hq
        rw [hq,hat]
      · rfl

/-- Directories can be made where nothing else is in the way, and only what was missing is new. -/
theorem makeDirectories_of_free (hnames : ∀ name ∈ names, IsPlain name)
    (haround : d.shape? place = some (.directory []))
    (hfree : ∀ r, r <+: names → d.shape? (place ++ r) = none ∨ d.shape? (place ++ r) = some (.directory [])) :
    ∃ made, d.makeDirectories place names = (.ok (place ++ names),made) ∧
      (∀ r, r <+: names → made.shape? (place ++ r) = some (.directory [])) ∧
      ∀ q, (∀ r, r <+: names → q ≠ place ++ r) → made.shape? q = d.shape? q := by
  induction names generalizing d place with
  | nil =>
    refine ⟨d,by rw [makeDirectories,List.append_nil],fun r hr => ?_,fun _ _ => rfl⟩
    rw [List.prefix_nil.1 hr,List.append_nil]
    exact haround
  | cons name names ih =>
    obtain ⟨hname,hnames⟩ := List.forall_mem_cons.1 hnames
    have hat := hfree [name] ⟨names,rfl⟩
    obtain ⟨d₁,hmake,hshape⟩ := makeDirectories_cons hname haround hat names
    have haround' : d₁.shape? (place ++ [name]) = some (.directory []) := by rw [hshape,if_pos rfl]
    have hbehind (r : List RawText) : place ++ [name] ++ r = place ++ name :: r := by simp
    obtain ⟨made,hmade,hway,hrest⟩ := ih hnames haround' fun r hr => by
      rw [hshape,hbehind]
      split
      · exact .inr rfl
      · exact hfree (name :: r) (List.cons_prefix_cons.2 ⟨rfl,hr⟩)
    refine ⟨made,by rw [hmake,hmade,hbehind],fun r hr => ?_,fun q hq => ?_⟩
    · rcases List.prefix_cons_iff.1 hr with rfl | ⟨r,rfl,hbelow⟩
      · rw [hrest,hshape,if_neg (by simp),List.append_nil,haround]
        intro r _ heq
        simp at heq
      · rw [← hbehind]
        exact hway r hbelow
    · rw [hrest,hshape,if_neg (hq [name] ⟨names,rfl⟩)]
      intro r hr
      rw [hbehind]
      exact hq (name :: r) (List.cons_prefix_cons.2 ⟨rfl,hr⟩)

end Disk

end PreviewCompiler
