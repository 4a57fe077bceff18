import Mathlib.Data.List.Nodup
import PreviewCompiler.Proofs.Disk.RawText
import PreviewCompiler.Server.Basic

namespace PreviewCompiler

open Data

/-- In each directory the entries stand in the order of their names. -/
inductive DiskNode.IsTree : DiskNode → Prop where
  | file (bytes : List UInt8) : IsTree (.file bytes)
  | link (target : RawText) : IsTree (.link target)
  | directory {es : List (RawText × DiskNode)} (ordered : OrderedMap.IsOrdered es)
    (names : ∀ e ∈ es, e.1.IsName) (entries : ∀ e ∈ es, IsTree e.2) : IsTree (.directory es)

namespace DiskNode

variable {n m top : DiskNode} {r r' : List RawText}

theorem get?_append (r r' : List RawText) (n : DiskNode) : n.get? (r ++ r') = (n.get? r).bind (·.get? r') := by
  induction r generalizing n with
  | nil => rw [List.nil_append,get?_nil,Option.bind_some]
  | cons name r ih =>
    rw [List.cons_append,get?,get?]
    cases n.child? name with
    | none => rfl
    | some child => exact ih child

theorem get?_directory_cons {es : List (RawText × DiskNode)} (ho : OrderedMap.IsOrdered es) (name : RawText)
    (r : List RawText) :
    (directory es).get? (name :: r) = some m ↔ ∃ child, (name,child) ∈ es ∧ child.get? r = some m := by
  simp only [get?,child?,← OrderedMap.find?_eq_some_iff ho]
  cases OrderedMap.find? name es <;> simp

theorem IsTree.isName (h : n.IsTree) (hm : n.get? r = some m) : ∀ name ∈ r, name.IsName := by
  induction h generalizing r with
  | file bytes | link target =>
    cases r with
    | nil => exact List.forall_mem_nil _
    | cons name r => contradiction
  | directory ordered names entries ih =>
    cases r with
    | nil => exact List.forall_mem_nil _
    | cons name r =>
      obtain ⟨child,hchild,hm⟩ := (get?_directory_cons ordered name r).1 hm
      exact List.forall_mem_cons.2 ⟨names _ hchild,ih _ hchild hm⟩

/-- What has something below it is a directory. -/
theorem exists_directory_of_get?_append_singleton {name : RawText} (h : n.get? (r ++ [name]) = some m) :
    ∃ es, n.get? r = some (.directory es) := by
  rw [get?_append] at h
  obtain ⟨around,hr,hm⟩ := Option.bind_eq_some_iff.1 h
  cases around with
  | directory es => exact ⟨es,hr⟩
  | file bytes => contradiction
  | link target => contradiction

end DiskNode

namespace Disk

variable {n m top : DiskNode} {es : List (RawText × DiskNode)} {place r : List RawText} {w : Walked} {root : RawText}

/-- What a walk makes of an entry at a place; links it passes over. -/
def Walked.of? (place : List RawText) : DiskNode → Option Walked
  | .file bytes => some (.file place bytes)
  | .directory _ => some (.directory place)
  | .link _ => none

theorem Walked.place_of? (h : Walked.of? place n = some w) : w.place = place := by
  cases n with
  | file bytes => exact Option.some.inj h ▸ rfl
  | directory es => exact Option.some.inj h ▸ rfl
  | link target => contradiction

/-- A file or directory below the top of a tree. -/
def IsEntry (top : DiskNode) (w : Walked) : Prop :=
  w.place ≠ [] ∧ ∃ n, top.get? w.place = some n ∧ Walked.of? w.place n = some w

/-- What is found where `n` is, on a way without ignored names. -/
def IsFound (place : List RawText) (n : DiskNode) (w : Walked) : Prop :=
  ∃ r m, n.get? r = some m ∧ (∀ name ∈ r, isIgnored name = false) ∧ Walked.of? (place ++ r) m = some w

theorem walkEntries_eq_flatMap (place : List RawText) (es : List (RawText × DiskNode)) : walkEntries place es =
    es.flatMap fun e => if isIgnored e.1 then [] else walkNode (place ++ [e.1]) e.2 := by
  induction es with
  | nil => rw [walkEntries,List.flatMap_nil]
  | cons e es ih => rw [walkEntries,List.flatMap_cons,ih]

theorem mem_walkEntries_iff : w ∈ walkEntries place es ↔
    ∃ e ∈ es, isIgnored e.1 = false ∧ w ∈ walkNode (place ++ [e.1]) e.2 := by
  rw [walkEntries_eq_flatMap,List.mem_flatMap]
  refine exists_congr fun e => and_congr_right fun _ => ?_
  cases isIgnored e.1 <;> simp

theorem isFound_leaf_iff (hleaf : ∀ name r, n.get? (name :: r) = none) :
    IsFound place n w ↔ Walked.of? place n = some w := by
  constructor
  · rintro ⟨r,m,hm,-,hw⟩
    cases r with
    | nil =>
      rw [DiskNode.get?_nil] at hm
      rw [← Option.some.inj hm,List.append_nil] at hw
      exact hw
    | cons name r =>
      rw [hleaf] at hm
      contradiction
  · intro hw
    exact ⟨[],n,DiskNode.get?_nil n,List.forall_mem_nil _,by rwa [List.append_nil]⟩

theorem isFound_directory_iff (ho : OrderedMap.IsOrdered es) : IsFound place (.directory es) w ↔
    w = .directory place ∨ ∃ e ∈ es, isIgnored e.1 = false ∧ IsFound (place ++ [e.1]) e.2 w := by
  constructor
  · rintro ⟨r,m,hm,hr,hw⟩
    cases r with
    | nil =>
      rw [DiskNode.get?_nil] at hm
      rw [← Option.some.inj hm,List.append_nil] at hw
      exact Or.inl (Option.some.inj hw).symm
    | cons name r =>
      obtain ⟨child,hchild,hm⟩ := (DiskNode.get?_directory_cons ho name r).1 hm
      obtain ⟨hname,hr⟩ := List.forall_mem_cons.1 hr
      exact Or.inr ⟨_,hchild,hname,r,m,hm,hr,by rwa [List.append_assoc,List.singleton_append]⟩
  · rintro (rfl | ⟨e,he,hname,r,m,hm,hr,hw⟩)
    · exact ⟨[],_,DiskNode.get?_nil _,List.forall_mem_nil _,by rw [List.append_nil,Walked.of?]⟩
    · refine ⟨e.1 :: r,m,(DiskNode.get?_directory_cons ho _ _).2 ⟨_,he,hm⟩,List.forall_mem_cons.2 ⟨hname,hr⟩,?_⟩
      rwa [List.append_assoc,List.singleton_append] at hw

theorem mem_walkNode_iff (h : n.IsTree) : w ∈ walkNode place n ↔ IsFound place n w := by
  induction h generalizing place with
  | file bytes =>
    rw [isFound_leaf_iff fun _ _ => rfl,walkNode,Walked.of?,List.mem_singleton,Option.some_inj,eq_comm]
  | link target =>
    rw [isFound_leaf_iff fun _ _ => rfl]
    exact iff_of_false List.not_mem_nil (Option.some_ne_none _).symm
  | directory ordered names entries ih =>
    rw [isFound_directory_iff ordered,walkNode,List.mem_cons,mem_walkEntries_iff]
    refine or_congr_right (exists_congr fun e => and_congr_right fun he => and_congr_right fun _ => ?_)
    exact ih e he

/-- A walk finds the entries that have no ignored name on the way to them. -/
theorem mem_walkBelow_iff (h : top.IsTree) :
    w ∈ walkBelow top ↔ IsEntry top w ∧ ∀ name ∈ w.place, isIgnored name = false := by
  cases h with
  | file bytes | link target =>
    refine iff_of_false (List.not_mem_nil) ?_
    rintro ⟨⟨hne,n,hn,-⟩,-⟩
    cases hplace : w.place with
    | nil => exact hne hplace
    | cons name r =>
      rw [hplace] at hn
      contradiction
  | directory ordered names entries =>
    rename_i es
    rw [walkBelow,mem_walkEntries_iff]
    constructor
    · rintro ⟨e,he,hname,hw⟩
      obtain ⟨r,m,hm,hr,hw⟩ := (mem_walkNode_iff (entries e he)).1 hw
      have hplace : w.place = e.1 :: r := Walked.place_of? hw
      rw [IsEntry,hplace]
      exact ⟨⟨List.cons_ne_nil _ _,m,(DiskNode.get?_directory_cons ordered _ _).2 ⟨_,he,hm⟩,hw⟩,
        List.forall_mem_cons.2 ⟨hname,hr⟩⟩
    · rintro ⟨⟨hne,m,hm,hw⟩,hnames⟩
      obtain ⟨name,r,hplace⟩ := List.exists_cons_of_ne_nil hne
      rw [hplace] at hm hw hnames
      obtain ⟨child,hchild,hm⟩ := (DiskNode.get?_directory_cons ordered _ _).1 hm
      obtain ⟨hname,hr⟩ := List.forall_mem_cons.1 hnames
      exact ⟨_,hchild,hname,(mem_walkNode_iff (entries _ hchild)).2 ⟨r,m,hm,hr,hw⟩⟩

theorem place_isPrefix_of_mem_walkNode (h : n.IsTree) (hw : w ∈ walkNode place n) : place <+: w.place := by
  obtain ⟨r,m,-,-,hw⟩ := (mem_walkNode_iff h).1 hw
  exact ⟨r,(Walked.place_of? hw).symm⟩

/-- Nothing is found twice or before a directory around it. -/
def IsInOrder (found : List Walked) : Prop := found.Pairwise fun w w' => ¬w'.place <+: w.place

theorem isInOrder_walkEntries (ho : OrderedMap.IsOrdered es) (ht : ∀ e ∈ es, e.2.IsTree)
    (hin : ∀ e ∈ es, IsInOrder (walkNode (place ++ [e.1]) e.2)) : IsInOrder (walkEntries place es) := by
  have hfront (e) (he : e ∈ es) (w) (hw : w ∈ if isIgnored e.1 then [] else walkNode (place ++ [e.1]) e.2) :
      place ++ [e.1] <+: w.place := by
    split at hw
    · contradiction
    · exact place_isPrefix_of_mem_walkNode (ht e he) hw
  rw [IsInOrder,walkEntries_eq_flatMap,List.pairwise_flatMap]
  constructor
  · intro e he
    split
    · exact List.Pairwise.nil
    · exact hin e he
  · refine ho.imp_of_mem fun {e e'} he he' hlt w hw w' hw' hle => ?_
    have hw := hfront e he w hw
    have hw' := (hfront e' he' w' hw').trans hle
    have heq := (List.prefix_of_prefix_length_le hw hw' (by simp)).eq_of_length (by simp)
    have hname : e.1 = e'.1 := by simpa using heq
    rw [hname] at hlt
    exact absurd hlt (Std.Irrefl.irrefl (r := (· < ·)) _)

theorem isInOrder_walkNode (h : n.IsTree) : IsInOrder (walkNode place n) := by
  induction h generalizing place with
  | file bytes => exact List.pairwise_singleton _ _
  | link target => exact List.Pairwise.nil
  | directory ordered names entries ih =>
    rw [walkNode]
    refine List.pairwise_cons.2 ⟨fun w hw hle => ?_,isInOrder_walkEntries ordered entries fun e he => ih e he⟩
    obtain ⟨e,he,-,hw⟩ := mem_walkEntries_iff.1 hw
    have hlength := (place_isPrefix_of_mem_walkNode (entries e he) hw).length_le
    have hlength' := hle.length_le
    simp only [List.length_append,List.length_singleton,Walked.place] at hlength hlength'
    omega

theorem isInOrder_walkBelow (h : top.IsTree) : IsInOrder (walkBelow top) := by
  cases h with
  | file bytes | link target => exact List.Pairwise.nil
  | directory ordered names entries =>
    exact isInOrder_walkEntries ordered entries fun e he => isInOrder_walkNode (entries e he)

/-- The directory around an entry is found, and before it. -/
theorem directory_mem_front (h : top.IsTree) {front back : List Walked} (hfound : walkBelow top = front ++ w :: back)
    (hne : w.place.dropLast ≠ []) : .directory w.place.dropLast ∈ front := by
  have hw : w ∈ walkBelow top := by rw [hfound]; simp
  obtain ⟨⟨hplace,n,hn,-⟩,hnames⟩ := (mem_walkBelow_iff h).1 hw
  have hlast := List.dropLast_concat_getLast hplace
  have haround : Walked.directory w.place.dropLast ∈ walkBelow top := by
    rw [← hlast] at hn
    obtain ⟨es,hes⟩ := DiskNode.exists_directory_of_get?_append_singleton hn
    refine (mem_walkBelow_iff h).2 ⟨⟨hne,_,hes,rfl⟩,fun name hname => ?_⟩
    exact hnames name ((List.dropLast_sublist _).subset hname)
  have horder := isInOrder_walkBelow h
  rw [hfound] at haround horder
  rcases List.mem_append.1 haround with hfront | hback
  · exact hfront
  · exfalso
    obtain ⟨-,horder,-⟩ := List.pairwise_append.1 horder
    rcases List.mem_cons.1 hback with heq | hback
    · have hlength : w.place.dropLast.length = w.place.length := congrArg (fun w => w.place.length) heq
      have hpos := List.length_pos_iff.2 hplace
      rw [List.length_dropLast] at hlength
      omega
    · exact List.rel_of_pairwise_cons horder hback (List.dropLast_prefix _)

/-- The name of an entry that is found is a text. -/
theorem ofText_shown_of_isIgnored {name : RawText} (h : isIgnored name = false) : RawText.ofText name.shown = name := by
  rw [isIgnored] at h
  split at h
  · rename_i s hs
    rw [RawText.text?_eq_some_iff.1 hs,RawText.shown_ofText]
  · contradiction

/-- What is found is listed under its path. -/
theorem Walked.ofText_path (hne : w.place ≠ []) (h : ∀ name ∈ w.place, isIgnored name = false) :
    RawText.ofText w.path = .ofPlace w.place := by
  have hself : (w.place.map RawText.shown).map RawText.ofText = w.place := by
    rw [List.map_map]
    exact (List.map_congr_left fun name hname => ofText_shown_of_isIgnored (h name hname)).trans (List.map_id _)
  rw [path,RawText.ofText_intercalate (by simpa using hne),hself]

theorem ignoresChange_join (hroot : root ≠ "") (hne : r ≠ []) (h : ∀ name ∈ r, name.IsName) :
    ignoresChange root (root.join (.ofPlace r)) = r.any isIgnored := by
  have hfront : root.components.isPrefixOf (root.components ++ r) = true :=
    List.isPrefixOf_iff_prefix.2 (List.prefix_append _ _)
  rw [ignoresChange,RawText.components_join hroot hne h,List.drop_left,hfront,Bool.not_true,Bool.false_or]

theorem IsEntry.isName (h : IsEntry top w) (ht : top.IsTree) : ∀ name ∈ w.place, name.IsName := by
  obtain ⟨-,n,hn,-⟩ := h
  exact ht.isName hn

theorem IsEntry.eq_of_place {w' : Walked} (h : IsEntry top w) (h' : IsEntry top w') (hplace : w.place = w'.place) :
    w = w' := by
  obtain ⟨-,n,hn,hw⟩ := h
  obtain ⟨-,n',hn',hw'⟩ := h'
  rw [← hplace,hn] at hn'
  rw [← hplace,← Option.some.inj hn',hw] at hw'
  exact Option.some.inj hw'

theorem IsEntry.mem_walkBelow_iff (h : IsEntry top w) (ht : top.IsTree) (hroot : root ≠ "") :
    w ∈ walkBelow top ↔ ignoresChange root (root.join (.ofPlace w.place)) = false := by
  rw [Disk.mem_walkBelow_iff ht,ignoresChange_join hroot h.1 (h.isName ht),List.any_eq_false]
  simp [h]

/-- No two entries that are found are listed under one path. -/
theorem nodup_paths_walkBelow (ht : top.IsTree) : ((walkBelow top).map Walked.path).Nodup := by
  refine List.pairwise_map.2 ((isInOrder_walkBelow ht).imp_of_mem fun {w w'} hw hw' hle hpath => ?_)
  obtain ⟨hentry,hnames⟩ := (mem_walkBelow_iff ht).1 hw
  obtain ⟨hentry',hnames'⟩ := (mem_walkBelow_iff ht).1 hw'
  have hplace : w.place = w'.place := by
    refine RawText.ofPlace_inj hentry.1 (hentry.isName ht) hentry'.1 (hentry'.isName ht) ?_
    rw [← Walked.ofText_path hentry.1 hnames,← Walked.ofText_path hentry'.1 hnames',hpath]
  exact hle (hplace ▸ List.prefix_refl _)

/-- The path to an entry is listed once if the entry is found, and else not at all. -/
theorem IsEntry.count_path (h : IsEntry top w) (ht : top.IsTree) :
    ((walkBelow top).map fun v => RawText.ofText v.path).count (.ofPlace w.place) =
      if w ∈ walkBelow top then 1 else 0 := by
  have hnodup : ((walkBelow top).map fun v => RawText.ofText v.path).Nodup := by
    have hmap := (nodup_paths_walkBelow ht).map fun _ _ => RawText.ofText_inj.1
    rwa [List.map_map] at hmap
  split
  · rename_i hw
    rw [← Walked.ofText_path h.1 ((Disk.mem_walkBelow_iff ht).1 hw).2]
    exact List.count_eq_one_of_mem hnodup (List.mem_map_of_mem hw)
  · rename_i hw
    refine List.count_eq_zero.2 fun hm => ?_
    obtain ⟨v,hv,hpath⟩ := List.mem_map.1 hm
    obtain ⟨hentry,hnames⟩ := (Disk.mem_walkBelow_iff ht).1 hv
    rw [Walked.ofText_path hentry.1 hnames] at hpath
    have hplace := RawText.ofPlace_inj hentry.1 (hentry.isName ht) h.1 (h.isName ht) hpath
    exact hw (hentry.eq_of_place h hplace ▸ hv)

end Disk

namespace Server

variable {s : Server} {d : Disk} {e : FileEvent} {events : List FileEvent}

/-- Does an event tell of a change that matters for the snapshot? -/
def IsChange (s : Server) (e : FileEvent) : Prop :=
  e.isAccess = false ∧ ∃ p ∈ e.paths, Disk.ignoresChange s.root p = false

theorem changesIn?_eq_none_iff : s.changesIn? e = none ↔ ¬s.IsChange e := by
  simp only [changesIn?,IsChange]
  cases e.isAccess <;> simp

theorem watch_of_change (he : e ∈ events) (h : s.IsChange e) : s.watch events d = s.recompile d := by
  have hne : events.filterMap s.changesIn? ≠ [] := by
    intro hnil
    exact changesIn?_eq_none_iff.1 (List.filterMap_eq_nil_iff.1 hnil e he) h
  rw [watch,handleChanges,if_neg (by simpa using hne)]

theorem watch_of_no_change (h : ∀ e ∈ events, ¬s.IsChange e) : s.watch events d = ([],s) := by
  have hnil : events.filterMap s.changesIn? = [] :=
    List.filterMap_eq_nil_iff.2 fun e he => changesIn?_eq_none_iff.2 (h e he)
  rw [watch,hnil]
  rfl

end Server

namespace Disk

variable {d : Disk} {root : RawText} {place : List RawText} {top : DiskNode}

/--
A walk through a project lists an entry, once and behind the directory around it, if and only if a change of it is not
ignored.  So a pass starts if something changes that is part of the snapshot, and none starts if only other entries do.
-/
theorem walk_iff_watch (hroot : d.find root = .ok (place,top)) (ht : top.IsTree) :
    ∃ found, d.walk root = .ok found ∧
      (∀ w, IsEntry top w →
        (w ∈ found ↔ ignoresChange root (root.join (.ofPlace w.place)) = false) ∧
        (found.map fun v => RawText.ofText v.path).count (.ofPlace w.place) =
          (if ignoresChange root (root.join (.ofPlace w.place)) then 0 else 1) ∧
        ∀ front back, found = front ++ w :: back → w.place.dropLast ≠ [] → .directory w.place.dropLast ∈ front) ∧
      ∀ (s : Server) (events : List FileEvent), s.root = root →
        (∀ w ∈ found, ∀ e ∈ events, e.isAccess = false → root.join (.ofPlace w.place) ∈ e.paths →
          s.watch events d = s.recompile d) ∧
        ((∀ e ∈ events, ∀ p ∈ e.paths, ∃ w, IsEntry top w ∧ w ∉ found ∧ p = root.join (.ofPlace w.place)) →
          s.watch events d = ([],s)) := by
  have hne : root ≠ "" := by
    rintro rfl
    contradiction
  refine ⟨walkBelow top,by rw [walk,hroot]; rfl,fun w hw => ⟨hw.mem_walkBelow_iff ht hne,?_,?_⟩,?_⟩
  · rw [hw.count_path ht]
    simp only [hw.mem_walkBelow_iff ht hne]
    cases ignoresChange root (root.join (.ofPlace w.place)) <;> rfl
  · exact fun front back hfound hdrop => directory_mem_front ht hfound hdrop
  · rintro s events rfl
    constructor
    · intro w hw e he haccess hpath
      have hentry := ((mem_walkBelow_iff ht).1 hw).1
      exact Server.watch_of_change he ⟨haccess,_,hpath,(hentry.mem_walkBelow_iff ht hne).1 hw⟩
    · intro hevents
      refine Server.watch_of_no_change ?_
      rintro e he ⟨-,p,hp,hkeeps⟩
      obtain ⟨w,hw,hout,rfl⟩ := hevents e he p hp
      exact hout ((hw.mem_walkBelow_iff ht hne).2 hkeeps)

/-- A project in a directory that would be ignored elsewhere, with an ignored directory and with a file whose name is
no text. -/
theorem walk_iff_watch_build :
    let top := DiskNode.directory
      [("dist",.directory [("out.js",.file [])]),("src",.directory [("App.jsx",.file [])]),(⟨[255]⟩,.file [])]
    let d : Disk := { top := .directory [("build",top)] }
    d.find "/build" = .ok (["build"],top) ∧ top.IsTree ∧
      ∀ s : Server, s.root = "/build" →
        s.watch [{ paths := ["/build/src/App.jsx"] }] d = s.recompile d ∧
        s.watch [{ paths := ["/build/dist/out.js",⟨(RawText.ofText "/build/").bytes ++ [255]⟩] }] d = ([],s) := by
  intro top d
  have hroot : d.find "/build" = .ok ([RawText.ofText "build"],top) := by
    have hnames : RawText.names "/build" = [RawText.ofText "build"] := by decide +kernel
    have hfollow : follow d.top true linkLimit [RawText.ofText "build"] [] = .ok [RawText.ofText "build"] := by
      have htop : (d.top.get? []).any DiskNode.isDirectory = true := rfl
      rw [follow,htop,Bool.not_true,if_neg Bool.false_ne_true,if_neg (by decide),if_neg (by decide),if_neg (by decide)]
      change follow d.top true linkLimit [] [RawText.ofText "build"] = _
      rw [follow]
    have hlocate : d.locate "/build" true = .ok [RawText.ofText "build"] := by
      rw [← hfollow,← hnames]
      rfl
    rw [find,hlocate]
    rfl
  have hname (s : String) (h : s ∈ ["dist","src","out.js","App.jsx"]) : (RawText.ofText s).IsName := by
    revert s
    simp only [List.forall_mem_cons]
    exact ⟨⟨by decide,by decide,by decide⟩,⟨by decide,by decide,by decide⟩,⟨by decide,by decide,by decide⟩,
      ⟨by decide,by decide,by decide⟩,List.forall_mem_nil _⟩
  have hraw : RawText.IsName ⟨[255]⟩ := ⟨by decide,by decide,by decide⟩
  have hfolder (name : RawText) (h : name.IsName) : (DiskNode.directory [(name,.file [])]).IsTree :=
    .directory (List.pairwise_singleton _ _) (List.forall_mem_singleton.2 h) (List.forall_mem_singleton.2 (.file _))
  have ht : top.IsTree := by
    refine .directory (by decide) ?_ ?_
    · exact List.forall_mem_cons.2 ⟨hname _ (by decide),List.forall_mem_cons.2 ⟨hname _ (by decide),
        List.forall_mem_singleton.2 hraw⟩⟩
    · exact List.forall_mem_cons.2 ⟨hfolder _ (hname _ (by decide)),List.forall_mem_cons.2
        ⟨hfolder _ (hname _ (by decide)),List.forall_mem_singleton.2 (.file _)⟩⟩
  obtain ⟨found,-,hlists,hwatch⟩ := walk_iff_watch hroot ht
  have hin := hlists (.file ["src","App.jsx"] []) ⟨by decide,.file [],rfl,rfl⟩
  have hout := hlists (.file ["dist","out.js"] []) ⟨by decide,.file [],rfl,rfl⟩
  have hskip := hlists (.file [⟨[255]⟩] []) ⟨by decide,.file [],rfl,rfl⟩
  refine ⟨hroot,ht,fun s hs => ⟨?_,?_⟩⟩
  · have hkeeps : ignoresChange "/build" (RawText.join "/build" (.ofPlace ["src","App.jsx"])) = false := by
      decide +kernel
    refine (hwatch s _ hs).1 _ (hin.1.2 hkeeps) _ List.mem_cons_self rfl ?_
    decide +kernel
  · refine (hwatch s _ hs).2 fun e he p hp => ?_
    obtain rfl := List.mem_singleton.1 he
    have hdrops : ignoresChange "/build" (RawText.join "/build" (.ofPlace ["dist","out.js"])) ≠ false := by
      decide +kernel
    have hdrops' : ignoresChange "/build" (RawText.join "/build" (.ofPlace [⟨[255]⟩])) ≠ false := by
      decide +kernel
    rcases List.mem_pair.1 hp with rfl | rfl
    · exact ⟨.file ["dist","out.js"] [],⟨by decide,.file [],rfl,rfl⟩,fun hm => hdrops (hout.1.1 hm),by decide +kernel⟩
    · exact ⟨.file [⟨[255]⟩] [],⟨by decide,.file [],rfl,rfl⟩,fun hm => hdrops' (hskip.1.1 hm),by decide +kernel⟩

end Disk

end PreviewCompiler
