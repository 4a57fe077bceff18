import PreviewCompiler.Command.Check
import PreviewCompiler.Proofs.Disk.Making

namespace PreviewCompiler

namespace ExportedFile

/-- Neither file is on the way to the other. -/
def Apart (f g : ExportedFile) : Prop := ¬f.place <+: g.place ∧ ¬g.place <+: f.place

/-- Are the directories around a file made under their names? -/
def IsPlain (f : ExportedFile) : Prop :=
  ∃ folder name, f.place = folder ++ [name] ∧ ∀ name ∈ folder, Disk.IsPlain name

/-- Has the temporary file a name that is not too long? -/
def IsShort (f : ExportedFile) : Prop := (f.place.getLastD "").bytes.length + Disk.temporaryExtra ≤ Disk.nameLimit

end ExportedFile

namespace Disk

open ExportedFile

variable {d d' : Disk} {out : List RawText} {files done : List ExportedFile} {f : ExportedFile} {path : String}

/-- Are these the files below a place, in no other directories than those around them? -/
structure Holds (out : List RawText) (files : List ExportedFile) (d : Disk) : Prop where
  top : d.shape? out = some (.directory [])
  file : ∀ f ∈ files, d.shape? (out ++ f.place) = some (.file (textBytes f.text))
  rest : ∀ q, q ≠ [] → (∀ f ∈ files, q ≠ f.place) → d.shape? (out ++ q) = none ∨
    d.shape? (out ++ q) = some (.directory []) ∧ ∃ f ∈ files, q <+: f.place

theorem Holds.get?_eq_file_iff (h : d.Holds out files) (q : List RawText) (bytes : List UInt8) :
    d.top.get? (out ++ q) = some (.file bytes) ↔ ∃ f ∈ files, f.place = q ∧ bytes = textBytes f.text := by
  rw [← DiskNode.shape?_eq_file_iff]
  constructor
  · intro hfile
    change d.shape? (out ++ q) = _ at hfile
    by_cases hq : ∃ f ∈ files, q = f.place
    · obtain ⟨f,hf,rfl⟩ := hq
      rw [h.file f hf] at hfile
      exact ⟨f,hf,rfl,(DiskNode.file.inj (Option.some.inj hfile)).symm⟩
    · exfalso
      by_cases hnil : q = []
      · rw [hnil,List.append_nil,h.top] at hfile
        cases hfile
      · rcases h.rest q hnil fun f hf heq => hq ⟨f,hf,heq⟩ with hnone | ⟨hdirectory,-⟩
        · rw [hnone] at hfile
          contradiction
        · rw [hdirectory] at hfile
          cases hfile
  · rintro ⟨f,hf,rfl,rfl⟩
    exact h.file f hf

/-- Directories can be made where none of the files is in the way. -/
theorem Holds.makeDirectories {folder : List RawText} (h : d.Holds out files) (hfolder : ∀ name ∈ folder, IsPlain name)
    (hfree : ∀ f ∈ files, ¬f.place <+: folder) :
    ∃ made, d.makeDirectories out folder = (.ok (out ++ folder),made) ∧
      (∀ r, r <+: folder → made.shape? (out ++ r) = some (.directory [])) ∧
      ∀ q, ¬q <+: folder → made.shape? (out ++ q) = d.shape? (out ++ q) := by
  obtain ⟨made,hmade,hway,hrest⟩ := makeDirectories_of_free hfolder h.top fun r hr => by
    by_cases hnil : r = []
    · rw [hnil,List.append_nil]
      exact .inr h.top
    · refine (h.rest r hnil ?_).imp_right And.left
      intro f hf heq
      exact hfree f hf (heq ▸ hr)
  refine ⟨made,hmade,hway,fun q hq => hrest _ fun r hr heq => hq ?_⟩
  rwa [List.append_cancel_left heq]

/-- One more file is written, with the directories around it, if it is apart from the others. -/
theorem Holds.write {folder : List RawText} {name : RawText} (h : d.Holds out files)
    (hplace : f.place = folder ++ [name])
    (hfolder : ∀ name ∈ folder, IsPlain name) (hapart : ∀ g ∈ files, Apart g f) :
    ∃ made, d.makeDirectories out folder = (.ok (out ++ folder),made) ∧
      made.shape? (out ++ folder ++ [name]) = none ∧
      (made.put (out ++ folder ++ [name]) (some (.file (textBytes f.text)))).Holds out (files ++ [f]) := by
  have hfront : folder <+: f.place := hplace ▸ List.prefix_append folder [name]
  have hfree : ∀ g ∈ files, ¬g.place <+: folder := fun g hg hle => (hapart g hg).1 (hle.trans hfront)
  have hne : ∀ g ∈ files, g.place ≠ f.place := fun g hg heq => (hapart g hg).1 (heq ▸ List.prefix_rfl)
  have hself : ¬f.place <+: folder := by
    intro hle
    have hlength := hle.length_le
    rw [hplace,List.length_append,List.length_singleton] at hlength
    omega
  obtain ⟨made,hmade,hway,hkept⟩ := h.makeDirectories hfolder hfree
  have hnone : made.shape? (out ++ folder ++ [name]) = none := by
    rw [List.append_assoc,← hplace,hkept _ hself]
    refine (h.rest f.place (by simp [hplace]) fun g hg heq => hne g hg heq.symm).resolve_right ?_
    rintro ⟨-,g,hg,hle⟩
    exact (hapart g hg).2 hle
  have hput (q : List RawText) :
      (made.put (out ++ folder ++ [name]) (some (.file (textBytes f.text)))).shape? (out ++ q) =
        if q = f.place then some (.file (textBytes f.text)) else made.shape? (out ++ q) := by
    rw [shape?_put (hway folder List.prefix_rfl) hnone fun _ _ => rfl,List.append_assoc,← hplace]
    simp only [List.append_cancel_left_eq]
    rfl
  refine ⟨made,hmade,hnone,?_,?_,?_⟩
  · have htop := hput []
    rwa [if_neg (by simp [hplace]),hway [] List.nil_prefix,List.append_nil] at htop
  · intro g hg
    rw [hput]
    rcases List.mem_append.1 hg with hg | hg
    · rw [if_neg (hne g hg),hkept _ (hfree g hg)]
      exact h.file g hg
    · obtain rfl := List.mem_singleton.1 hg
      exact if_pos rfl
  · intro q hnil hq
    rw [hput,if_neg (hq f (List.mem_append_right _ List.mem_cons_self))]
    by_cases hle : q <+: folder
    · exact .inr ⟨hway q hle,f,List.mem_append_right _ List.mem_cons_self,hle.trans hfront⟩
    · rw [hkept q hle]
      refine (h.rest q hnil fun g hg => hq g (List.mem_append_left _ hg)).imp_right ?_
      rintro ⟨hdirectory,g,hg,hle⟩
      exact ⟨hdirectory,g,List.mem_append_left _ hg,hle⟩

/-- Files that are apart are all written. -/
theorem Holds.writeFiles (h : d.Holds out done) (hplain : ∀ f ∈ files, f.IsPlain) (hshort : ∀ f ∈ files, f.IsShort)
    (hapart : (done ++ files).Pairwise Apart) (path : String) :
    ∃ d', Command.writeFiles path out files d = (.ok (),d') ∧ d'.Holds out (done ++ files) := by
  -- By induction on the files that are left; those that are done are below the place, with no others.
  induction files generalizing d done with
  | nil => exact ⟨d,rfl,by rwa [List.append_nil]⟩
  | cons f files ih =>
    obtain ⟨⟨folder,name,hplace,hfolder⟩,hplain⟩ := List.forall_mem_cons.1 hplain
    obtain ⟨hfits,hshort⟩ := List.forall_mem_cons.1 hshort
    have hbefore : ∀ g ∈ done, Apart g f := fun g hg =>
      (List.pairwise_append.1 hapart).2.2 g hg f List.mem_cons_self
    obtain ⟨made,hmade,hnone,hwritten⟩ := h.write hplace hfolder hbefore
    have hsnoc : done ++ f :: files = done ++ [f] ++ files := by simp
    rw [hsnoc] at hapart ⊢
    obtain ⟨d',hrest,hd'⟩ := ih hwritten hplain hshort hapart
    refine ⟨d',?_,hd'⟩
    rw [IsShort,hplace,List.getLastD_concat] at hfits
    rw [Command.writeFiles,hplace,List.dropLast_concat,hmade,List.getLastD_concat]
    simp only [writeAtomicIn,if_neg (Nat.not_lt.2 hfits),Option.map_eq_none_iff.1 hnone,Option.any_none,
      Bool.false_eq_true,if_false]
    exact hrest

/-- What has been written had a name that was not too long. -/
theorem isShort_of_writeFiles (h : Command.writeFiles path out files d = (.ok (),d')) : ∀ f ∈ files, f.IsShort := by
  induction files generalizing d with
  | nil => exact List.forall_mem_nil _
  | cons f files ih =>
    rw [Command.writeFiles] at h
    split at h
    · cases h
    · split at h
      · cases h
      · rename_i hwrite
        refine List.forall_mem_cons.2 ⟨?_,ih h⟩
        by_contra hlong
        rw [writeAtomicIn,if_pos (Nat.not_le.1 hlong)] at hwrite
        contradiction

end Disk

namespace Command

variable {d d' made : Disk} {out : RawText} {place : List RawText} {files : List ExportedFile}

/-- Files that are apart can be exported into an empty directory, which has them then and no others. -/
theorem exists_writeExport (hne : files ≠ [])
    (hplain : ∀ f ∈ files, f.IsPlain) (hapart : files.Pairwise ExportedFile.Apart)
    (hmade : d.createDirectories out = (.ok place,made)) (hempty : made.top.get? place = some (.directory []))
    (hshort : ∀ f ∈ files, f.IsShort) : ∃ d', writeExport out files d = (.ok (),d') ∧ d'.Holds place files := by
  have hstart : made.Holds place [] := by
    refine ⟨by rw [Disk.shape?,DiskNode.shape?,hempty]; rfl,List.forall_mem_nil _,fun q hq _ => .inl ?_⟩
    obtain ⟨name,q,rfl⟩ := List.exists_cons_of_ne_nil hq
    rw [Disk.shape?,DiskNode.shape?_append,hempty]
    rfl
  obtain ⟨d',hwrite,hholds⟩ := hstart.writeFiles hplain hshort hapart out.shown
  refine ⟨d',?_,hholds⟩
  rw [writeExport,if_neg (by simpa using hne),hmade]
  exact hwrite

theorem isShort_of_writeExport (h : writeExport out files d = (.ok (),d')) :
    ∀ f ∈ files, f.IsShort := by
  rw [writeExport] at h
  split at h
  · rename_i hnil
    rw [List.isEmpty_iff.1 hnil]
    exact List.forall_mem_nil _
  · split at h
    · cases h
    · exact Disk.isShort_of_writeFiles h

/-- An export into an empty directory leaves its files there, and no others. -/
theorem holds_of_writeExport (hne : files ≠ []) (hplain : ∀ f ∈ files, f.IsPlain)
    (hapart : files.Pairwise ExportedFile.Apart) (hmade : d.createDirectories out = (.ok place,made))
    (hempty : made.top.get? place = some (.directory [])) (h : writeExport out files d = (.ok (),d')) :
    d'.Holds place files := by
  obtain ⟨d'',hwrite,hholds⟩ := exists_writeExport hne hplain hapart hmade hempty (isShort_of_writeExport h)
  obtain ⟨-,rfl⟩ := Prod.mk.inj (h.symm.trans hwrite)
  exact hholds

end Command

end PreviewCompiler
