import PreviewCompiler.Proofs.Files.Canonical
import PreviewCompiler.Proofs.Hash.Fingerprint
import PreviewCompiler.Proofs.Text.Utf8

namespace PreviewCompiler.RawText

variable {r path root name : RawText} {s t : String} {place : List RawText}

theorem ext_bytes (h : r.bytes = path.bytes) : r = path := by
  cases r
  cases path
  exact congrArg mk h

theorem ofText_inj : ofText s = ofText t ↔ s = t :=
  ⟨fun h => textBytes_injective (congrArg bytes h),congrArg ofText⟩

theorem text?_eq_some_iff : r.text? = some s ↔ r = ofText s := by
  rw [text?,Text.Utf8.decode?_eq_some_iff]
  exact ⟨fun h => (ext_bytes h : r = ofText s),congrArg bytes⟩

theorem text?_ofText (s : String) : (ofText s).text? = some s := text?_eq_some_iff.2 rfl

theorem shown_ofText (s : String) : (ofText s).shown = s := Text.Utf8.decodeLossy_textBytes s

theorem bytes_ofText_append (s t : String) : (ofText (s ++ t)).bytes = (ofText s).bytes ++ (ofText t).bytes := by
  simp only [ofText,textBytes_eq,charBytes,String.toList_append,List.flatMap_append]

/-- A slash is encoded in one byte, which is in no other character. -/
theorem slash_mem_ofText_iff : slash ∈ (ofText s).bytes ↔ '/' ∈ s.toList := by
  rw [ofText,textBytes_eq,charBytes,List.mem_flatMap]
  constructor
  · rintro ⟨c,hc,hslash⟩
    by_cases hascii : c.toNat < 128
    · rw [Text.utf8EncodeChar_of_ascii hascii,List.mem_singleton] at hslash
      have hnat : c.toNat % 256 = 47 := (congrArg UInt8.toNat hslash).symm
      rw [show '/' = c from Char.toNat_inj.1 (show 47 = c.toNat by omega)]
      exact hc
    · exact absurd (Text.le_of_mem_utf8EncodeChar hascii hslash) (by decide)
  · exact fun h => ⟨'/',h,by decide⟩

/-- Can an entry of a directory have this name? -/
structure IsName (name : RawText) : Prop where
  ne_empty : name ≠ ""
  ne_dot : name ≠ "."
  no_slash : slash ∉ name.bytes

theorem IsName.not_slash (h : name.IsName) : ∀ b ∈ name.bytes, (b == slash) = false := by
  intro b hb
  refine beq_eq_false_iff_ne.2 fun heq => h.no_slash ?_
  rwa [← heq]

theorem IsName.bytes_ne_nil (h : name.IsName) : name.bytes ≠ [] := fun hnil => h.ne_empty (ext_bytes hnil)

theorem pieces_append_slash (front back : List UInt8) :
    pieces ⟨front ++ slash :: back⟩ = pieces ⟨front⟩ ++ pieces ⟨back⟩ := by
  rw [pieces,Text.splitAll_append_of_separator (by rfl),List.map_append]
  rfl

theorem pieces_ne_nil (path : RawText) : path.pieces ≠ [] := fun hnil =>
  Text.splitAll_ne_nil _ (List.map_eq_nil_iff.1 hnil)

theorem slash_cons_ofPlace (hne : place ≠ []) :
    slash :: (ofPlace place).bytes = place.flatMap fun name => slash :: name.bytes := by
  obtain ⟨name,place,rfl⟩ := List.exists_cons_of_ne_nil hne
  rfl

/-- Texts with slashes between them are the path to a place. -/
theorem ofText_intercalate {texts : List String} (hne : texts ≠ []) :
    ofText ("/".intercalate texts) = ofPlace (texts.map ofText) := by
  have hslash : slash :: (ofText ("/".intercalate texts)).bytes =
      (texts.map ofText).flatMap fun name => slash :: name.bytes := by
    induction texts with
    | nil => contradiction
    | cons s texts ih =>
      cases texts with
      | nil => simp
      | cons t texts =>
        have htext : (ofText "/").bytes = [slash] := by decide
        rw [String.intercalate_cons_cons,bytes_ofText_append,bytes_ofText_append,htext,List.map_cons,List.flatMap_cons,
          ← ih (List.cons_ne_nil _ _)]
        simp
  rw [← slash_cons_ofPlace (by simpa using hne)] at hslash
  exact ext_bytes (List.cons.inj hslash).2

/-- The pieces of a path below a directory are the names that it has been made of. -/
theorem pieces_ofPlace (hne : place ≠ []) (h : ∀ name ∈ place, name.IsName) : (ofPlace place).pieces = place := by
  have hpieces : Text.splitAll (· == slash) (slash :: (ofPlace place).bytes) = [] :: place.map bytes := by
    have hflat : (place.flatMap fun name => slash :: name.bytes) = (place.map bytes).flatMap (slash :: ·) := by
      rw [List.flatMap_map]
    rw [slash_cons_ofPlace hne,hflat]
    refine Text.splitAll_flatMap (by rfl) fun piece hpiece => ?_
    obtain ⟨name,hname,rfl⟩ := List.mem_map.1 hpiece
    exact (h name hname).not_slash
  rw [Text.splitAll_cons_of_separator (by rfl)] at hpieces
  rw [pieces,(List.cons.inj hpieces).2,List.map_map]
  exact List.map_id _

/-- The names in a path from the root are those that it has been made of. -/
theorem names_pathOf (hne : place ≠ []) (h : ∀ name ∈ place, name.IsName) : (Disk.pathOf place).names = place := by
  have hpieces : (Disk.pathOf place).pieces = ⟨[]⟩ :: place :=
    (pieces_append_slash [] (ofPlace place).bytes).trans (congrArg _ (pieces_ofPlace hne h))
  have hlast : ((Disk.pathOf place).bytes.getLast? == some slash) = false := by
    obtain ⟨front,name,rfl⟩ := (List.eq_nil_or_concat' place).resolve_left hne
    have hname := h name (by simp)
    obtain ⟨bs,b,hbs⟩ := (List.eq_nil_or_concat' name.bytes).resolve_left hname.bytes_ne_nil
    have hends : (Disk.pathOf (front ++ [name])).bytes =
        (front.flatMap fun name => slash :: name.bytes) ++ slash :: bs ++ [b] := by
      rw [Disk.pathOf,slash_cons_ofPlace hne]
      simp [hbs]
    rw [hends,List.getLast?_concat]
    exact hname.not_slash b (by simp [hbs])
  have hkept : ∀ name ∈ place, (name != ("" : RawText)) = true := fun name hname =>
    bne_iff_ne.2 (h name hname).ne_empty
  rw [names,hpieces,hlast,if_neg Bool.false_ne_true,List.filter_cons_of_neg (by decide),List.filter_eq_self.2 hkept]

theorem isAbsolute_ofPlace (h : ∀ name ∈ place, name.IsName) : (ofPlace place).isAbsolute = false := by
  cases place with
  | nil => rfl
  | cons name place =>
    have hname := h name List.mem_cons_self
    obtain ⟨b,bs,hbs⟩ := List.exists_cons_of_ne_nil hname.bytes_ne_nil
    have hhead : (ofPlace (name :: place)).bytes.head? = some b := by simp [ofPlace,hbs]
    rw [isAbsolute,hhead]
    exact hname.not_slash b (by simp [hbs])

/-- Different places have different paths. -/
theorem ofPlace_inj {place' : List RawText} (hne : place ≠ []) (h : ∀ name ∈ place, name.IsName) (hne' : place' ≠ [])
    (h' : ∀ name ∈ place', name.IsName) (heq : ofPlace place = ofPlace place') : place = place' := by
  rw [← pieces_ofPlace hne h,heq,pieces_ofPlace hne' h']

/-- The names in a path, wherever it starts. -/
def inner (path : RawText) : List RawText := path.pieces.filter fun p : RawText => p != "" && p != "."

/-- Where a path starts: at the root, or on request where relative paths start. -/
def lead (path : RawText) : List RawText :=
  if path.isAbsolute then ["/"] else if path.pieces.head? == some "." then ["."] else []

theorem components_eq (path : RawText) : path.components = path.lead ++ path.inner := by
  simp only [components,lead,inner]
  split
  · rfl
  · split <;> rfl

theorem inner_append_slash (front back : List UInt8) :
    inner ⟨front ++ slash :: back⟩ = inner ⟨front⟩ ++ inner ⟨back⟩ := by
  rw [inner,pieces_append_slash,List.filter_append]
  rfl

theorem lead_append_slash (front back : List UInt8) :
    lead ⟨front ++ slash :: back⟩ = if front = [] then [ofText "/"] else lead ⟨front⟩ := by
  cases front with
  | nil => rfl
  | cons b front =>
    rw [if_neg (List.cons_ne_nil _ _),lead,pieces_append_slash,List.head?_append_of_ne_nil _ (pieces_ne_nil _)]
    rfl

theorem inner_ofPlace (hne : place ≠ []) (h : ∀ name ∈ place, name.IsName) : inner (ofPlace place) = place := by
  rw [inner,pieces_ofPlace hne h,List.filter_eq_self]
  intro name hname
  simp [(h name hname).ne_empty,(h name hname).ne_dot]

/-- An entry is behind the path of the project by the names that lead to it. -/
theorem components_join (hroot : root ≠ "") (hne : place ≠ []) (h : ∀ name ∈ place, name.IsName) :
    (root.join (ofPlace place)).components = root.components ++ place := by
  have hbytes : root.bytes ≠ [] := fun hnil => hroot (ext_bytes hnil)
  rw [join,isAbsolute_ofPlace h,if_neg Bool.false_ne_true]
  by_cases hslash : root.bytes.getLast? = some slash
  · obtain ⟨front,hfront⟩ := List.getLast?_eq_some_iff.1 hslash
    have hself : root.components = lead ⟨root.bytes⟩ ++ inner ⟨front⟩ := by
      have hinner := inner_append_slash front []
      rw [← hfront] at hinner
      rw [components_eq]
      exact congrArg _ (hinner.trans (List.append_nil _))
    rw [if_pos (by simp [hslash]),hself,components_eq,hfront,List.append_assoc,List.singleton_append,lead_append_slash,
      lead_append_slash,inner_append_slash,List.append_assoc]
    exact congrArg _ (congrArg _ (inner_ofPlace hne h))
  · rw [if_neg (by simp [hbytes,hslash]),components_eq,components_eq,lead_append_slash,if_neg hbytes,inner_append_slash,
      List.append_assoc]
    exact congrArg _ (congrArg _ (inner_ofPlace hne h))

end PreviewCompiler.RawText
