import Mathlib.Data.List.TakeWhile
import PreviewCompiler.Compile.SourceKind
import PreviewCompiler.Proofs.Data.List

namespace PreviewCompiler.Path

open Data

theorem beforeLast?_append_cons {p : Char → Bool} {c : Char} {back : List Char} (hc : p c = true)
    (h : ∀ d ∈ back, p d = false) (front : List Char) : beforeLast? p (front ++ c :: back) = some front := by
  have hback : ∀ d ∈ back.reverse, (!p d) = true := fun d hd => by rw [h d (List.mem_reverse.1 hd)]; rfl
  have hrest : ((front ++ c :: back).reverse.dropWhile (!p ·)) = c :: front.reverse := by
    rw [List.reverse_append,List.reverse_cons,List.append_assoc,List.dropWhile_append_of_pos hback]
    simp [hc]
  rw [beforeLast?,hrest]
  exact congrArg some (List.reverse_reverse front)

theorem beforeLast?_of_none {p : Char → Bool} {cs : List Char} (h : ∀ d ∈ cs, p d = false) :
    beforeLast? p cs = none := by
  have hrest : (cs.reverse.dropWhile (!p ·)) = [] :=
    List.dropWhile_eq_nil_iff.2 fun d hd => by rw [h d (List.mem_reverse.1 hd)]; rfl
  rw [beforeLast?,hrest]

theorem beforeLast?_eq_some_iff {p : Char → Bool} {cs front : List Char} : beforeLast? p cs = some front ↔
    ∃ c back, cs = front ++ c :: back ∧ p c = true ∧ ∀ d ∈ back, p d = false := by
  constructor
  · intro h
    by_cases hmem : ∃ c ∈ cs, p c = true
    · obtain ⟨front',c,back,rfl,hc,hback⟩ := exists_last hmem
      obtain rfl := Option.some.inj ((beforeLast?_append_cons hc hback front').symm.trans h)
      exact ⟨c,back,rfl,hc,hback⟩
    · have hnone : ∀ c ∈ cs, p c = false := fun c hc => Bool.eq_false_iff.2 fun hpc => hmem ⟨c,hc,hpc⟩
      rw [beforeLast?_of_none hnone] at h
      contradiction
  · rintro ⟨c,back,rfl,hc,hback⟩
    exact beforeLast?_append_cons hc hback front

theorem fileName_append {name : List Char} (h : '/' ∉ name) (front : List Char) :
    fileName (front ++ '/' :: name) = name := by
  have hname : ∀ c ∈ name.reverse, (c != '/') = true := fun c hc =>
    bne_iff_ne.2 fun heq => h (heq ▸ List.mem_reverse.1 hc)
  rw [fileName,List.reverse_append,List.reverse_cons,List.append_assoc,List.takeWhile_append_of_pos hname]
  simp

/-- The extension is behind the last dot of the last segment, which does not start with this dot. -/
theorem extension?_eq_some_iff {path ext : String} : extension? path = some ext ↔
    ∃ stem back, fileName path.toList = stem ++ '.' :: back ∧ stem ≠ [] ∧ '.' ∉ back ∧
      ext = String.ofList (('.' :: back).map Char.toLower) := by
  have hdot : ∀ back : List Char, (∀ d ∈ back, (d == '.') = false) ↔ '.' ∉ back := fun back =>
    ⟨fun h hm => absurd (h _ hm) (by decide),fun h d hd => beq_eq_false_iff_ne.2 fun heq => h (heq ▸ hd)⟩
  simp only [extension?]
  constructor
  · intro h
    split at h
    · contradiction
    · contradiction
    · rename_i front hne hfront
      obtain ⟨c,back,hname,hc,hback⟩ := beforeLast?_eq_some_iff.1 hfront
      obtain rfl := beq_iff_eq.1 hc
      rw [hname,List.drop_left] at h
      exact ⟨front,back,hname,hne,(hdot back).1 hback,(Option.some.inj h).symm⟩
  · rintro ⟨stem,back,hname,hne,hback,rfl⟩
    have hfront : beforeLast? (· == '.') (fileName path.toList) = some stem :=
      beforeLast?_eq_some_iff.2 ⟨'.',back,hname,rfl,(hdot back).2 hback⟩
    rw [hfront]
    cases stem with
    | nil => contradiction
    | cons c stem => simp only [hname,List.drop_left]

end PreviewCompiler.Path
