import Mathlib.Data.List.Basic
import Mathlib.Data.List.DropRight
import Mathlib.Data.List.Induction

namespace PreviewCompiler.Data

variable {α : Type}

/-- A list is cut in one way only at the first occurrence of an element. -/
theorem append_cons_cancel {x : α} {a a' b b' : List α} (ha : x ∉ a) (ha' : x ∉ a')
    (h : a ++ x :: b = a' ++ x :: b') : a = a' ∧ b = b' := by
  induction a generalizing a' with
  | nil =>
    cases a' with
    | nil => exact ⟨rfl,(List.cons.inj h).2⟩
    | cons y a' => exact absurd ((List.cons.inj h).1 ▸ List.mem_cons_self) ha'
  | cons y a ih =>
    cases a' with
    | nil => exact absurd ((List.cons.inj h).1 ▸ List.mem_cons_self) ha
    | cons y' a' =>
      obtain ⟨hy,hrest⟩ := List.cons.inj h
      have := ih (fun hm => ha (List.mem_cons_of_mem _ hm)) (fun hm => ha' (List.mem_cons_of_mem _ hm)) hrest
      exact ⟨by rw [hy,this.1],this.2⟩

/-- A list is cut in one way only at the last occurrence of an element. -/
theorem append_cons_cancel_last {x : α} {a a' b b' : List α} (hb : x ∉ b) (hb' : x ∉ b')
    (h : a ++ x :: b = a' ++ x :: b') : a = a' ∧ b = b' := by
  have hr := congrArg List.reverse h
  simp only [List.reverse_append,List.reverse_cons,List.append_assoc,List.singleton_append] at hr
  obtain ⟨hback,hfront⟩ := append_cons_cancel (fun hm => hb (List.mem_reverse.1 hm))
    (fun hm => hb' (List.mem_reverse.1 hm)) hr
  exact ⟨List.reverse_injective hfront,List.reverse_injective hback⟩

/-- What ends a list ends it behind every element that it does not hold. -/
theorem suffix_of_suffix_append_cons {x : α} {e front z : List α} (hx : x ∉ e) (h : e <:+ front ++ x :: z) :
    e <:+ z := by
  rcases List.suffix_or_suffix_of_suffix h (List.suffix_append front (x :: z)) with hs | hs
  · refine (List.suffix_cons_iff.1 hs).resolve_left ?_
    rintro rfl
    exact hx List.mem_cons_self
  · exact absurd (hs.mem List.mem_cons_self) hx

/-- A list is cut at the last element that passes a test, if any does. -/
theorem exists_last {p : α → Bool} {as : List α} (h : ∃ a ∈ as, p a = true) :
    ∃ front a back, as = front ++ a :: back ∧ p a = true ∧ ∀ b ∈ back, p b = false := by
  induction as with
  | nil => exact absurd h (by simp)
  | cons a as ih =>
    by_cases hback : ∃ b ∈ as, p b = true
    · obtain ⟨front,b,back,rfl,hb,hnone⟩ := ih hback
      exact ⟨a :: front,b,back,rfl,hb,hnone⟩
    · have hnone : ∀ b ∈ as, p b = false := fun b hb => Bool.eq_false_iff.2 fun hpb => hback ⟨b,hb,hpb⟩
      obtain ⟨b,hb,hpb⟩ := h
      rcases List.mem_cons.1 hb with rfl | hb
      · exact ⟨[],b,as,rfl,hpb,hnone⟩
      · exact absurd ⟨b,hb,hpb⟩ hback

theorem length_le_length_flatMap {β : Type} {f : α → List β} (h : ∀ a, f a ≠ []) (as : List α) :
    as.length ≤ (as.flatMap f).length := by
  induction as with
  | nil => exact Nat.zero_le _
  | cons a as ih =>
    have hpos := List.length_pos_iff.2 (h a)
    rw [List.flatMap_cons,List.length_append,List.length_cons]
    omega

/-- The last elements are known from the last ones before and what has been added. -/
theorem rtake_rtake_append (n : Nat) (l l' : List α) : (l.rtake n ++ l').rtake n = (l ++ l').rtake n := by
  have hlen : (l.rtake n).length = l.length - (l.length - n) := List.length_drop
  have hdrop : l.rtake n ++ l' = (l ++ l').drop (l.length - n) :=
    (List.drop_append_of_le_length (Nat.sub_le ..)).symm
  rw [List.rtake,hdrop,List.drop_drop,List.rtake,List.length_drop,List.length_append]
  congr 1
  omega

/-- If a step from a good state leads to a good one exactly when it fits, a run stays good exactly as long as its steps
fit. -/
theorem good_along_iff {σ : Type} {step : σ → α → σ} {Good : σ → Prop} {Fits : σ → α → Prop}
    (hstep : ∀ s a, Good s → (Good (step s a) ↔ Fits s a)) {s : σ} (hs : Good s) (as : List α) :
    (∀ before, before <+: as → Good (before.foldl step s)) ↔
      ∀ before a, before ++ [a] <+: as → Fits (before.foldl step s) a := by
  constructor
  · intro h before a hfront
    have hnext := h _ hfront
    rw [List.foldl_append] at hnext
    exact (hstep _ _ (h before ((List.prefix_append ..).trans hfront))).1 hnext
  · intro h before
    induction before using List.reverseRecOn with
    | nil => exact fun _ => hs
    | append_singleton before a ih =>
      intro hfront
      rw [List.foldl_append]
      exact (hstep _ _ (ih ((List.prefix_append ..).trans hfront))).2 (h before a hfront)

/-- What is found is the first one that fits. -/
theorem find?_eq_some_iff_takeWhile [DecidableEq α] {p : α → Bool} {as : List α} {a : α} :
    as.find? p = some a ↔ a ∈ as ∧ p a = true ∧ ∀ b ∈ as.takeWhile (· != a), p b = false := by
  induction as with
  | nil => simp
  | cons c as ih =>
    by_cases hca : c = a
    · subst hca
      cases hc : p c with
      | true => simp [hc]
      | false =>
        have hnone : as.find? p ≠ some c := fun h => by
          rw [List.find?_some h] at hc
          contradiction
        simp [hc,hnone]
    · have hac : a ≠ c := Ne.symm hca
      have htake : (c :: as).takeWhile (· != a) = c :: as.takeWhile (· != a) := by simp [hca]
      cases hc : p c with
      | true => simp [hc,hca,htake]
      | false => simp [hc,htake,ih,hac]

/-- If two tests differ at one element only, they find the same unless one of them finds this element. -/
theorem find?_eq_or {p p' : α → Bool} {x : α} (h : ∀ a, a ≠ x → p' a = p a) (as : List α) :
    as.find? p' = as.find? p ∨ p' x = true ∧ as.find? p' = some x ∨ p x = true ∧ as.find? p = some x := by
  induction as with
  | nil => exact .inl rfl
  | cons a as ih =>
    by_cases ha : a = x
    · subst ha
      cases hp' : p' a with
      | true => exact .inr (.inl ⟨rfl,List.find?_cons_of_pos hp'⟩)
      | false =>
        cases hp : p a with
        | true => exact .inr (.inr ⟨rfl,List.find?_cons_of_pos hp⟩)
        | false =>
          rw [List.find?_cons_of_neg (by simp [hp']),List.find?_cons_of_neg (by simp [hp])]
          rwa [hp',hp] at ih
    · have hsame := h a ha
      cases hp : p a with
      | true =>
        rw [hp] at hsame
        rw [List.find?_cons_of_pos hsame,List.find?_cons_of_pos hp]
        exact .inl rfl
      | false =>
        rw [hp] at hsame
        rwa [List.find?_cons_of_neg (by simp [hsame]),List.find?_cons_of_neg (by simp [hp])]

end PreviewCompiler.Data
