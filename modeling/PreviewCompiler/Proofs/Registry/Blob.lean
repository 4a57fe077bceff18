import PreviewCompiler.Proofs.Data.List
import PreviewCompiler.Proofs.Text.Digits
import PreviewCompiler.Registry.Blob
import Mathlib.Data.List.Nodup

namespace PreviewCompiler

open Data

namespace Reference

private theorem slash_not_mem_digits (n : Nat) : '/' ∉ (toString n).toList := fun h =>
  absurd (Text.isDigit_of_mem_toString h) (by decide)

theorem toList_text (r : Reference) :
    r.text.toList = front.toList ++ (r.space.toList ++ '/' :: ((toString r.id).toList ++ ".js".toList)) := by
  simp [text]

/-- The number has no slash in it, so the last slash ends the space, whatever the space is. -/
theorem text_injective : Function.Injective text := by
  intro r s h
  have hl := congrArg String.toList h
  rw [toList_text,toList_text,List.append_cancel_left_eq,← List.cons_append,← List.cons_append,
    ← List.append_assoc,← List.append_assoc,List.append_cancel_right_eq] at hl
  obtain ⟨hspace,hid⟩ := append_cons_cancel_last (slash_not_mem_digits r.id) (slash_not_mem_digits s.id) hl
  have hi : r.id = s.id := Text.toString_injective hid
  have hs : r.space = s.space := String.toList_inj.1 hspace
  cases r
  cases s
  simp_all

end Reference

/-- What the owner of a store can ask of it. -/
inductive BlobCall where
  | allocate
  | bind (r : Reference) (code : String)
  | release (r : Reference)
  | releaseAll
  deriving DecidableEq, Repr

namespace BlobStore

def call (b : BlobStore) : BlobCall → BlobStore
  | .allocate => b.allocate.2
  | .bind r code => (b.bind r code).2
  | .release r => (b.release r).2
  | .releaseAll => b.releaseAll

/-- The store after some calls. -/
def run (b : BlobStore) (calls : List BlobCall) : BlobStore := calls.foldl call b

/-- The references that the calls give out, in their order. -/
def handedOut : BlobStore → List BlobCall → List Reference
  | _, [] => []
  | b, .allocate :: calls => b.allocate.1 :: handedOut b.allocate.2 calls
  | b, c :: calls => handedOut (b.call c) calls

theorem run_append (b : BlobStore) (cs ds : List BlobCall) : b.run (cs ++ ds) = (b.run cs).run ds :=
  List.foldl_append

/-- The live references are among those that have been given out, and all others of these are released. -/
structure Valid (b : BlobStore) : Prop where
  ordered : OrderedMap.IsOrdered b.live
  given : ∀ a ∈ OrderedMap.keys b.live, ∃ id, 0 < id ∧ id ≤ b.minted ∧ a = (b.reference id).text
  counted : b.minted = b.live.length + b.released

theorem valid_empty (space : String) : Valid { space } :=
  ⟨List.Pairwise.nil,by simp [OrderedMap.keys],rfl⟩

/-- The address that is given out next is new. -/
theorem Valid.next_not_mem {b : BlobStore} (h : b.Valid) :
    (b.reference (b.minted + 1)).text ∉ OrderedMap.keys b.live := by
  intro hm
  obtain ⟨id,_,hle,heq⟩ := h.given _ hm
  have hid := congrArg Reference.id (Reference.text_injective heq)
  change b.minted + 1 = id at hid
  omega

theorem Valid.allocate {b : BlobStore} (h : b.Valid) : b.allocate.2.Valid := by
  have hp := OrderedMap.insert_perm_of_not_mem (v := none) h.next_not_mem
  refine ⟨h.ordered.insert _ _,?_,?_⟩
  · intro a ha
    rcases List.mem_cons.1 ((hp.map (·.1)).mem_iff.1 ha) with rfl | ha
    · exact ⟨b.minted + 1,by omega,Nat.le_refl _,rfl⟩
    · obtain ⟨id,hpos,hle,rfl⟩ := h.given a ha
      exact ⟨id,hpos,Nat.le_succ_of_le hle,rfl⟩
  · change b.minted + 1 = (OrderedMap.insert _ _ b.live).length + b.released
    rw [hp.length_eq,List.length_cons,h.counted]
    omega

private theorem Valid.of_rebind {b : BlobStore} (h : b.Valid) {a : String} {v w : Option String}
    (ha : OrderedMap.find? a b.live = some v) : Valid { b with live := OrderedMap.insert a w b.live } := by
  have hp := OrderedMap.insert_perm_erase h.ordered a w
  have hq := OrderedMap.perm_cons_erase h.ordered ha
  refine ⟨h.ordered.insert _ _,?_,?_⟩
  · intro a' ha'
    have hm : a' ∈ OrderedMap.keys ((a,w) :: OrderedMap.erase a b.live) := (hp.map (·.1)).mem_iff.1 ha'
    exact h.given a' ((hq.map (·.1)).mem_iff.2 hm)
  · change b.minted = (OrderedMap.insert a w b.live).length + b.released
    rw [hp.length_eq,h.counted,hq.length_eq]
    rfl

theorem Valid.bind {b : BlobStore} (h : b.Valid) (r : Reference) (code : String) :
    (b.bind r code).2.Valid := by
  unfold BlobStore.bind
  split
  · exact h.of_rebind (by assumption)
  · exact h

theorem Valid.release {b : BlobStore} (h : b.Valid) (r : Reference) : (b.release r).2.Valid := by
  unfold BlobStore.release
  split
  · rename_i hl
    obtain ⟨v,hv⟩ := Option.isSome_iff_exists.1 hl
    have hp := OrderedMap.perm_cons_erase h.ordered hv
    refine ⟨h.ordered.erase _,?_,?_⟩
    · intro a ha
      exact h.given a ((hp.map (·.1)).mem_iff.2 (List.mem_cons_of_mem _ ha))
    · change b.minted = (OrderedMap.erase r.text b.live).length + (b.released + 1)
      rw [h.counted,hp.length_eq,List.length_cons]
      omega
  · exact h

theorem Valid.releaseAll {b : BlobStore} (h : b.Valid) : b.releaseAll.Valid :=
  ⟨List.Pairwise.nil,by simp [BlobStore.releaseAll,OrderedMap.keys],by
    simp [BlobStore.releaseAll,h.counted,Nat.add_comm]⟩

theorem Valid.call {b : BlobStore} (h : b.Valid) (c : BlobCall) : (b.call c).Valid := by
  cases c with
  | allocate => exact h.allocate
  | bind r code => exact h.bind r code
  | release r => exact h.release r
  | releaseAll => exact h.releaseAll

theorem Valid.run {b : BlobStore} (h : b.Valid) (calls : List BlobCall) : (b.run calls).Valid := by
  induction calls generalizing b with
  | nil => exact h
  | cons c calls ih => exact ih (h.call c)

/-- What a store can become: of the references that have been given out none comes back, and none that has
code is given another one. -/
structure Evolves (b b' : BlobStore) : Prop where
  space : b'.space = b.space
  minted : b.minted ≤ b'.minted
  live : ∀ id ≤ b.minted, ∀ v, OrderedMap.find? (b.reference id).text b'.live = some v →
    ∃ u, OrderedMap.find? (b.reference id).text b.live = some u ∧ (u = none ∨ u = v)

theorem Evolves.refl (b : BlobStore) : b.Evolves b := ⟨rfl,Nat.le_refl _,fun _ _ v hv => ⟨v,hv,.inr rfl⟩⟩

theorem Evolves.trans {b b' b'' : BlobStore} (h : b.Evolves b') (h' : b'.Evolves b'') : b.Evolves b'' := by
  refine ⟨h'.space.trans h.space,Nat.le_trans h.minted h'.minted,fun id hid v hv => ?_⟩
  have hr : b'.reference id = b.reference id := by rw [reference,reference,h.space]
  obtain ⟨u,hu,huv⟩ := h'.live id (Nat.le_trans hid h.minted) v (by rwa [hr])
  rw [hr] at hu
  obtain ⟨t,ht,htu⟩ := h.live id hid u hu
  refine ⟨t,ht,htu.elim .inl fun htu => ?_⟩
  exact htu ▸ huv

theorem evolves_call (b : BlobStore) (c : BlobCall) : b.Evolves (b.call c) := by
  cases c with
  | allocate =>
    refine ⟨rfl,Nat.le_succ _,fun id hid v hv => ⟨v,?_,.inr rfl⟩⟩
    have hne : (b.reference id).text ≠ (b.reference (b.minted + 1)).text := by
      intro h
      have hid' := congrArg Reference.id (Reference.text_injective h)
      change id = b.minted + 1 at hid'
      omega
    exact (OrderedMap.find?_insert_of_ne hne none b.live).symm.trans hv
  | bind r code =>
    simp only [call,bind]
    split
    · rename_i hnone
      refine ⟨rfl,Nat.le_refl _,fun id _ v hv => ?_⟩
      by_cases ha : (b.reference id).text = r.text
      · exact ⟨none,ha ▸ hnone,.inl rfl⟩
      · exact ⟨v,(OrderedMap.find?_insert_of_ne ha _ _).symm.trans hv,.inr rfl⟩
    · exact .refl b
  | release r =>
    simp only [call,release]
    split
    · refine ⟨rfl,Nat.le_refl _,fun id _ v hv => ?_⟩
      by_cases ha : (b.reference id).text = r.text
      · change OrderedMap.find? _ (OrderedMap.erase r.text b.live) = some v at hv
        rw [ha,OrderedMap.find?_erase_self] at hv
        contradiction
      · exact ⟨v,(OrderedMap.find?_erase_of_ne ha _).symm.trans hv,.inr rfl⟩
    · exact .refl b
  | releaseAll => exact ⟨rfl,Nat.le_refl _,fun _ _ _ hv => by contradiction⟩

theorem evolves_run (b : BlobStore) (calls : List BlobCall) : b.Evolves (b.run calls) := by
  induction calls generalizing b with
  | nil => exact .refl b
  | cons c calls ih => exact (b.evolves_call c).trans (ih _)

theorem minted_bind (b : BlobStore) (r : Reference) (code : String) :
    (b.bind r code).2.minted = b.minted := by
  unfold bind
  split <;> rfl

theorem minted_release (b : BlobStore) (r : Reference) : (b.release r).2.minted = b.minted := by
  unfold release
  split <;> rfl

/-- The references that are given out have the numbers behind those before. -/
theorem handedOut_eq (b : BlobStore) (calls : List BlobCall) :
    b.handedOut calls = (List.range' (b.minted + 1) (b.handedOut calls).length).map b.reference := by
  induction calls generalizing b with
  | nil => rfl
  | cons c calls ih =>
    have hout := ih (b.call c)
    have hr : (b.call c).reference = b.reference := by
      funext id
      rw [reference,reference,(b.evolves_call c).space]
    cases c with
    | allocate =>
      rw [handedOut,List.length_cons,List.range'_succ,List.map_cons]
      exact congrArg _ hout
    | bind r code => rwa [hr,show (b.call (.bind r code)).minted = b.minted from b.minted_bind r code] at hout
    | release r => rwa [hr,show (b.call (.release r)).minted = b.minted from b.minted_release r] at hout
    | releaseAll => exact hout

/-- No reference is given out twice. -/
theorem nodup_handedOut (b : BlobStore) (calls : List BlobCall) :
    ((b.handedOut calls).map Reference.text).Nodup := by
  have hinj : Function.Injective b.reference := fun i j h => congrArg Reference.id h
  rw [b.handedOut_eq calls]
  exact ((List.nodup_range' 1).map hinj).map Reference.text_injective

theorem get?_eq_none_of_not_mem {b : BlobStore} {a : String} (h : a ∉ OrderedMap.keys b.live) :
    b.get? a = none := by
  rw [get?,OrderedMap.find?_eq_none_iff.2 h]
  rfl

/-- The code behind an address stays as long as the address is live. -/
theorem Evolves.get?_or_gone {b b' : BlobStore} (h : b.Evolves b') (hb : b.Valid) {a code : String}
    (ha : b.get? a = some code) : b'.get? a = some code ∨ a ∉ OrderedMap.keys b'.live := by
  have hlive : OrderedMap.find? a b.live = some (some code) := Option.join_eq_some_iff.1 ha
  obtain ⟨id,_,hid,rfl⟩ := hb.given a (List.mem_map.2 ⟨_,OrderedMap.mem_of_find? hlive,rfl⟩)
  cases hv : OrderedMap.find? (b.reference id).text b'.live with
  | none => exact .inr (OrderedMap.find?_eq_none_iff.1 hv)
  | some v =>
    obtain ⟨u,hu,huv⟩ := h.live id hid v hv
    have hcode : u = some code := Option.some.inj (hu.symm.trans hlive)
    have hvc : v = some code := by
      rcases huv with rfl | rfl
      · contradiction
      · exact hcode
    exact .inl (by rw [get?,hv,hvc]; rfl)

/-- An address that was live and is not any more never is again. -/
theorem Evolves.not_mem_keys {b b' b'' : BlobStore} (h : b.Evolves b') (h' : b'.Evolves b'')
    (hb : b.Valid) {a : String} (ha : a ∈ OrderedMap.keys b.live) (ha' : a ∉ OrderedMap.keys b'.live) :
    a ∉ OrderedMap.keys b''.live := by
  obtain ⟨id,_,hid,rfl⟩ := hb.given a ha
  have hr : b'.reference id = b.reference id := by rw [reference,reference,h.space]
  rw [← OrderedMap.find?_eq_none_iff] at ha' ⊢
  rw [← hr] at ha' ⊢
  cases hv : OrderedMap.find? (b'.reference id).text b''.live with
  | none => rfl
  | some v =>
    obtain ⟨u,hu,-⟩ := h'.live id (Nat.le_trans hid h.minted) v hv
    rw [ha'] at hu
    contradiction

end BlobStore

end PreviewCompiler
