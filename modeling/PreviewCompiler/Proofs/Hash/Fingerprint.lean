import PreviewCompiler.Hash.Fingerprint
import Mathlib.Data.List.Dedup

namespace PreviewCompiler

theorem textBytes_injective {s t : String} (h : textBytes s = textBytes t) : s = t := by
  have hdata : s.toUTF8.data = t.toUTF8.data := Array.toList_inj.1 h
  exact String.toByteArray_inj.1 (ByteArray.ext hdata)

namespace Fingerprint

/-- Does the length of some bytes fit into eight bytes? -/
def Fits (bytes : List UInt8) : Prop := bytes.length < UInt64.size

instance (bytes : List UInt8) : Decidable (Fits bytes) := inferInstanceAs (Decidable (_ < _))

/-- A number of at most `k` bytes is known by its bytes. -/
theorem eq_of_bytes {k m n : Nat} (hm : m < Nat.pow 256 k) (hn : n < Nat.pow 256 k)
    (h : ∀ i < k, m / Nat.pow 256 i % 256 = n / Nat.pow 256 i % 256) : m = n := by
  induction k generalizing m n with
  | zero => exact (Nat.lt_one_iff.1 hm).trans (Nat.lt_one_iff.1 hn).symm
  | succ k ih =>
    have hpow : ∀ i, Nat.pow 256 (i + 1) = 256 * Nat.pow 256 i := fun i => Nat.mul_comm (Nat.pow 256 i) 256
    have hlow : m % 256 = n % 256 := by simpa using h 0 (by omega)
    have hhigh : m / 256 = n / 256 := by
      rw [hpow] at hm hn
      refine ih (Nat.div_lt_of_lt_mul hm) (Nat.div_lt_of_lt_mul hn) fun i hi => ?_
      rw [Nat.div_div_eq_div_mul,Nat.div_div_eq_div_mul,← hpow]
      exact h (i + 1) (by omega)
    omega

theorem lengthBytes_injective {m n : Nat} (hm : m < UInt64.size) (hn : n < UInt64.size)
    (h : lengthBytes m = lengthBytes n) : m = n := by
  refine eq_of_bytes (k := 8) hm hn fun i hi => ?_
  have hget := congrArg (fun bytes => (bytes[i]?.map UInt8.toNat)) h
  simpa [lengthBytes,hi] using hget

/-- A part says where it ends. -/
theorem part_append_inj {a b rest rest' : List UInt8} (ha : Fits a) (hb : Fits b)
    (h : part a ++ rest = part b ++ rest') : a = b ∧ rest = rest' := by
  rw [part,part,List.append_assoc,List.append_assoc] at h
  obtain ⟨hlen,hrest⟩ := List.append_inj h (by simp [lengthBytes])
  exact List.append_inj hrest (lengthBytes_injective ha hb hlen)

theorem part_ne_nil (a : List UInt8) : part a ≠ [] := by
  simp [part,lengthBytes]

theorem encode_cons (key : String) (value : List UInt8) (es : List (String × List UInt8)) :
    encode ((key,value) :: es) = part (textBytes key) ++ (part value ++ encode es) := by
  simp [encode]

/-- What is hashed tells the entries. -/
theorem encode_injective {es es' : List (String × List UInt8)}
    (hes : ∀ e ∈ es, Fits (textBytes e.1) ∧ Fits e.2) (hes' : ∀ e ∈ es', Fits (textBytes e.1) ∧ Fits e.2)
    (h : encode es = encode es') : es = es' := by
  induction es generalizing es' with
  | nil =>
    cases es' with
    | nil => rfl
    | cons e' es' =>
      rw [encode_cons] at h
      exact absurd (List.append_eq_nil_iff.1 h.symm).1 (part_ne_nil _)
  | cons e es ih =>
    cases es' with
    | nil =>
      rw [encode_cons] at h
      exact absurd (List.append_eq_nil_iff.1 h).1 (part_ne_nil _)
    | cons e' es' =>
      obtain ⟨key,value⟩ := e
      obtain ⟨key',value'⟩ := e'
      obtain ⟨hk,hv⟩ := hes _ List.mem_cons_self
      obtain ⟨hk',hv'⟩ := hes' _ List.mem_cons_self
      rw [encode_cons,encode_cons] at h
      obtain ⟨hkey,hrest⟩ := part_append_inj hk hk' h
      obtain ⟨hvalue,htail⟩ := part_append_inj hv hv' hrest
      obtain rfl := textBytes_injective hkey
      obtain rfl := hvalue
      rw [ih (fun e he => hes e (List.mem_cons_of_mem _ he))
        (fun e he => hes' e (List.mem_cons_of_mem _ he)) htail]

end Fingerprint

/-- Do different ones of some inputs have different hashes? -/
def Blake3.NoCollision (inputs : List (List UInt8)) : Prop :=
  ∀ a ∈ inputs, ∀ b ∈ inputs, hash a = hash b → a = b

/-- The hashes of the different inputs can be compared. -/
theorem Blake3.noCollision_of_nodup {inputs : List (List UInt8)} (h : (inputs.dedup.map hash).Nodup) :
    NoCollision inputs := fun _ ha _ hb =>
  List.inj_on_of_nodup_map h (List.mem_dedup.2 ha) (List.mem_dedup.2 hb)

theorem Blake3.NoCollision.subset {inputs inputs' : List (List UInt8)} (h : NoCollision inputs)
    (hs : ∀ a ∈ inputs', a ∈ inputs) : NoCollision inputs' := fun a ha b hb => h a (hs a ha) b (hs b hb)

end PreviewCompiler
