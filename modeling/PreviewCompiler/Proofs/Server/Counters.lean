import PreviewCompiler.Proofs.Files.Editing
import PreviewCompiler.Proofs.Registry.Minting
import PreviewCompiler.Proofs.Server.Passes

namespace PreviewCompiler

variable {m n : Nat}

/-- A number in a counter of 64 bits. -/
def word (n : Nat) : UInt64 := UInt64.ofNat n

theorem toNat_word (h : n < UInt64.size) : (word n).toNat = n := UInt64.toNat_ofNat_of_lt' h

theorem word_succ (n : Nat) : word (n + 1) = word n + 1 := UInt64.ofNat_add n 1

theorem word_lt_word_iff (hm : m < UInt64.size) (hn : n < UInt64.size) : word m < word n ↔ m < n := by
  rw [UInt64.lt_iff_toNat_lt,toNat_word hm,toNat_word hn]

theorem word_inj (hm : m < UInt64.size) (hn : n < UInt64.size) : word m = word n ↔ m = n := by
  rw [← UInt64.toNat_inj,toNat_word hm,toNat_word hn]

/-- A gate whose counters have 64 bits. -/
structure WordGate where
  requested : UInt64
  committed : UInt64

namespace WordGate

def request (g : WordGate) : UInt64 × WordGate := (g.requested + 1,{ g with requested := g.requested + 1 })

/-- The greater of two tickets is kept; tells whether that is a new one. -/
def tryCommit (t : UInt64) (g : WordGate) : Bool × WordGate :=
  (decide (g.committed < t),{ g with committed := if g.committed < t then t else g.committed })

def isLatest (t : UInt64) (g : WordGate) : Bool := g.requested == t

end WordGate

namespace Gate

variable {g : Gate} {t : Ticket}

def words (g : Gate) : WordGate := ⟨word g.requested,word g.committed⟩

theorem request_words (g : Gate) : g.words.request = (word g.request.1,g.request.2.words) := by
  simp only [WordGate.request,words,request,word_succ]

theorem tryCommit_words (hg : g.committed < UInt64.size) (ht : t < UInt64.size) :
    g.words.tryCommit (word t) = ((g.tryCommit t).isSome,((g.tryCommit t).getD g).words) := by
  simp only [WordGate.tryCommit,words,tryCommit,word_lt_word_iff hg ht]
  split
  · rename_i hlt
    rw [decide_eq_true hlt]
    rfl
  · rename_i hlt
    rw [decide_eq_false hlt]
    rfl

theorem isLatest_words (hg : g.requested < UInt64.size) (ht : t < UInt64.size) :
    g.words.isLatest (word t) = g.isLatest t := by
  rw [WordGate.isLatest,words,isLatest,Bool.eq_iff_iff,beq_iff_eq,beq_iff_eq,word_inj hg ht]

end Gate

namespace World

variable {w : World}

theorem Valid.requested_step_le (h : w.Valid) (a : WorldStep) :
    (w.step a).session.gate.requested ≤ w.session.gate.requested + 1 := by
  cases a with
  | edit d => exact Nat.le_succ _
  | beginPass => exact Nat.le_refl _
  | advance t =>
    rw [(h.ends_step t).requested]
    exact Nat.le_succ _

theorem Valid.requested_run_le (h : w.Valid) (steps : List WorldStep) :
    (w.run steps).session.gate.requested ≤ w.session.gate.requested + steps.length := by
  induction steps generalizing w with
  | nil => exact Nat.le_refl _
  | cons a steps ih =>
    have hrest : ((w.step a).run steps).session.gate.requested ≤ _ := ih (h.step a)
    have hstep := h.requested_step_le a
    change ((w.step a).run steps).session.gate.requested ≤ _
    rw [List.length_cons]
    omega

/-- As long as a server takes fewer than `2 ^ 64 - 1` steps, a gate of 64 bits gives out the same tickets, and lets the same
passes leave their results. -/
theorem words_of_gate (root : RawText) (space : String) (config : ProjectConfig) (d : Disk) (steps : List WorldStep)
    (h : steps.length + 1 < UInt64.size) :
    let w := (start root space config d).run steps
    let g := w.session.gate
    (g.words.request.1.toNat = g.request.1 ∧ g.words.request.2 = g.request.2.words) ∧
    ∀ t p phase, w.passes t = some (p,phase) → (word t).toNat = t ∧ g.words.isLatest (word t) = g.isLatest t ∧
      g.words.tryCommit (word t) = ((g.tryCommit t).isSome,((g.tryCommit t).getD g).words) := by
  intro w g
  have hvalid : w.Valid := (valid_start root space config d).run steps
  have hrequested : g.requested ≤ 0 + steps.length := (valid_start root space config d).requested_run_le steps
  have hcommitted : g.committed ≤ g.requested := hvalid.committed_le
  have hg : g.requested < UInt64.size := by omega
  refine ⟨?_,fun t p phase hp => ?_⟩
  · rw [Gate.request_words]
    exact ⟨toNat_word (Nat.lt_of_le_of_lt (Nat.succ_le_succ hrequested) (by omega)),rfl⟩
  · have ht : t < UInt64.size := Nat.lt_of_le_of_lt (hvalid.passes t p phase hp).2.1 hg
    exact ⟨toNat_word ht,Gate.isLatest_words hg ht,Gate.tryCommit_words (Nat.lt_of_le_of_lt hcommitted hg) ht⟩

end World

theorem BlobStore.length_handedOut_le (b : BlobStore) (calls : List BlobCall) :
    (b.handedOut calls).length ≤ calls.length := by
  induction calls generalizing b with
  | nil => exact Nat.le_refl _
  | cons c calls ih =>
    cases c with
    | allocate => exact Nat.succ_le_succ (ih _)
    | bind | release | releaseAll => exact Nat.le_succ_of_le (ih _)

/-- As long as a registry asks its store for fewer than `2 ^ 64` things, the numbers of its references have 64 bits, and
so have those of how many it has given out and released. -/
theorem Registry.words_of_references (space : String) (calls : List RegistryCall) (hcalls : ∀ c ∈ calls, c.IsStaged)
    (h : ((empty space).trace calls).length < UInt64.size) :
    let r := (empty space).run calls
    (word r.blobs.minted).toNat = r.blobs.minted ∧ (word r.blobs.released).toNat = r.blobs.released ∧
    ∀ ref ∈ BlobStore.handedOut { space } ((empty space).trace calls), (word ref.id).toNat = ref.id := by
  intro r
  have hstore : r.blobs = BlobStore.run { space } ((empty space).trace calls) := (empty space).blobs_run calls
  have hle := BlobStore.length_handedOut_le { space } ((empty space).trace calls)
  have hminted : r.blobs.minted = 0 + _ := hstore ▸ BlobStore.minted_run { space } ((empty space).trace calls)
  have hcounted := ((sound_empty space).run hcalls).valid.counted
  refine ⟨toNat_word (by omega),toNat_word ?_,fun ref href => toNat_word ?_⟩
  · change r.blobs.minted = r.blobs.live.length + r.blobs.released at hcounted
    omega
  · have hid := BlobStore.id_le_of_mem_handedOut href
    rw [← hstore] at hid
    omega

namespace MemoryFiles

theorem version_next_le (m : MemoryFiles) (op : FileOperation) : (m.next op).version ≤ m.version + 1 := by
  unfold next apply
  cases op.run m.files with
  | error fault => exact Nat.le_succ _
  | ok fs => exact Nat.le_refl _

theorem version_run_le (m : MemoryFiles) (ops : List FileOperation) :
    (m.run ops).version ≤ m.version + ops.length := by
  induction ops generalizing m with
  | nil => exact Nat.le_refl _
  | cons op ops ih =>
    have hrest : ((m.next op).run ops).version ≤ _ := ih (m.next op)
    have hstep := m.version_next_le op
    change ((m.next op).run ops).version ≤ _
    rw [List.length_cons]
    omega

/-- Up to `2 ^ 64` operations are counted in 64 bits. -/
theorem words_of_version (fs : FileSet) (ops : List FileOperation) (h : ops.length < UInt64.size) :
    let m := ({ files := fs } : MemoryFiles).run ops
    (word m.version).toNat = m.version := by
  intro m
  have hle : m.version ≤ 0 + ops.length := version_run_le { files := fs } ops
  exact toNat_word (by omega)

end MemoryFiles

end PreviewCompiler
