import PreviewCompiler.Proofs.Compile.SameFiles
import PreviewCompiler.Proofs.Registry.UpToDate

namespace PreviewCompiler

namespace Blake3

/-- Are these different inputs with one hash? -/
def IsCollision (a b : List UInt8) : Prop := a ≠ b ∧ hash a = hash b

theorem hash_eq_iff {a b : List UInt8} : hash a = hash b ↔ a = b ∨ IsCollision a b := by
  constructor
  · intro h
    by_cases hab : a = b
    · exact Or.inl hab
    · exact Or.inr ⟨hab,h⟩
  · rintro (rfl | ⟨-,h⟩)
    · rfl
    · exact h

end Blake3

namespace Fingerprint

variable {es es' : List (String × List UInt8)}

/-- Are all keys and values shorter than `2 ^ 64` bytes? -/
def EntriesFit (es : List (String × List UInt8)) : Prop := ∀ e ∈ es, Fits (textBytes e.1) ∧ Fits e.2

instance (es : List (String × List UInt8)) : Decidable (EntriesFit es) := inferInstanceAs (Decidable (∀ e ∈ es, _))

theorem encode_eq_iff (h : EntriesFit es) (h' : EntriesFit es') : encode es = encode es' ↔ es = es' :=
  ⟨encode_injective h h',congrArg encode⟩

theorem ofEntries_eq_iff (h : EntriesFit es) (h' : EntriesFit es') :
    ofEntries es = ofEntries es' ↔ es = es' ∨ Blake3.IsCollision (encode es) (encode es') := by
  rw [ofEntries,ofEntries,Blake3.hash_eq_iff,encode_eq_iff h h']

end Fingerprint

theorem FileSet.fingerprint_eq_iff {fs fs' : FileSet} (h : fs.Fits) (h' : fs'.Fits) :
    fs.fingerprint = fs'.fingerprint ↔ fs.files = fs'.files ∨ Blake3.IsCollision fs.hashInput fs'.hashInput := by
  rw [fingerprint_eq,fingerprint_eq,Blake3.hash_eq_iff]
  refine or_congr_left ⟨h.files_eq h',fun hfiles => ?_⟩
  rw [hashInput,hashInput,hfiles]

theorem StagedModule.templateHash_eq_iff {t t' : Template} (h : (ofTemplate t).Fits) (h' : (ofTemplate t').Fits) :
    (ofTemplate t).templateHash = (ofTemplate t').templateHash ↔
      (t.text = t'.text ∧ t.links.modules = t'.links.modules) ∨
        Blake3.IsCollision (ofTemplate t).hashInput (ofTemplate t').hashInput := by
  rw [templateHash_of_eq_ofTemplate (m := ofTemplate t) rfl,templateHash_of_eq_ofTemplate (m := ofTemplate t') rfl,
    Blake3.hash_eq_iff]
  refine or_congr_left ⟨h.template_eq h',?_⟩
  rintro ⟨htext,hmodules⟩
  have hentries : (ofTemplate t).entries = (ofTemplate t').entries := by
    simp only [entries,ofTemplate,htext,hmodules]
  rw [hashInput,hashInput,hentries]

namespace Fingerprint

/-- The bytes that are hashed tell the entries.  So, unless these bytes are a collision, equal fingerprints of snapshots
are of the same files with the same contents, and equal hashes of templates are of the same text and imports. -/
theorem equal_fingerprints :
    (∀ es es', EntriesFit es → EntriesFit es' → (encode es = encode es' ↔ es = es') ∧
      (ofEntries es = ofEntries es' ↔ es = es' ∨ Blake3.IsCollision (encode es) (encode es'))) ∧
    (∀ fs fs' : FileSet, fs.Fits → fs'.Fits → (fs.fingerprint = fs'.fingerprint ↔
      fs.files = fs'.files ∨ Blake3.IsCollision fs.hashInput fs'.hashInput)) ∧
    ∀ t t' : Template, (StagedModule.ofTemplate t).Fits → (StagedModule.ofTemplate t').Fits →
      ((StagedModule.ofTemplate t).templateHash = (StagedModule.ofTemplate t').templateHash ↔
        (t.text = t'.text ∧ t.links.modules = t'.links.modules) ∨
          Blake3.IsCollision (StagedModule.ofTemplate t).hashInput (StagedModule.ofTemplate t').hashInput) := by
  refine ⟨?_,?_,?_⟩
  · intro es es' h h'
    exact ⟨encode_eq_iff h h',ofEntries_eq_iff h h'⟩
  · intro fs fs' h h'
    exact FileSet.fingerprint_eq_iff h h'
  · intro t t' h h'
    exact StagedModule.templateHash_eq_iff h h'

/-- The same text cut at another place, two contents that have changed places, and a template with an import more. -/
theorem equal_fingerprints_of_shifted_texts :
    let es := [("ab",textBytes "c")]
    let es' := [("a",textBytes "bc")]
    let fs : FileSet := .ofFiles [("/a.css","x"),("/b.css","y")]
    let fs' : FileSet := .ofFiles [("/a.css","y"),("/b.css","x")]
    let t : Template := ⟨"/a.js","x",{ modules := ["/b.js"] },""⟩
    let t' : Template := ⟨"/a.js","x",{ modules := ["/b.js","/b.js"] },""⟩
    (EntriesFit es ∧ EntriesFit es' ∧ encode es ≠ encode es') ∧
    (fs.Fits ∧ fs'.Fits ∧ (fs.fingerprint = fs'.fingerprint → Blake3.IsCollision fs.hashInput fs'.hashInput)) ∧
    (StagedModule.ofTemplate t).Fits ∧ (StagedModule.ofTemplate t').Fits ∧
    ((StagedModule.ofTemplate t).templateHash = (StagedModule.ofTemplate t').templateHash →
      Blake3.IsCollision (StagedModule.ofTemplate t).hashInput (StagedModule.ofTemplate t').hashInput) := by
  intro es es' fs fs' t t'
  obtain ⟨hentries,hsnapshots,htemplates⟩ := equal_fingerprints
  have hes : EntriesFit es := by decide +kernel
  have hes' : EntriesFit es' := by decide +kernel
  have hfs : fs.Fits := by decide +kernel
  have hfs' : fs'.Fits := by decide +kernel
  have ht : (StagedModule.ofTemplate t).Fits := by decide +kernel
  have ht' : (StagedModule.ofTemplate t').Fits := by decide +kernel
  refine ⟨⟨hes,hes',fun h => ?_⟩,⟨hfs,hfs',fun h => ?_⟩,ht,ht',fun h => ?_⟩
  · exact absurd ((hentries es es' hes hes').1.1 h) (by decide +kernel)
  · exact ((hsnapshots fs fs' hfs hfs').1 h).resolve_left (by decide +kernel)
  · exact ((htemplates t t' ht ht').1 h).resolve_left (by decide +kernel)

end Fingerprint

end PreviewCompiler
