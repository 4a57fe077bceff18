import Mathlib.Data.List.GetD
import PreviewCompiler.Proofs.Compile.Places

namespace PreviewCompiler

inductive Quote where
  | single
  | double
  deriving DecidableEq, Repr

def Quote.mark : Quote → Char
  | single => '\''
  | double => '"'

theorem Quote.mark_cases (q : Quote) : q.mark = '"' ∨ q.mark = '\'' := by
  cases q <;> simp [mark]

/-- A place between quotes, with the number of what belongs there, and the text behind it. -/
structure QuotedPlace where
  quote : Quote
  index : Nat
  behind : String
  deriving DecidableEq, Repr

/-- Segments of text and places between quotes in turn. -/
structure QuotedTemplate where
  first : String
  places : List QuotedPlace
  deriving DecidableEq, Repr

namespace QuotedTemplate

/-- The template with a text for each number. -/
def fill (f : Nat → String) (t : QuotedTemplate) : String :=
  t.first ++ String.join (t.places.map fun p => enclosed p.quote.mark (f p.index) ++ p.behind)

def segments (t : QuotedTemplate) : List String := t.first :: t.places.map (·.behind)

theorem fill_nil (f : Nat → String) (first : String) : fill f ⟨first,[]⟩ = first := by
  simp [fill]

theorem fill_cons (f : Nat → String) (first : String) (p : QuotedPlace) (ps : List QuotedPlace) :
    fill f ⟨first,p :: ps⟩ = first ++ enclosed p.quote.mark (f p.index) ++ fill f ⟨p.behind,ps⟩ := by
  simp [fill,String.join_cons,String.append_assoc]

theorem fill_congr {f g : Nat → String} {t : QuotedTemplate} (h : ∀ p ∈ t.places, f p.index = g p.index) :
    t.fill f = t.fill g := by
  have hplaces : t.places.map (fun p => enclosed p.quote.mark (f p.index) ++ p.behind) =
      t.places.map fun p => enclosed p.quote.mark (g p.index) ++ p.behind := by
    refine List.map_congr_left fun p hp => ?_
    rw [h p hp]
  rw [fill,fill,hplaces]

end QuotedTemplate

/-- Does a text not hold what every placeholder begins with? -/
def IsInert (text : String) : Prop := ¬ placeholderFront.toList <:+: text.toList

instance (text : String) : Decidable (IsInert text) := inferInstanceAs (Decidable (¬ _))

variable {targets : List String} {text : String}

theorem IsInert.free (h : IsInert text) (i : Nat) : ¬ (placeholder i).toList <:+: text.toList := by
  intro hi
  refine h (List.IsInfix.trans ?_ hi)
  rw [placeholder,String.toList_append,String.toList_append,List.append_assoc]
  exact (List.prefix_append ..).isInfix

theorem IsInert.substituteFrom_eq (h : IsInert text) (i : Nat) (targets : List String) :
    substituteFrom i targets text = text := substituteFrom_of_free fun j _ => h.free j

/-- A round leaves other placeholders alone, also one the number of which begins with the same digits. -/
theorem replace_placeholder_of_ne {i j : Nat} (h : j ≠ i) (target : String) :
    Text.replace (placeholder j) target (placeholder i) = placeholder i := by
  have hfree : ¬ (placeholder j).toList <:+: (placeholder i).toList := fun hi => h (eq_of_infix_placeholder hi)
  exact Text.replace_of_not_infix hfree _

theorem replace_placeholder_self (i : Nat) (target : String) :
    Text.replace (placeholder i) target (placeholder i) = target := Text.replace_self (placeholder_ne_nil i) target

theorem substituteFrom_placeholder (h : ∀ s ∈ targets, IsInert s) {i j : Nat} (hj : j ≤ i) :
    substituteFrom j targets (placeholder i) = targets.getD (i - j) (placeholder i) := by
  induction targets generalizing j with
  | nil => rfl
  | cons s ts ih =>
    obtain ⟨hs,hts⟩ := List.forall_mem_cons.1 h
    rw [substituteFrom]
    by_cases heq : j = i
    · subst heq
      rw [replace_placeholder_self,hs.substituteFrom_eq,Nat.sub_self]
      rfl
    · have hlt : i - j = i - (j + 1) + 1 := by omega
      rw [replace_placeholder_of_ne heq,ih hts (by omega),hlt,List.getD_cons_succ]

theorem substitute_placeholder (h : ∀ s ∈ targets, IsInert s) (i : Nat) :
    substitute (placeholder i) targets = targets.getD i (placeholder i) := by
  rw [substitute,substituteFrom_placeholder h (Nat.zero_le i),Nat.sub_zero]

namespace QuotedTemplate

variable {t : QuotedTemplate}

/-- The texts between the quotes are changed each for itself. -/
theorem substitute_fill (h : ∀ s ∈ t.segments, IsInert s) (f : Nat → String) (targets : List String) :
    substitute (t.fill f) targets = t.fill fun i => substitute (f i) targets := by
  obtain ⟨first,places⟩ := t
  unfold substitute
  induction places generalizing first with
  | nil =>
    have hfirst := h first List.mem_cons_self
    rw [fill_nil,fill_nil,hfirst.substituteFrom_eq]
  | cons p ps ih =>
    obtain ⟨hfirst,hbehind⟩ := List.forall_mem_cons.1 h
    rw [fill_cons,fill_cons,substituteFrom_append_enclosed p.quote.mark_cases,hfirst.substituteFrom_eq,
      ih p.behind hbehind]

/-- If neither the segments of a template nor the targets hold what placeholders begin with, substitution puts its own
target in the place of each placeholder.  When the rounds for the first targets are `done`, these are in their places,
and all else of the template is as it was. -/
theorem substitute_all_at_once (hindex : ∀ p ∈ t.places, p.index < targets.length)
    (hsegments : ∀ s ∈ t.segments, IsInert s) (htargets : ∀ s ∈ targets, IsInert s) :
    substitute (t.fill placeholder) targets = t.fill (targets.getD · "") ∧
    ∀ done, done <+: targets →
      substitute (t.fill placeholder) done = t.fill fun i => done.getD i (placeholder i) := by
  have hrounds : ∀ done, done <+: targets →
      substitute (t.fill placeholder) done = t.fill fun i => done.getD i (placeholder i) := by
    intro done hdone
    rw [substitute_fill hsegments]
    exact fill_congr fun p _ => substitute_placeholder (fun s hs => htargets s (hdone.subset hs)) p.index
  refine ⟨?_,hrounds⟩
  rw [hrounds targets List.prefix_rfl]
  refine fill_congr fun p hp => ?_
  have hp := hindex p hp
  rw [List.getD_eq_getElem _ _ hp,List.getD_eq_getElem _ _ hp]

/-- Places in any order and one of them twice, a number that begins like another one, and texts that would be
placeholders together. -/
theorem substitute_all_at_once_of_ten :
    let targets := ["a","__livepreview_dep","c","d","e","f","g","h","i","j","_0__"]
    let t : QuotedTemplate := ⟨"import __livepreview_dep",[⟨.double,10,"; import "⟩,⟨.single,1,"_1__"⟩,⟨.double,10,""⟩]⟩
    (∀ p ∈ t.places, p.index < targets.length) ∧ (∀ s ∈ t.segments, IsInert s) ∧ (∀ s ∈ targets, IsInert s) ∧
    t.fill placeholder = "import __livepreview_dep\"__livepreview_dep_10__\"; import '__livepreview_dep_1__'_1__" ++
      "\"__livepreview_dep_10__\"" ∧
    substitute (t.fill placeholder) targets =
      "import __livepreview_dep\"_0__\"; import '__livepreview_dep'_1__\"_0__\"" := by
  intro targets t
  have hindex : ∀ p ∈ t.places, p.index < targets.length := by decide
  have hsegments : ∀ s ∈ t.segments, IsInert s := by decide
  have htargets : ∀ s ∈ targets, IsInert s := by decide
  refine ⟨hindex,hsegments,htargets,by decide,?_⟩
  rw [(substitute_all_at_once hindex hsegments htargets).1]
  decide

end QuotedTemplate

end PreviewCompiler
