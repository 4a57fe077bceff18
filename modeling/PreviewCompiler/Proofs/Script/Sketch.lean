import PreviewCompiler.Proofs.Script.Relabel
import PreviewCompiler.Script.Printer

namespace PreviewCompiler.Script

/-- A piece of a text: one that is given, or the place for the text of a key. -/
inductive Piece where
  | fixed (text : String)
  | slot (key : String)
  deriving DecidableEq, Repr

abbrev Sketch := List Piece

namespace Sketch

/-- The text with `f` of each key in the places for it. -/
def fill (f : String → String) : Sketch → String
  | [] => ""
  | .fixed s :: ps => s ++ fill f ps
  | .slot k :: ps => f k ++ fill f ps

@[simp]
theorem fill_append (f : String → String) (ps qs : Sketch) : fill f (ps ++ qs) = fill f ps ++ fill f qs := by
  induction ps with
  | nil => rw [List.nil_append,fill,String.empty_append]
  | cons p ps ih => cases p <;> rw [List.cons_append,fill,fill,ih,String.append_assoc]

theorem fill_fixed (f : String → String) (s : String) : fill f [.fixed s] = s := String.append_empty

theorem fill_slot (f : String → String) (k : String) : fill f [.slot k] = f k := String.append_empty

theorem fill_congr {f g : String → String} {sketch : Sketch} (h : ∀ k, .slot k ∈ sketch → f k = g k) :
    sketch.fill f = sketch.fill g := by
  induction sketch with
  | nil => rfl
  | cons p ps ih =>
    have hps := ih fun k hk => h k (List.mem_cons_of_mem _ hk)
    cases p with
    | fixed s => rw [fill,fill,hps]
    | slot k => rw [fill,fill,hps,h k List.mem_cons_self]

/-- Are all places of a sketch for some keys? -/
def IsOf (keys : List String) (sketch : Sketch) : Prop := ∀ k, .slot k ∈ sketch → k ∈ keys

/-- Sketches in the places of a sketch. -/
theorem exists_fill {ι : Type} {keys : List String} {F G : ι → String → String}
    (h : ∀ k, ∃ inner : Sketch, inner.IsOf keys ∧ ∀ i, F i k = inner.fill (G i)) (sketch : Sketch) :
    ∃ whole : Sketch, whole.IsOf keys ∧ ∀ i, sketch.fill (F i) = whole.fill (G i) := by
  induction sketch with
  | nil => exact ⟨[],fun _ hk => absurd hk List.not_mem_nil,fun _ => rfl⟩
  | cons p ps ih =>
    obtain ⟨rest,hrest,hfill⟩ := ih
    cases p with
    | fixed s =>
      refine ⟨.fixed s :: rest,fun k hk => hrest k ?_,fun i => congrArg (s ++ ·) (hfill i)⟩
      exact (List.mem_cons.1 hk).resolve_left nofun
    | slot k =>
      obtain ⟨inner,hinner,hk⟩ := h k
      refine ⟨inner ++ rest,fun k hk => (List.mem_append.1 hk).elim (hinner k) (hrest k),fun i => ?_⟩
      rw [fill,fill_append,hk,hfill]

end Sketch

/-- The page with another text on it. -/
def Page.withText (p : Page) (out : String) : Page := { p with out }

namespace Write

open Node

/-- Is what is written with some texts a sketch with these texts, quoted, in its places? -/
def Sketches {α : Type} (w : (String → String) → Write α) : Prop :=
  ∀ (before : Sketch) (page : Page), ∃ (a : α) (after : Sketch) (page' : Page), ∀ g : String → String,
    (w g).run (page.withText (before.fill (quoted ∘ g))) = (a,page'.withText (after.fill (quoted ∘ g)))

namespace Sketches

variable {α β : Type} {emit : Node → Write Unit}

theorem pure (a : α) : Sketches fun _ => Pure.pure a :=
  fun before page => ⟨a,before,page,fun _ => rfl⟩

theorem bind {x : (String → String) → Write α} {f : (String → String) → α → Write β} (hx : Sketches x)
    (hf : ∀ a, Sketches fun g => f g a) : Sketches fun g => x g >>= f g := by
  intro before page
  obtain ⟨a,between,page₁,h₁⟩ := hx before page
  obtain ⟨b,after,page₂,h₂⟩ := hf a between page₁
  refine ⟨b,after,page₂,fun g => ?_⟩
  rw [StateT.run_bind,h₁ g]
  exact h₂ g

/-- What is read from a page besides its text. -/
theorem get_bind {f : (String → String) → Page → Write α} (hout : ∀ g page out, f g (page.withText out) = f g page)
    (hf : ∀ page, Sketches fun g => f g page) : Sketches fun g => get >>= f g := by
  intro before page
  obtain ⟨a,after,page',h⟩ := hf page before page
  refine ⟨a,after,page',fun g => ?_⟩
  rw [StateT.run_bind]
  change (f g (page.withText _)).run (page.withText _) = _
  rw [hout]
  exact h g

theorem modify {f : Page → Page} (hf : ∀ page out, f (page.withText out) = (f page).withText out) :
    Sketches fun _ => MonadState.modifyGet fun page => (PUnit.unit,f page) := by
  intro before page
  refine ⟨(),before,f page,fun g => ?_⟩
  change ((),f (page.withText _)) = _
  rw [hf]

private theorem pushn_eq (s : String) (c : Char) (k : Nat) : s.pushn c k = s ++ String.pushn "" c k := by
  induction k with
  | zero => exact String.append_empty.symm
  | succ k ih =>
    refine (congrArg (String.push · c) ih).trans ?_
    rw [String.ext_iff,String.toList_push,String.toList_append,String.toList_append,List.append_assoc]
    exact congrArg (s.toList ++ ·) (String.toList_push _).symm

/-- A piece that is not empty. -/
private theorem piece {p : Piece} (hp : ∀ g : String → String, (Sketch.fill (quoted ∘ g) [p]).isEmpty = false) :
    Sketches fun g => Write.text (Sketch.fill (quoted ∘ g) [p]) := by
  intro before page
  refine ⟨(),(if page.atLineStart then before ++ [.fixed (String.pushn "" ' ' (4 * page.depth))] else before) ++ [p],
    { page with atLineStart := false },fun g => ?_⟩
  rw [Sketch.fill_append]
  have htext : Write.text (Sketch.fill (quoted ∘ g) [p]) = _ := if_neg (by rw [hp]; decide)
  refine (congrArg (StateT.run · _) htext).trans ?_
  change ((),({ page with out := _, atLineStart := false } : Page)) = _
  rw [Page.withText]
  by_cases hs : page.atLineStart
  · rw [if_pos hs,if_pos hs,Sketch.fill_append,Sketch.fill_fixed,← pushn_eq]
    rfl
  · rw [if_neg hs,if_neg hs]
    rfl

theorem text (s : String) : Sketches fun _ => Write.text s := by
  by_cases hs : s.isEmpty
  · simp only [Write.text,if_pos hs]
    exact pure ()
  · have htext := piece (p := .fixed s) fun g => by rw [Sketch.fill_fixed]; simpa using hs
    simpa only [Sketch.fill_fixed] using htext

theorem text_quoted (k : String) : Sketches fun g => Write.text (quoted (g k)) := by
  have htext := piece (p := .slot k) fun g => by
    rw [Sketch.fill_slot]
    simp [quoted]
  simpa only [Sketch.fill_slot,Function.comp_apply] using htext

theorem blank : Sketches fun _ => Write.blank := text " "

theorem isBrief : Sketches fun _ => Write.isBrief := get_bind (fun _ _ _ => rfl) fun page => pure page.isBrief

theorem unlessDo {b : Bool} {w : (String → String) → Write PUnit} (hw : Sketches w) :
    Sketches fun g => if b then Pure.pure ⟨⟩ else w g := by
  cases b with
  | false => exact hw
  | true => exact pure ()

theorem gap : Sketches fun _ => Write.gap := isBrief.bind fun _ => unlessDo blank

theorem gapBefore (b : Bool) : Sketches fun _ => Write.gapBefore b := by
  cases b with
  | false => exact gap
  | true => exact blank

theorem lineEnd : Sketches fun _ => Write.lineEnd := by
  intro before page
  refine ⟨(),if page.atLineStart then before else before ++ [.fixed "\n"],{ page with atLineStart := true },
    fun g => ?_⟩
  change ((),if page.atLineStart then page.withText _ else _) = _
  by_cases hs : page.atLineStart
  · rw [if_pos hs,if_pos hs]
    exact congrArg (fun b => ((),({ page with out := _, atLineStart := b } : Page))) hs
  · rw [if_neg hs,if_neg hs,Sketch.fill_append,Sketch.fill_fixed]
    rfl

theorem line : Sketches fun _ => Write.line := isBrief.bind fun _ => unlessDo lineEnd

theorem indented {w : (String → String) → Write Unit} (hw : Sketches w) : Sketches fun g => Write.indented (w g) :=
  (modify fun _ _ => rfl).bind fun _ => hw.bind fun _ => modify fun _ _ => rfl

theorem forM {as : List α} {f : (String → String) → α → Write PUnit} (hf : ∀ a, Sketches fun g => f g a) :
    Sketches fun g => as.forM (f g) := by
  induction as with
  | nil => exact pure ()
  | cons a as ih => exact (hf a).bind fun _ => ih

theorem comment (c : Comment) : Sketches fun _ => Write.comment c := by
  unfold Write.comment
  cases c.isBlock with
  | false => exact (text _).bind fun _ => lineEnd
  | true => exact (text _).bind fun _ => gap

theorem leading (offset : Nat) : Sketches fun _ => Write.leading offset :=
  get_bind (fun _ _ _ => rfl) fun _ => unlessDo <|
    (modify fun _ _ => rfl).bind fun _ => forM comment

theorem trailing (offset : Nat) : Sketches fun _ => Write.trailing offset :=
  get_bind (fun _ _ _ => rfl) fun _ => unlessDo <|
    (modify fun _ _ => rfl).bind fun _ => forM fun c => blank.bind fun _ => comment c

end Sketches

end Write

end PreviewCompiler.Script
