import PreviewCompiler.Files.Watched
import PreviewCompiler.Proofs.Files.Editing

namespace PreviewCompiler

open Data FileSet PreviewCompiler.Path

namespace InPlace

variable {α : Type}

@[simp]
theorem run_pure (a : α) (fs : FileSet) : InPlace.run (pure a) fs = (.ok a,fs) := rfl

@[simp]
theorem run_throw (fault : OperationFault) (fs : FileSet) : InPlace.run (α := α) (throw fault) fs = (.error fault,fs) :=
  rfl

@[simp]
theorem run_get (fs : FileSet) : InPlace.run get fs = (.ok fs,fs) := rfl

@[simp]
theorem run_write (f : FileSet → FileSet) (fs : FileSet) : (write f).run fs = (.ok (),f fs) := rfl

@[simp]
theorem run_bind {β : Type} (x : InPlace α) (f : α → InPlace β) (fs : FileSet) : InPlace.run (x >>= f) fs =
    match x.run fs with
    | (.ok a,fs') => (f a).run fs'
    | (.error fault,fs') => (.error fault,fs') := by
  rcases hx : x.run fs with ⟨a | fault,fs'⟩
  · simp only [run,ExceptT.run_bind,StateT.run_bind] at hx ⊢
    rw [hx]
    rfl
  · simp only [run,ExceptT.run_bind,StateT.run_bind] at hx ⊢
    rw [hx]
    rfl

@[simp]
theorem run_map {β : Type} (f : α → β) (x : InPlace α) (fs : FileSet) : InPlace.run (f <$> x) fs =
    ((x.run fs).1.map f,(x.run fs).2) := by
  rw [← bind_pure_comp,run_bind]
  rcases x.run fs with ⟨_ | _,_⟩ <;> rfl

@[simp]
theorem run_takeAway (path : String) (fs : FileSet) : (takeAway path).run fs =
    (.ok ((remove path fs).map (·.1)),((remove path fs).map (·.2)).getD fs) := by
  cases he : get? (normalize path) fs with
  | none => simp [takeAway,remove,he]
  | some e => cases hf : e.isFile <;> simp [takeAway,remove,he,hf,Except.map]

@[simp]
theorem run_forM_write {step : FileSet → α → FileSet} (as : List α) (fs : FileSet) :
    InPlace.run (forM as fun a => write (step · a)) fs = (.ok (),as.foldl step fs) := by
  induction as generalizing fs with
  | nil => rfl
  | cons a as ih => exact ih (step fs a)

end InPlace

namespace FileOperation

open InPlace

/-- An operation in place does what it says or nothing. -/
theorem run_perform (op : FileOperation) (fs : FileSet) : op.perform.run fs =
    match op.run fs with
    | .ok fs' => (.ok (),fs')
    | .error fault => (.error fault,fs) := by
  cases op with
  | create path content =>
    cases h : (get? (normalize path) fs).isSome <;> simp [perform,FileOperation.run,h]
  | createDirectory path =>
    cases h : isFile (normalize path) fs <;> simp [perform,FileOperation.run,h]
  | edit path content =>
    cases h : isFile (normalize path) fs <;> simp [perform,FileOperation.run,h]
  | rename source target =>
    cases h : (get? (normalize target) fs).isSome with
    | true => simp [perform,FileOperation.run,h]
    | false =>
      cases hmoved : entriesAt (normalize source) fs with
      | nil => simp [perform,FileOperation.run,h,hmoved]
      | cons e es => simp [perform,FileOperation.run,h,hmoved]
  | delete path =>
    cases h : remove (normalize path) fs <;> simp [perform,FileOperation.run,h]

end FileOperation

/-- Everyone is told of a change, also of one that leaves the number as it was.  A look is nobody else's. -/
structure WatchCell.IsLawful {κ ω : Type} (w : WatchCell κ ω) : Prop where
  value_modify (f : Nat → Nat) (c : κ) : w.value (w.modify f c) = f (w.value c)
  hasChanged_modify (i : ω) (f : Nat → Nat) (c : κ) : w.hasChanged i (w.modify f c) = true
  value_look (i : ω) (c : κ) : w.value (w.look i c) = w.value c
  hasChanged_look (i : ω) (c : κ) : w.hasChanged i (w.look i c) = false
  hasChanged_look_of_ne {i j : ω} (h : i ≠ j) (c : κ) : w.hasChanged i (w.look j c) = w.hasChanged i c

/-- A number with how often it has been changed, and how often it had been when each watcher last looked. -/
structure StampedNumber (ω : Type) where
  value : Nat
  stamp : Nat
  seen : ω → Nat
  seen_le (i : ω) : seen i ≤ stamp

/-- A number that nobody has yet to look at. -/
def StampedNumber.fresh {ω : Type} (value : Nat) : StampedNumber ω := ⟨value,0,fun _ => 0,fun _ => Nat.le_refl 0⟩

/-- Watching by counting changes. -/
def WatchCell.stamped (ω : Type) [DecidableEq ω] : WatchCell (StampedNumber ω) ω where
  value c := c.value
  modify f c := ⟨f c.value,c.stamp + 1,c.seen,fun i => Nat.le_succ_of_le (c.seen_le i)⟩
  hasChanged i c := c.seen i != c.stamp
  look i c := ⟨c.value,c.stamp,fun j => if j = i then c.stamp else c.seen j,fun j => by
    split
    · exact Nat.le_refl _
    · exact c.seen_le j⟩

theorem WatchCell.isLawful_stamped (ω : Type) [DecidableEq ω] : (stamped ω).IsLawful where
  value_modify _ _ := rfl
  hasChanged_modify i _ c := bne_iff_ne.2 (Nat.ne_of_lt (Nat.lt_succ_of_le (c.seen_le i)))
  value_look _ _ := rfl
  hasChanged_look _ _ := bne_eq_false_iff_eq.2 (if_pos rfl)
  hasChanged_look_of_ne h c := congrArg (· != c.stamp) (if_neg h)

namespace WatchedFiles

variable {κ ω : Type} {w : WatchCell κ ω}

/-- An operation fails and nothing is different, or it succeeds, counts and is told to everyone. -/
theorem apply_cases (hw : w.IsLawful) (op : FileOperation) (m : WatchedFiles κ) :
    (∃ fault, op.run m.files = .error fault ∧ m.apply w op = (.error fault,m)) ∨
    ∃ m' : WatchedFiles κ, op.run m.files = .ok m'.files ∧ m.apply w op = (.ok (w.value m.version + 1),m') ∧
      w.value m'.version = w.value m.version + 1 ∧ ∀ i, w.hasChanged i m'.version = true := by
  cases h : op.run m.files with
  | error fault => exact .inl ⟨fault,rfl,by simp only [apply,op.run_perform,h]⟩
  | ok fs =>
    refine .inr ⟨⟨fs,w.modify (· + 1) m.version⟩,rfl,by simp only [apply,op.run_perform,h],?_,fun i => ?_⟩
    · exact hw.value_modify _ _
    · exact hw.hasChanged_modify i _ _

theorem plain_apply (hw : w.IsLawful) (op : FileOperation) (m : WatchedFiles κ) :
    (m.apply w op).2.plain w = (m.plain w).next op := by
  have hnext : (m.plain w).next op = ((do return ⟨← op.run m.files,w.value m.version + 1⟩ :
      Except OperationFault MemoryFiles).toOption).getD (m.plain w) := rfl
  obtain ⟨fault,hrun,hm⟩ | ⟨m',hrun,hm,hv,-⟩ := apply_cases hw op m
  · rw [hm,hnext,hrun]
    rfl
  · rw [hm,hnext,hrun,plain,hv]
    rfl

theorem plain_lookAll (hw : w.IsLawful) (is : List ω) (m : WatchedFiles κ) : (m.lookAll w is).plain w = m.plain w := by
  have hv : w.value (is.foldl (fun c i => w.look i c) m.version) = w.value m.version :=
    List.foldlRecOn (motive := fun c => w.value c = w.value m.version) is _ rfl fun c hc i _ =>
      (hw.value_look i c).trans hc
  rw [plain,lookAll,hv,plain]

theorem hasChanged_lookAll (hw : w.IsLawful) {i : ω} {is : List ω} (hi : i ∉ is) (m : WatchedFiles κ) :
    w.hasChanged i (m.lookAll w is).version = w.hasChanged i m.version :=
  List.foldlRecOn (motive := fun c => w.hasChanged i c = w.hasChanged i m.version) is _ rfl fun c hc _ hj =>
    (hw.hasChanged_look_of_ne (ne_of_mem_of_not_mem hj hi).symm c).trans hc

theorem watch_cons (i : ω) (op : FileOperation) (others : List ω) (steps : List (FileOperation × List ω))
    (m : WatchedFiles κ) : m.watch w i ((op,others) :: steps) =
    let m' := (m.apply w op).2.lookAll w others
    let run := (m'.lookAll w [i]).watch w i steps
    (((m.apply w op).1,w.hasChanged i m'.version) :: run.1,run.2) := rfl

theorem plain_watch (hw : w.IsLawful) (i : ω) (steps : List (FileOperation × List ω)) (m : WatchedFiles κ) :
    (m.watch w i steps).2.plain w = (m.plain w).run (steps.map (·.1)) := by
  induction steps generalizing m with
  | nil => rfl
  | cons step steps ih =>
    obtain ⟨op,others⟩ := step
    simp only [watch_cons,ih,plain_lookAll hw,plain_apply hw,List.map_cons,MemoryFiles.run,List.foldl_cons]

/-- The versions that are answered follow each other, up to the last. -/
theorem versions_watch (hw : w.IsLawful) (i : ω) (steps : List (FileOperation × List ω)) (m : WatchedFiles κ) :
    let run := m.watch w i steps
    let successes := run.1.countP (·.1.isOk)
    w.value run.2.version = w.value m.version + successes ∧
      run.1.filterMap (·.1.toOption) = List.range' (w.value m.version + 1) successes := by
  induction steps generalizing m with
  | nil => exact ⟨rfl,rfl⟩
  | cons step steps ih =>
    obtain ⟨op,others⟩ := step
    have hv : ∀ (m : WatchedFiles κ) is, w.value (m.lookAll w is).version = w.value m.version := fun m is =>
      congrArg MemoryFiles.version (plain_lookAll hw is m)
    obtain ⟨fault,-,hm⟩ | ⟨m',-,hm,hm',-⟩ := apply_cases hw op m
    · obtain ⟨hvalue,hanswers⟩ := ih (((m.apply w op).2.lookAll w others).lookAll w [i])
      rw [hm,hv,hv] at hvalue hanswers
      simp only [watch_cons,hm]
      exact ⟨hvalue,hanswers⟩
    · obtain ⟨hvalue,hanswers⟩ := ih (((m.apply w op).2.lookAll w others).lookAll w [i])
      rw [hm,hv,hv,hm'] at hvalue hanswers
      simp only [watch_cons,hm]
      refine ⟨hvalue.trans ?_,?_⟩
      · rw [List.countP_cons_of_pos rfl,Nat.add_right_comm,Nat.add_assoc]
      · rw [List.countP_cons_of_pos rfl,List.range'_succ,← hanswers]
        rfl

/-- A watcher that has seen everything sees a change after each success. -/
theorem sights_watch (hw : w.IsLawful) {i : ω} {steps : List (FileOperation × List ω)}
    (hi : ∀ step ∈ steps, i ∉ step.2) {m : WatchedFiles κ} (hm : w.hasChanged i m.version = false) :
    (m.watch w i steps).1.map (·.2) = (m.watch w i steps).1.map (·.1.isOk) := by
  induction steps generalizing m with
  | nil => rfl
  | cons step steps ih =>
    obtain ⟨op,others⟩ := step
    have hothers : i ∉ others := hi (op,others) List.mem_cons_self
    have hchanged : w.hasChanged i (m.apply w op).2.version = (m.apply w op).1.isOk := by
      obtain ⟨fault,-,happly⟩ | ⟨m',-,happly,-,htold⟩ := apply_cases hw op m
      · rw [happly]
        exact hm
      · rw [happly]
        exact htold i
    simp only [watch_cons,List.map_cons,hasChanged_lookAll hw hothers,hchanged]
    exact congrArg _ (ih (fun step h => hi step (List.mem_cons_of_mem _ h)) (hw.hasChanged_look i _))

/-- An operation that fails leaves files, version and watchers as they were; one that succeeds answers the next
version, which is the version from then on, and all watchers can see that.  So along any run the version counts the
successes, and one who looks after each operation sees a change exactly after these. -/
theorem versions_count_successes (hw : w.IsLawful) (m : WatchedFiles κ) :
    (∀ op, match m.apply w op with
      | (.error fault,m') => op.run m.files = .error fault ∧ m' = m
      | (.ok v,m') => op.run m.files = .ok m'.files ∧ v = w.value m.version + 1 ∧ w.value m'.version = v ∧
        ∀ i, w.hasChanged i m'.version = true) ∧
    ∀ (i : ω) (steps : List (FileOperation × List ω)),
      let run := m.watch w i steps
      run.1.length = steps.length ∧ run.2.plain w = (m.plain w).run (steps.map (·.1)) ∧
      w.value run.2.version = w.value m.version + run.1.countP (·.1.isOk) ∧
      run.1.filterMap (·.1.toOption) = List.range' (w.value m.version + 1) (run.1.countP (·.1.isOk)) ∧
      ((∀ step ∈ steps, i ∉ step.2) → w.hasChanged i m.version = false →
        run.1.map (·.2) = run.1.map (·.1.isOk)) := by
  refine ⟨fun op => ?_,fun i steps => ⟨?_,plain_watch hw i steps m,(versions_watch hw i steps m).1,
    (versions_watch hw i steps m).2,fun hi hm => sights_watch hw hi hm⟩⟩
  · obtain ⟨fault,hrun,hm⟩ | ⟨m',hrun,hm,hv,htold⟩ := apply_cases hw op m
    · rw [hm]
      exact ⟨hrun,rfl⟩
    · rw [hm]
      exact ⟨hrun,rfl,hv,htold⟩
  · induction steps generalizing m with
    | nil => rfl
    | cons step steps ih => exact congrArg (· + 1) (ih _)

/-- A directory is renamed and a file of it edited at its new path.  The two operations that fail in between, one of
them because of a file in the way of the directory, are not seen. -/
theorem versions_count_successes_of_rename :
    let m : WatchedFiles (StampedNumber Bool) := ⟨ofFiles [("/ui/a.js","1"),("/b.js","2")],.fresh 7⟩
    let steps := [(.rename "/ui" "/b.js",[]),(.rename "/ui" "/lib",[false]),(.edit "/ui/a.js" "3",[]),
      (.edit "/lib/a.js" "3",[false,false])]
    let run := m.watch (.stamped Bool) true steps
    run.1.map (·.1.toOption) = [none,some 8,none,some 9] ∧ run.1.map (·.2) = [false,true,false,true] ∧
      run.2.files = [("/b.js",.file "2"),("/lib",.directory),("/lib/a.js",.file "3")] := by
  intro m steps run
  obtain ⟨-,hplain,-,-,hsights⟩ := (versions_count_successes (WatchCell.isLawful_stamped Bool) m).2 true steps
  refine ⟨by decide +kernel,?_,(congrArg MemoryFiles.files hplain).trans (by decide +kernel)⟩
  rw [hsights (by decide) rfl]
  decide +kernel

end WatchedFiles

end PreviewCompiler
