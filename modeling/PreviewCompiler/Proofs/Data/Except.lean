import Mathlib.Data.List.Forall2

namespace PreviewCompiler.Data

variable {ε α β : Type}

theorem exists_eq_ok {x : Except ε α} {p : α → Bool} (h : x.toOption.any p = true) : ∃ a, x = .ok a ∧ p a = true := by
  cases x with
  | error e => contradiction
  | ok a => exact ⟨a,rfl,h⟩

theorem eq_ok_of_isOk {x : Except ε α} (h : x.isOk = true) (a : α) : x = .ok (x.toOption.getD a) := by
  cases x with
  | error e => contradiction
  | ok a => rfl

theorem isOk_iff_exists {x : Except ε α} : x.isOk = true ↔ ∃ a, x = .ok a := by
  cases x <;> simp [Except.isOk,Except.toBool]

theorem bind_eq_ok {x : Except ε α} {f : α → Except ε β} {b : β} (h : x >>= f = .ok b) :
    ∃ a, x = .ok a ∧ f a = .ok b := by
  cases x with
  | error e => contradiction
  | ok a => exact ⟨a,rfl,h⟩

theorem map_eq_ok {x : Except ε α} {f : α → β} {b : β} (h : f <$> x = .ok b) :
    ∃ a, x = .ok a ∧ f a = b := by
  cases x with
  | error e => contradiction
  | ok a => exact ⟨a,rfl,Except.ok.inj h⟩

theorem bind_eq_error {x : Except ε α} {f : α → Except ε β} {e : ε} (h : x >>= f = .error e) :
    x = .error e ∨ ∃ a, x = .ok a ∧ f a = .error e := by
  cases x with
  | error e' => exact .inl (congrArg Except.error (Except.error.inj h))
  | ok a => exact .inr ⟨a,rfl,h⟩

theorem map_eq_error_iff {x : Except ε α} {f : α → β} {e : ε} : f <$> x = .error e ↔ x = .error e := by
  cases x <;> simp [Functor.map,Except.map]

theorem isOk_map (f : α → β) (x : Except ε α) : (f <$> x).isOk = x.isOk := by cases x <;> rfl

/-- Of several elements at fault the first one counts. -/
theorem mapM_eq_error_iff {f : α → Except ε β} {as : List α} {e : ε} : as.mapM f = .error e ↔
    ∃ front a back, as = front ++ a :: back ∧ (∀ b ∈ front, (f b).isOk = true) ∧ f a = .error e := by
  induction as with
  | nil => simp [pure,Except.pure]
  | cons a as ih =>
    rw [List.mapM_cons]
    cases ha : f a with
    | error e' =>
      constructor
      · intro h
        obtain rfl : e' = e := Except.error.inj h
        exact ⟨[],a,as,rfl,by simp,ha⟩
      · rintro ⟨front,b,back,has,hfront,hb⟩
        cases front with
        | nil =>
          obtain ⟨rfl,-⟩ := List.cons.inj has
          rw [ha] at hb
          exact congrArg Except.error (Except.error.inj hb)
        | cons c front =>
          obtain ⟨rfl,-⟩ := List.cons.inj has
          have hok := hfront a List.mem_cons_self
          rw [ha] at hok
          contradiction
    | ok b =>
      have hstep : (Except.ok b >>= fun b => as.mapM f >>= fun bs => pure (b :: bs)) = .error e ↔
          as.mapM f = .error e := by
        cases as.mapM f <;> simp [bind,Except.bind,pure,Except.pure]
      rw [hstep,ih]
      constructor
      · rintro ⟨front,c,back,rfl,hfront,hc⟩
        refine ⟨a :: front,c,back,rfl,?_,hc⟩
        intro d hd
        rcases List.mem_cons.1 hd with rfl | hd
        · rw [ha]
          rfl
        · exact hfront d hd
      · rintro ⟨front,c,back,has,hfront,hc⟩
        cases front with
        | nil =>
          obtain ⟨rfl,-⟩ := List.cons.inj has
          rw [ha] at hc
          contradiction
        | cons d front =>
          obtain ⟨rfl,rfl⟩ := List.cons.inj has
          exact ⟨front,c,back,rfl,fun d hd => hfront d (List.mem_cons_of_mem _ hd),hc⟩

theorem isOk_mapM_iff {f : α → Except ε β} {as : List α} :
    (as.mapM f).isOk = true ↔ ∀ a ∈ as, (f a).isOk = true := by
  induction as with
  | nil => simp [pure,Except.pure,Except.isOk,Except.toBool]
  | cons a as ih =>
    rw [List.mapM_cons,List.forall_mem_cons,← ih]
    cases f a with
    | error e => simp [bind,Except.bind,Except.isOk,Except.toBool]
    | ok b => cases as.mapM f <;> simp [bind,Except.bind,pure,Except.pure,Except.isOk,Except.toBool]

theorem forall₂_of_mapM {f : α → Except ε β} {as : List α} {bs : List β} (h : as.mapM f = .ok bs) :
    List.Forall₂ (fun a b => f a = .ok b) as bs := by
  induction as generalizing bs with
  | nil =>
    obtain rfl := Except.ok.inj h
    exact .nil
  | cons a as ih =>
    rw [List.mapM_cons] at h
    obtain ⟨b,hb,hrest⟩ := bind_eq_ok h
    obtain ⟨bs',hbs,hret⟩ := bind_eq_ok hrest
    obtain rfl := Except.ok.inj hret
    exact .cons hb (ih hbs)

end PreviewCompiler.Data
