import Mathlib.Data.List.Forall2

/-!
# Outcomes of computations that may fail

A chain of steps succeeds when every step does, and fails with the error of the first that fails.
-/

namespace MethodSynthesis.Outcomes

variable {ε α β : Type}

theorem bind_eq_ok_iff {x : Except ε α} {f : α → Except ε β} {b : β} :
    x >>= f = .ok b ↔ ∃ a, x = .ok a ∧ f a = .ok b := by
  cases x <;> simp [bind, Except.bind]

theorem bind_eq_error_iff {x : Except ε α} {f : α → Except ε β} {e : ε} :
    x >>= f = .error e ↔ x = .error e ∨ ∃ a, x = .ok a ∧ f a = .error e := by
  cases x <;> simp [bind, Except.bind]

theorem map_eq_ok_iff {x : Except ε α} {f : α → β} {b : β} :
    x.map f = .ok b ↔ ∃ a, x = .ok a ∧ f a = b := by
  cases x <;> simp [Except.map]

theorem map_eq_error_iff {x : Except ε α} {f : α → β} {e : ε} :
    x.map f = .error e ↔ x = .error e := by
  cases x <;> simp [Except.map]

theorem toOption_map (x : Except ε α) (f : α → β) : (x.map f).toOption = x.toOption.map f := by
  cases x <;> rfl

theorem mapError_eq_ok_iff {δ : Type} {x : Except ε α} {f : ε → δ} {a : α} :
    x.mapError f = .ok a ↔ x = .ok a := by
  constructor
  · intro h
    cases x with
    | ok b =>
        cases h
        rfl
    | error e => cases h
  · intro h
    rw [h]
    rfl

theorem toOption_mapError {δ : Type} (x : Except ε α) (f : ε → δ) :
    (x.mapError f).toOption = x.toOption := by
  cases x <;> rfl

theorem pure_eq_ok_iff {a b : α} : (pure a : Except ε α) = .ok b ↔ b = a := by
  simp [pure, Except.pure, eq_comm]

theorem exists_of_isOk {x : Except ε α} (h : x.isOk = true) : ∃ a, x = .ok a := by
  cases x with
  | ok a => exact ⟨a, rfl⟩
  | error e => cases h

theorem mapM_eq_ok_iff {f : α → Except ε β} {xs : List α} {ys : List β} :
    xs.mapM f = .ok ys ↔ List.Forall₂ (fun x y => f x = .ok y) xs ys := by
  induction xs generalizing ys with
  | nil => simp [pure_eq_ok_iff]
  | cons x xs ih =>
      simp only [List.mapM_cons, bind_eq_ok_iff, pure_eq_ok_iff, List.forall₂_cons_left_iff, ih]
      constructor
      · intro h
        obtain ⟨y, hy, rest, hrest, rfl⟩ := h
        exact ⟨y, rest, hy, hrest, rfl⟩
      · intro h
        obtain ⟨y, rest, hy, hrest, rfl⟩ := h
        exact ⟨y, hy, rest, hrest, rfl⟩

theorem exists_mapM_eq_ok_iff {f : α → Except ε β} {xs : List α} :
    (∃ ys, xs.mapM f = .ok ys) ↔ ∀ x ∈ xs, ∃ y, f x = .ok y := by
  induction xs with
  | nil => simp [pure_eq_ok_iff]
  | cons x xs ih =>
      simp only [List.mapM_cons, bind_eq_ok_iff, pure_eq_ok_iff, List.forall_mem_cons, ← ih]
      constructor
      · rintro ⟨_, y, hy, ys, hys, -⟩
        exact ⟨⟨y, hy⟩, ys, hys⟩
      · rintro ⟨⟨y, hy⟩, ys, hys⟩
        exact ⟨_, y, hy, ys, hys, rfl⟩

theorem mapM_eq_error_iff {f : α → Except ε β} {xs : List α} {e : ε} :
    xs.mapM f = .error e ↔ ∃ before x later, xs = before ++ x :: later ∧
      (∀ other ∈ before, ∃ y, f other = .ok y) ∧ f x = .error e := by
  induction xs with
  | nil => simp [pure, Except.pure]
  | cons first rest ih =>
      simp only [List.mapM_cons, bind_eq_error_iff]
      constructor
      · rintro (herror | ⟨y, hy, hrest | ⟨ys, -, herror⟩⟩)
        · exact ⟨[], first, rest, rfl, nofun, herror⟩
        · obtain ⟨before, x, later, rfl, hbefore, hx⟩ := ih.mp hrest
          exact ⟨first :: before, x, later, rfl, List.forall_mem_cons.mpr ⟨⟨y, hy⟩, hbefore⟩, hx⟩
        · cases herror
      · rintro ⟨before, x, later, hsplit, hbefore, hx⟩
        cases before with
        | nil =>
            obtain ⟨rfl, rfl⟩ := List.cons.inj hsplit
            exact Or.inl hx
        | cons head before =>
            obtain ⟨rfl, rfl⟩ := List.cons.inj hsplit
            obtain ⟨⟨y, hy⟩, hbefore⟩ := List.forall_mem_cons.mp hbefore
            exact Or.inr ⟨y, hy, Or.inl (ih.mpr ⟨before, x, later, rfl, hbefore, hx⟩)⟩

theorem foldlM_eq_error_iff {σ : Type} {f : σ → α → Except ε σ} {xs : List α} {s : σ} {e : ε} :
    xs.foldlM f s = .error e ↔
      ∃ before x later t, xs = before ++ x :: later ∧ before.foldlM f s = .ok t ∧
        f t x = .error e := by
  induction xs generalizing s with
  | nil => simp [pure, Except.pure]
  | cons first rest ih =>
      rw [List.foldlM_cons, bind_eq_error_iff]
      constructor
      · rintro (herror | ⟨middle, hfirst, hrest⟩)
        · exact ⟨[], first, rest, s, rfl, rfl, herror⟩
        · obtain ⟨before, x, later, t, rfl, hbefore, hx⟩ := ih.mp hrest
          refine ⟨first :: before, x, later, t, rfl, ?_, hx⟩
          rw [List.foldlM_cons, hfirst]
          exact hbefore
      · intro ⟨before, x, later, t, hsplit, hbefore, hx⟩
        cases before with
        | nil =>
            obtain ⟨rfl, rfl⟩ := List.cons.inj hsplit
            cases hbefore
            exact Or.inl hx
        | cons head before =>
            obtain ⟨rfl, rfl⟩ := List.cons.inj hsplit
            rw [List.foldlM_cons, bind_eq_ok_iff] at hbefore
            obtain ⟨middle, hfirst, hbefore⟩ := hbefore
            exact Or.inr ⟨middle, hfirst, ih.mpr ⟨before, x, later, t, rfl, hbefore, hx⟩⟩

end MethodSynthesis.Outcomes
