/-!
# Folds that check before each step

When every step either fails with what a check finds wrong or moves on, a fold
over a list fails at the first item that the check rejects, and otherwise comes
to where moving on alone leads.
-/

namespace FeatureModel
namespace CheckedFold

variable {σ α ε : Type} {step : σ -> α -> Except ε σ} {check : σ -> α -> Option ε}
  {next : σ -> α -> σ}

/-- A step fails with what its check finds wrong, and moves on if that is nothing. -/
def Checks (step : σ -> α -> Except ε σ) (check : σ -> α -> Option ε) (next : σ -> α -> σ) :
    Prop :=
  forall s a, step s a = (check s a).elim (.ok (next s a)) .error

/-- What the check finds wrong with the item of a number when its turn comes. -/
def wrongAt? (check : σ -> α -> Option ε) (next : σ -> α -> σ) (s : σ) (xs : List α)
    (i : Nat) : Option ε :=
  xs[i]?.bind (check ((xs.take i).foldl next s))

theorem wrongAt?_cons_zero (s : σ) (a : α) (xs : List α) :
    wrongAt? check next s (a :: xs) 0 = check s a :=
  rfl

theorem foldlM_cons_of_wrong (h : Checks step check next) {s : σ} {a : α} {e : ε}
    (hwrong : check s a = some e) (xs : List α) :
    (a :: xs).foldlM step s = .error e := by
  rw [List.foldlM_cons, h, hwrong]
  rfl

theorem foldlM_cons_of_right (h : Checks step check next) {s : σ} {a : α}
    (hright : check s a = none) (xs : List α) :
    (a :: xs).foldlM step s = xs.foldlM step (next s a) := by
  rw [List.foldlM_cons, h, hright]
  rfl

theorem foldlM_eq_ok_iff (h : Checks step check next) {s t : σ} {xs : List α} :
    xs.foldlM step s = .ok t <->
      (forall i, wrongAt? check next s xs i = none) ∧ t = xs.foldl next s := by
  induction xs generalizing s with
  | nil =>
      constructor
      · intro hok
        cases hok
        exact ⟨fun _ => rfl, rfl⟩
      · intro hend
        rw [hend.right]
        rfl
  | cons a xs ih =>
      cases ha : check s a with
      | some e =>
          rw [foldlM_cons_of_wrong h ha]
          constructor
          · intro hok
            cases hok
          · intro hend
            have hzero := hend.left 0
            rw [wrongAt?_cons_zero, ha] at hzero
            cases hzero
      | none =>
          rw [foldlM_cons_of_right h ha, ih, List.foldl_cons]
          constructor
          · intro hend
            refine ⟨?_, hend.right⟩
            intro i
            cases i with
            | zero => exact ha
            | succ i => exact hend.left i
          · intro hend
            exact ⟨fun i => hend.left (i + 1), hend.right⟩

theorem foldlM_eq_error_iff (h : Checks step check next) {s : σ} {e : ε} {xs : List α} :
    xs.foldlM step s = .error e <->
      exists i, wrongAt? check next s xs i = some e ∧
        forall j, j < i -> wrongAt? check next s xs j = none := by
  induction xs generalizing s with
  | nil =>
      constructor
      · intro herror
        cases herror
      · intro hfirst
        rcases hfirst with ⟨i, hi, _⟩
        cases hi
  | cons a xs ih =>
      cases ha : check s a with
      | some e' =>
          rw [foldlM_cons_of_wrong h ha]
          constructor
          · intro herror
            cases herror
            exact ⟨0, ha, fun j hj => absurd hj (Nat.not_lt_zero j)⟩
          · intro hfirst
            rcases hfirst with ⟨i, hi, hbefore⟩
            cases i with
            | zero =>
                rw [wrongAt?_cons_zero, ha] at hi
                cases hi
                rfl
            | succ i =>
                have hzero := hbefore 0 (Nat.succ_pos i)
                rw [wrongAt?_cons_zero, ha] at hzero
                cases hzero
      | none =>
          rw [foldlM_cons_of_right h ha, ih]
          constructor
          · intro hfirst
            rcases hfirst with ⟨i, hi, hbefore⟩
            refine ⟨i + 1, hi, ?_⟩
            intro j hj
            cases j with
            | zero => exact ha
            | succ j => exact hbefore j (Nat.lt_of_succ_lt_succ hj)
          · intro hfirst
            rcases hfirst with ⟨i, hi, hbefore⟩
            cases i with
            | zero =>
                rw [wrongAt?_cons_zero, ha] at hi
                cases hi
            | succ i =>
                exact ⟨i, hi, fun j hj => hbefore (j + 1) (Nat.succ_lt_succ hj)⟩

end CheckedFold
end FeatureModel
