/-!
# Calls in turn

An object is called again and again.  Each call is answered by what the calls before
it have left of the object, and leaves something itself.
-/

namespace FeatureModel

variable {σ ι ο : Type} (serve : σ -> ι -> ο × σ) (s : σ)

/-- The answers to calls in turn, and what the last one leaves. -/
def inTurn (serve : σ -> ι -> ο × σ) (s : σ) : List ι -> List ο × σ
  | [] => ([], s)
  | call :: rest =>
      let later := inTurn serve (serve s call).2 rest
      ((serve s call).1 :: later.1, later.2)

@[simp] theorem inTurn_nil : inTurn serve s [] = ([], s) :=
  rfl

theorem inTurn_cons (call : ι) (rest : List ι) :
    inTurn serve s (call :: rest) =
      ((serve s call).1 :: (inTurn serve (serve s call).2 rest).1,
        (inTurn serve (serve s call).2 rest).2) :=
  rfl

theorem inTurn_append (before after : List ι) :
    inTurn serve s (before ++ after) =
      ((inTurn serve s before).1 ++ (inTurn serve (inTurn serve s before).2 after).1,
        (inTurn serve (inTurn serve s before).2 after).2) := by
  induction before generalizing s with
  | nil => rfl
  | cons call rest ih => rw [List.cons_append, inTurn_cons, ih, inTurn_cons, List.cons_append]

theorem inTurn_concat (before : List ι) (call : ι) :
    inTurn serve s (before ++ [call]) =
      ((inTurn serve s before).1 ++ [(serve (inTurn serve s before).2 call).1],
        (serve (inTurn serve s before).2 call).2) :=
  inTurn_append serve s before [call]

end FeatureModel
