/-!
# Actions on a state

An action comes to an outcome and leaves a state.  When it is given up with an error,
what it has done to the state until then stays done.
-/

namespace FeatureModel

abbrev Action (σ ε α : Type) :=
  ExceptT ε (StateM σ) α

namespace Action

variable {σ ε α β : Type} {action : Action σ ε α} {next : α -> Action σ ε β} {s t : σ}

def on (action : Action σ ε α) (s : σ) : Except ε α × σ :=
  action.run.run s

theorem on_bind_of_ok {a : α} (h : action.on s = (.ok a, t)) :
    (action >>= next).on s = (next a).on t := by
  show (match action s with | (outcome, left) => ExceptT.bindCont next outcome left) = _
  rw [show action s = (.ok a, t) from h]
  rfl

theorem on_bind_of_error {e : ε} (h : action.on s = (.error e, t)) :
    (action >>= next).on s = (.error e, t) := by
  show (match action s with | (outcome, left) => ExceptT.bindCont next outcome left) = _
  rw [show action s = (.error e, t) from h]
  rfl

end Action
end FeatureModel
