/-!
# Binding times

A feature is bound when the product is compiled, when it is initialized, or
while it runs.  Documents spell a binding time by its name.
-/

namespace FeatureModel

inductive BindingTime where
  | compilation
  | initialization
  | runtime
deriving DecidableEq, Repr, Inhabited

namespace BindingTime

def all : List BindingTime :=
  [compilation, initialization, runtime]

def name : BindingTime -> String
  | compilation => "compilation"
  | initialization => "initialization"
  | runtime => "runtime"

def parse? (text : String) : Option BindingTime :=
  all.find? (fun t => t.name == text)

def nameAt (n : Int) : String :=
  match n with
  | .ofNat i => (all[i]?).elim "unknown" name
  | .negSucc _ => "unknown"

theorem parse?_name (t : BindingTime) : parse? t.name = some t := by
  cases t <;> rfl

theorem name_of_parse? {text : String} {t : BindingTime} (h : parse? text = some t) :
    t.name = text := by
  simpa using List.find?_some h

end BindingTime
end FeatureModel
