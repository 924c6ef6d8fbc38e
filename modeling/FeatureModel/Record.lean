import FeatureModel.BindingTime
import FeatureModel.RelationshipKind
import FeatureModel.Text.Decimal

/-!
# Feature records

A feature model is written down as a list of records.  A record holds the
attributes of one feature and the links that it declares toward other features.
-/

namespace FeatureModel

abbrev Guid :=
  Int

structure Attributes where
  guid : Guid := 0
  name : String := ""
  rationale : String := ""
  bindingTime : BindingTime := .compilation
  mandatory : Bool := false
deriving DecidableEq, Repr, Inhabited

/-- How messages refer to a feature: its quoted name, a slash and its guid. -/
def Attributes.label (a : Attributes) : String :=
  "'" ++ a.name ++ "'/" ++ Text.decimal a.guid

structure Link where
  target : Guid := 0
  kind : RelationshipKind := .complex
deriving DecidableEq, Repr, Inhabited

structure Record extends Attributes where
  links : List Link := []
deriving DecidableEq, Repr, Inhabited

end FeatureModel
