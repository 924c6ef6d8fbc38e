import FeatureModel.Action
import FeatureModel.Graph.Build
import FeatureModel.Graph.Lookup

/-!
# Drafts

A draft collects records one call at a time.  A link is added to the latest
record of its source guid, and refused if there is none.
-/

namespace FeatureModel

structure Draft where
  /-- Whether the graph may declare a guid more than once. -/
  tolerate : Bool := false
  records : List Record := []
deriving DecidableEq, Repr, Inhabited

namespace Draft

def addRecord (d : Draft) (record : Record) : Draft :=
  { d with records := d.records ++ [record] }

def addFeature (d : Draft) (attributes : Attributes) : Draft :=
  d.addRecord { toAttributes := attributes }

def linkLast? (source : Guid) (link : Link) : List Record -> Option (List Record)
  | [] => none
  | record :: rest =>
      match linkLast? source link rest with
      | some linked => some (record :: linked)
      | none =>
          if record.guid = source then
            some ({ record with links := record.links ++ [link] } :: rest)
          else
            none

def addLink (source : Guid) (link : Link) : Action Draft UnknownFeature Unit := do
  let d <- get
  match linkLast? source link d.records with
  | some records => modify fun d => { d with records := records }
  | none => throw { guid := source }

def build (d : Draft) : Except StructuralError Graph :=
  Graph.build d.records d.tolerate

theorem linkLast?_eq_none_iff {source : Guid} {link : Link} {records : List Record} :
    linkLast? source link records = none <-> forall r, r ∈ records -> r.guid ≠ source := by
  induction records with
  | nil => simp [linkLast?]
  | cons record rest ih =>
      unfold linkLast?
      cases hrest : linkLast? source link rest with
      | some linked =>
          have hnot : ¬ forall r, r ∈ rest -> r.guid ≠ source := by
            intro h
            rw [ih.mpr h] at hrest
            cases hrest
          constructor
          · intro h
            cases h
          · intro h
            exact absurd (fun r hr => h r (List.mem_cons_of_mem record hr)) hnot
      | none =>
          have hall := ih.mp hrest
          by_cases hguid : record.guid = source
          · simp [hguid]
          · simpa [hguid] using hall

theorem on_addLink_of_linked {d : Draft} {source : Guid} {link : Link} {records : List Record}
    (h : linkLast? source link d.records = some records) :
    (addLink source link).on d = (.ok (), { d with records := records }) := by
  have hget : (get : Action Draft UnknownFeature Draft).on d = (.ok d, d) := rfl
  unfold addLink
  rw [Action.on_bind_of_ok hget, h]
  rfl

theorem on_addLink_of_unknown {d : Draft} {source : Guid}
    (h : forall r, r ∈ d.records -> r.guid ≠ source) (link : Link) :
    (addLink source link).on d = (.error { guid := source }, d) := by
  have hget : (get : Action Draft UnknownFeature Draft).on d = (.ok d, d) := rfl
  unfold addLink
  rw [Action.on_bind_of_ok hget, linkLast?_eq_none_iff.mpr h]
  rfl

end Draft
end FeatureModel
