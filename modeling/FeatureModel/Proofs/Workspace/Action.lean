import FeatureModel.Proofs.InTurn
import FeatureModel.Workspace.Run

/-!
# Carrying out commands

An action on a workspace comes to an outcome and a workspace.  Commands are carried
out in order: each on the workspace that the one before it left, even if it failed.
Commands that make calls on one object are answered as the object answers.
-/

namespace FeatureModel
namespace Workspace

variable {α : Type} {w w' : Workspace}

theorem on_fetch (reference : Reference) {items : Workspace -> Array α} {number : Nat} {item : α}
    (h : (items w)[number]? = some item) :
    (fetch reference items number).on w = (.ok item, w) := by
  have hget : (get : Action Workspace).on w = (.ok w, w) := rfl
  unfold fetch
  rw [Action.on_bind_of_ok hget, h]
  rfl

theorem run_cons {command : Command} {answer : Except Failure Answer}
    (h : (step command).on w = (answer, w')) (rest : List Command) :
    w.run (command :: rest) = answer :: w'.run rest := by
  show ((step command).on w).1 :: ((step command).on w).2.run rest = _
  rw [h]

theorem run_cons_congr {command command' : Command}
    (h : (step command).on w = (step command').on w) (rest : List Command) :
    w.run (command :: rest) = w.run (command' :: rest) := by
  show ((step command).on w).1 :: ((step command).on w).2.run rest = _
  rw [h]
  rfl

/-!
## Objects under their numbers
-/

theorem setIfInBounds_of_getElem? {xs : Array α} {i : Nat} {x : α} (h : xs[i]? = some x) :
    xs.setIfInBounds i x = xs := by
  rcases Array.getElem?_eq_some_iff.mp h with ⟨hi, hx⟩
  rw [Array.setIfInBounds, dif_pos hi, <- hx, Array.set_getElem_self]

theorem getElem?_setIfInBounds_of_some {xs : Array α} {i : Nat} {x : α} (h : xs[i]? = some x)
    (y : α) : (xs.setIfInBounds i y)[i]? = some y :=
  Array.getElem?_setIfInBounds_self_of_lt (Array.getElem?_eq_some_iff.mp h).1

theorem setIfInBounds_push_size (xs : Array α) (x y : α) :
    (xs.push x).setIfInBounds xs.size y = xs.push y := by
  rw [Array.setIfInBounds, dif_pos (by simp), Array.set_push, dif_neg (Nat.lt_irrefl _)]

/-!
## Calls on one object
-/

structure Place (σ : Type) where
  get? : Workspace -> Option σ
  put : Workspace -> σ -> Workspace
  get?_put : forall {w : Workspace} {s : σ}, get? w = some s -> forall s', get? (put w s') = some s'
  put_get? : forall {w : Workspace} {s : σ}, get? w = some s -> put w s = w
  put_put : forall (w : Workspace) (s s' : σ), put (put w s) s' = put w s'

/-- Commands that make calls on an object are answered as it answers them in turn, and leave what
they leave of it. -/
theorem run_calls {σ ι ο : Type} (place : Place σ) {serve : σ -> ι -> ο × σ}
    {command : ι -> Command} {told : ο -> Except Failure Answer}
    (hserve : forall {w : Workspace} {s : σ}, place.get? w = some s -> forall call : ι,
      (step (command call)).on w = (told (serve s call).1, place.put w (serve s call).2))
    {w : Workspace} {s : σ} (hs : place.get? w = some s) (calls : List ι) (rest : List Command) :
    w.run (calls.map command ++ rest) =
      (inTurn serve s calls).1.map told ++ (place.put w (inTurn serve s calls).2).run rest := by
  induction calls generalizing w s with
  | nil =>
      show w.run rest = (place.put w s).run rest
      rw [place.put_get? hs]
  | cons call later ih =>
      have hnext := place.get?_put hs (serve s call).2
      rw [List.map_cons, List.cons_append, run_cons (hserve hs call), ih hnext, place.put_put,
        inTurn_cons]
      rfl

/-!
## Registries
-/

def withRegistry (w : Workspace) (number : Nat) (r : Registry) : Workspace :=
  { w with registries := w.registries.setIfInBounds number r }

theorem getElem?_withRegistry {number : Nat} {r : Registry} (hr : w.registries[number]? = some r)
    (s : Registry) : (w.withRegistry number s).registries[number]? = some s :=
  getElem?_setIfInBounds_of_some hr s

theorem withRegistry_self {number : Nat} {r : Registry} (hr : w.registries[number]? = some r) :
    w.withRegistry number r = w := by
  rw [withRegistry, setIfInBounds_of_getElem? hr]

theorem withRegistry_withRegistry (w : Workspace) (number : Nat) (r s : Registry) :
    (w.withRegistry number r).withRegistry number s = w.withRegistry number s := by
  unfold withRegistry
  rw [Array.setIfInBounds_setIfInBounds]

def registryAt (number : Nat) : Place Registry where
  get? w := w.registries[number]?
  put w r := w.withRegistry number r
  get?_put hr s := getElem?_withRegistry hr s
  put_get? hr := withRegistry_self hr
  put_put w r s := withRegistry_withRegistry w number r s

theorem withRegistry_push (w : Workspace) (r s : Registry) :
    { w with registries := w.registries.push r }.withRegistry w.registries.size s =
      { w with registries := w.registries.push s } := by
  unfold withRegistry
  rw [setIfInBounds_push_size]

theorem on_register {number : Nat} {r : Registry} (hr : w.registries[number]? = some r)
    (offer : Option Candidate) :
    (step (.register number offer)).on w =
      ((((Registry.register offer).on r).1.map Answer.rule).mapError Failure.registry,
        w.withRegistry number ((Registry.register offer).on r).2) := by
  unfold step
  rw [Action.on_bind_of_ok (on_fetch .registry hr)]
  rcases (Registry.register offer).on r with ⟨_ | _, next⟩ <;> rfl

theorem on_newRegistry (withBuiltins : Bool) :
    (step (.newRegistry withBuiltins)).on w =
      (.ok (.registry (if withBuiltins then Registry.builtin else Registry.empty)),
        { w with registries :=
            w.registries.push (if withBuiltins then Registry.builtin else Registry.empty) }) :=
  rfl

/-!
## Drafts
-/

def withDraft (w : Workspace) (number : Nat) (d : Draft) : Workspace :=
  { w with drafts := w.drafts.setIfInBounds number d }

theorem getElem?_withDraft {number : Nat} {d : Draft} (hd : w.drafts[number]? = some d)
    (c : Draft) : (w.withDraft number c).drafts[number]? = some c :=
  getElem?_setIfInBounds_of_some hd c

theorem withDraft_self {number : Nat} {d : Draft} (hd : w.drafts[number]? = some d) :
    w.withDraft number d = w := by
  rw [withDraft, setIfInBounds_of_getElem? hd]

theorem withDraft_withDraft (w : Workspace) (number : Nat) (c d : Draft) :
    (w.withDraft number c).withDraft number d = w.withDraft number d := by
  unfold withDraft
  rw [Array.setIfInBounds_setIfInBounds]

def draftAt (number : Nat) : Place Draft where
  get? w := w.drafts[number]?
  put w d := w.withDraft number d
  get?_put hd c := getElem?_withDraft hd c
  put_get? hd := withDraft_self hd
  put_put w c d := withDraft_withDraft w number c d

theorem withDraft_push (w : Workspace) (c d : Draft) :
    { w with drafts := w.drafts.push c }.withDraft w.drafts.size d =
      { w with drafts := w.drafts.push d } := by
  unfold withDraft
  rw [setIfInBounds_push_size]

theorem on_newDraft (tolerate : Bool) :
    (step (.newDraft tolerate)).on w =
      (.ok (.draft { tolerate := tolerate }),
        { w with drafts := w.drafts.push { tolerate := tolerate } }) :=
  rfl

theorem on_addFeature {number : Nat} {d : Draft} (hd : w.drafts[number]? = some d)
    (attributes : Attributes) :
    (step (.addFeature number attributes)).on w =
      (.ok (.count (d.addFeature attributes).records.length),
        w.withDraft number (d.addFeature attributes)) := by
  unfold step
  rw [Action.on_bind_of_ok (on_fetch .draft hd)]
  rfl

theorem on_addLink {number : Nat} {d : Draft} (hd : w.drafts[number]? = some d) (source : Guid)
    (link : Link) :
    (step (.addLink number source link)).on w =
      match (Draft.addLink source link).on d with
      | (.ok _, next) => (.ok (.count next.records.length), w.withDraft number next)
      | (.error e, next) => (.error (.unknownFeature e), w.withDraft number next) := by
  unfold step
  rw [Action.on_bind_of_ok (on_fetch .draft hd)]
  rcases (Draft.addLink source link).on d with ⟨_ | _, next⟩ <;> rfl

theorem on_build {number : Nat} {d : Draft} (hd : w.drafts[number]? = some d) :
    (step (.build number)).on w = (step (.buildRecords d.records d.tolerate)).on w := by
  rw [step, Action.on_bind_of_ok (on_fetch .draft hd)]
  rfl

end Workspace
end FeatureModel
