import FeatureModel.Runs
import Mathlib.Data.List.Nodup

/-!
# One element of each kind

Elements are of one kind when they agree on a key.  In a list whose order keeps
elements of one kind together, the heads of the runs are one element of each
kind, and no element of that kind comes before it.
-/

namespace FeatureModel
namespace Runs

variable {α κ : Type} {same : α -> α -> Bool} {key : α -> κ} {R : α -> α -> Prop}

/-- The test accepts exactly the elements of one kind. -/
def Tells (same : α -> α -> Bool) (key : α -> κ) : Prop :=
  forall a b, same a b = true <-> key a = key b

/-- What stands between two elements of one kind is of that kind too. -/
def KeepsTogether (R : α -> α -> Prop) (key : α -> κ) : Prop :=
  forall a b c, R a b -> R b c -> key a = key c -> key b = key a

theorem key_ne_of_mem_headsAfter (hsame : Tells same key) (htogether : KeepsTogether R key)
    {x : α} {xs : List α} (hsorted : (x :: xs).Pairwise R) :
    forall y, y ∈ headsAfter same x xs -> key y ≠ key x := by
  induction xs generalizing x with
  | nil =>
      intro y hy
      cases hy
  | cons z rest ih =>
      have hx := List.pairwise_cons.mp hsorted
      intro y hy
      unfold headsAfter at hy
      by_cases hxz : same x z = true
      · rw [if_pos hxz] at hy
        exact ih (hsorted.sublist ((List.sublist_cons_self z rest).cons_cons x)) y hy
      · rw [if_neg hxz] at hy
        have hkeys : key x ≠ key z := fun h => hxz ((hsame x z).mpr h)
        rcases List.mem_cons.mp hy with hyz | hyrest
        · rw [hyz]
          exact Ne.symm hkeys
        · -- `z` stands between `x` and `y`, so a `y` of the kind of `x` would make `z` one too.
          intro hyx
          have hyIn : y ∈ rest := (headsAfter_sublist same z rest).subset hyrest
          have hRxz : R x z := hx.left z (by simp)
          have hRzy : R z y := (List.pairwise_cons.mp hx.right).left y hyIn
          exact hkeys (htogether x z y hRxz hRzy hyx.symm).symm

theorem nodup_key_headsAfter (hsame : Tells same key) (htogether : KeepsTogether R key)
    {x : α} {xs : List α} (hsorted : (x :: xs).Pairwise R) :
    ((headsAfter same x xs).map key).Nodup := by
  induction xs generalizing x with
  | nil => exact List.nodup_nil
  | cons z rest ih =>
      have hx := List.pairwise_cons.mp hsorted
      unfold headsAfter
      by_cases hxz : same x z = true
      · rw [if_pos hxz]
        exact ih (hsorted.sublist ((List.sublist_cons_self z rest).cons_cons x))
      · rw [if_neg hxz, List.map_cons, List.nodup_cons]
        constructor
        · intro hmem
          rcases List.mem_map.mp hmem with ⟨y, hy, hyz⟩
          exact key_ne_of_mem_headsAfter hsame htogether hx.right y hy hyz
        · exact ih hx.right

theorem nodup_key_heads (hsame : Tells same key) (htogether : KeepsTogether R key)
    {xs : List α} (hsorted : xs.Pairwise R) :
    ((heads same xs).map key).Nodup := by
  cases xs with
  | nil => exact List.nodup_nil
  | cons x rest =>
      rw [heads, List.map_cons, List.nodup_cons]
      constructor
      · intro hmem
        rcases List.mem_map.mp hmem with ⟨y, hy, hyx⟩
        exact key_ne_of_mem_headsAfter hsame htogether hsorted y hy hyx
      · exact nodup_key_headsAfter hsame htogether hsorted

theorem exists_headsAfter_of_mem (hsame : Tells same key) {x : α} {xs : List α}
    (hsorted : (x :: xs).Pairwise R) :
    forall w, w ∈ xs ->
      key w = key x ∨
        exists y, y ∈ headsAfter same x xs ∧ key y = key w ∧ (y = w ∨ R y w) := by
  induction xs generalizing x with
  | nil =>
      intro w hw
      cases hw
  | cons z rest ih =>
      have hx := List.pairwise_cons.mp hsorted
      intro w hw
      unfold headsAfter
      by_cases hxz : same x z = true
      · rw [if_pos hxz]
        rcases List.mem_cons.mp hw with hwz | hwrest
        · left
          rw [hwz]
          exact ((hsame x z).mp hxz).symm
        · exact ih (hsorted.sublist ((List.sublist_cons_self z rest).cons_cons x)) w hwrest
      · rw [if_neg hxz]
        right
        rcases List.mem_cons.mp hw with hwz | hwrest
        · exact ⟨z, by simp, by rw [hwz], Or.inl hwz.symm⟩
        · rcases ih hx.right w hwrest with hkey | ⟨y, hy, hkey, hfirst⟩
          · exact ⟨z, by simp, hkey.symm,
              Or.inr ((List.pairwise_cons.mp hx.right).left w hwrest)⟩
          · exact ⟨y, List.mem_cons_of_mem z hy, hkey, hfirst⟩

theorem exists_head_of_mem (hsame : Tells same key) {xs : List α} (hsorted : xs.Pairwise R)
    {w : α} (hw : w ∈ xs) :
    exists y, y ∈ heads same xs ∧ key y = key w ∧ (y = w ∨ R y w) := by
  cases xs with
  | nil => cases hw
  | cons x rest =>
      have hx := List.pairwise_cons.mp hsorted
      rcases List.mem_cons.mp hw with hwx | hwrest
      · exact ⟨x, by simp [heads], by rw [hwx], Or.inl hwx.symm⟩
      · rcases exists_headsAfter_of_mem hsame hsorted w hwrest with hkey | ⟨y, hy, hkey, hfirst⟩
        · exact ⟨x, by simp [heads], hkey.symm, Or.inr (hx.left w hwrest)⟩
        · exact ⟨y, by simp [heads, hy], hkey, hfirst⟩

theorem eq_of_mem_iff_of_pairwise (hasymm : forall a b, R a b -> ¬ R b a) {xs ys : List α}
    (hxs : xs.Pairwise R) (hys : ys.Pairwise R) (hmem : forall a, a ∈ xs <-> a ∈ ys) :
    xs = ys := by
  have hne : forall {a b}, R a b -> a ≠ b := by
    intro a b hab heq
    rw [heq] at hab
    exact hasymm b b hab hab
  have hperm : xs.Perm ys :=
    (List.perm_ext_iff_of_nodup (hxs.imp hne) (hys.imp hne)).mpr (fun {a} => hmem a)
  refine hperm.eq_of_pairwise ?_ hxs hys
  intro a b _ _ hab hba
  exact absurd hba (hasymm a b hab)

theorem filter_eq_singleton [DecidableEq α] {p : α -> Bool} {xs : List α}
    (hnodup : (xs.map key).Nodup) {x : α} (hx : x ∈ xs)
    (hp : forall y, p y = true <-> key y = key x) : xs.filter p = [x] := by
  have hsame : xs.filter p = xs.filter (fun y => decide (y = x)) := by
    apply List.filter_congr
    intro y hy
    rw [Bool.eq_iff_iff, hp, decide_eq_true_iff]
    constructor
    · intro hkey
      exact List.inj_on_of_nodup_map hnodup hy hx hkey
    · intro heq
      rw [heq]
  rw [hsame, List.filter_eq, List.count_eq_one_of_mem (List.Nodup.of_map _ hnodup) hx]
  rfl

/-!
## Whole runs
-/

/-- The runs of a list, each as its first element and the elements that follow it. -/
def groups (same : α -> α -> Bool) : List α -> List (α × List α)
  | [] => []
  | x :: rest =>
      match groups same rest with
      | [] => [(x, [])]
      | (y, ys) :: more =>
          if same x y then (x, y :: ys) :: more else (x, []) :: (y, ys) :: more

def members (group : α × List α) : List α :=
  group.1 :: group.2

theorem flatMap_groups (same : α -> α -> Bool) (xs : List α) :
    (groups same xs).flatMap members = xs := by
  induction xs with
  | nil => rfl
  | cons x rest ih =>
      unfold groups
      split
      · next hnil =>
          rw [hnil] at ih
          rw [<- ih]
          rfl
      · next y ys more hcons =>
          rw [hcons] at ih
          split
          · rw [<- ih]
            rfl
          · rw [<- ih]
            rfl

theorem key_eq_of_mem_groups (hsame : Tells same key) {xs : List α} {group : α × List α}
    (hgroup : group ∈ groups same xs) : forall a, a ∈ members group -> key a = key group.1 := by
  induction xs generalizing group with
  | nil => cases hgroup
  | cons x rest ih =>
      have halone : forall a, a ∈ members (x, []) -> key a = key x := by
        intro a ha
        rw [List.mem_singleton.mp ha]
      unfold groups at hgroup
      split at hgroup
      · rw [List.mem_singleton.mp hgroup]
        exact halone
      · next y ys more hcons =>
          rw [hcons] at ih
          split at hgroup
          · next hxy =>
              rcases List.mem_cons.mp hgroup with hfirst | hmore
              · rw [hfirst]
                intro a ha
                rcases List.mem_cons.mp ha with hax | hrest
                · rw [hax]
                · have hin : (y, ys) ∈ (y, ys) :: more := List.mem_cons_self
                  have hay : key a = key y := ih hin a hrest
                  rw [hay]
                  exact ((hsame x y).mp hxy).symm
              · exact ih (List.mem_cons_of_mem _ hmore)
          · rcases List.mem_cons.mp hgroup with hfirst | hmore
            · rw [hfirst]
              exact halone
            · exact ih hmore

theorem headsAfter_congr (hsame : Tells same key) {x y : α} (hxy : key x = key y) (xs : List α) :
    headsAfter same x xs = headsAfter same y xs := by
  induction xs with
  | nil => rfl
  | cons z rest ih =>
      have hz : same x z = same y z := by
        rw [Bool.eq_iff_iff, hsame, hsame, hxy]
      unfold headsAfter
      rw [hz, ih]

theorem map_fst_groups (hsame : Tells same key) (xs : List α) :
    (groups same xs).map Prod.fst = heads same xs := by
  induction xs with
  | nil => rfl
  | cons x rest ih =>
      unfold groups
      split
      · next hnil =>
          rw [hnil] at ih
          cases rest with
          | nil => rfl
          | cons z more => cases ih
      · next y ys more hcons =>
          rw [hcons] at ih
          cases rest with
          | nil => cases ih
          | cons z tail =>
              rw [List.map_cons, heads, List.cons.injEq] at ih
              rcases ih with ⟨hfirst, hmore⟩
              have hyz : y = z := hfirst
              rw [heads, headsAfter, <- hyz]
              rw [<- hyz] at hmore
              split
              · next hxy =>
                  rw [List.map_cons, hmore, headsAfter_congr hsame ((hsame x y).mp hxy)]
              · rw [List.map_cons, List.map_cons, hmore]

theorem pairwise_key_ne_groups (hsame : Tells same key) (htogether : KeepsTogether R key)
    {xs : List α} (hsorted : xs.Pairwise R) :
    (groups same xs).Pairwise (fun g h =>
      forall a b, a ∈ members g -> b ∈ members h -> key a ≠ key b) := by
  have hheads := nodup_key_heads hsame htogether hsorted
  rw [<- map_fst_groups hsame, List.map_map, List.Nodup, List.pairwise_map] at hheads
  refine hheads.imp_of_mem ?_
  intro g h hg hh hne a b ha hb heq
  apply hne
  show key g.1 = key h.1
  rw [<- key_eq_of_mem_groups hsame hg a ha, heq, key_eq_of_mem_groups hsame hh b hb]

theorem rel_of_mem_groups {xs : List α} (hsorted : xs.Pairwise R) {group : α × List α}
    (hgroup : group ∈ groups same xs) : forall a, a ∈ group.2 -> R group.1 a := by
  rw [<- flatMap_groups same xs, List.pairwise_flatMap] at hsorted
  exact (List.pairwise_cons.mp (hsorted.left group hgroup)).left

/-!
## Integers in ascending order
-/

private theorem tells_eq : Tells (fun a b : Int => decide (a = b)) id := by
  intro a b
  exact decide_eq_true_iff

private theorem keepsTogether_le :
    KeepsTogether (fun a b : Int => (compare a b).isLE = true) id := by
  intro a b c hab hbc hac
  simp only [Int.isLE_compare, id] at *
  omega

@[simp] theorem mem_ascending {n : Int} {xs : List Int} : n ∈ ascending xs <-> n ∈ xs := by
  unfold ascending
  constructor
  · intro h
    exact Sorting.mem_sortBy.mp ((heads_sublist _ _).subset h)
  · intro h
    rcases exists_head_of_mem tells_eq (Sorting.ascending_sortBy compare xs)
        (Sorting.mem_sortBy.mpr h) with ⟨m, hm, hkey, _⟩
    rw [<- show m = n from hkey]
    exact hm

theorem pairwise_lt_ascending (xs : List Int) : (ascending xs).Pairwise (fun a b => a < b) := by
  have hsorted := Sorting.ascending_sortBy compare xs
  have hle := hsorted.sublist (heads_sublist (fun a b => decide (a = b)) _)
  have hne := nodup_key_heads tells_eq keepsTogether_le hsorted
  rw [List.map_id] at hne
  refine (List.pairwise_and_iff.mpr ⟨hle, hne⟩).imp ?_
  intro a b hab
  have hab_le : a ≤ b := Int.isLE_compare.mp hab.left
  have hab_ne : a ≠ b := hab.right
  omega

end Runs
end FeatureModel
