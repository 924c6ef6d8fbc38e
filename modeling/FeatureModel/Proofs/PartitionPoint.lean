import FeatureModel.PartitionPoint

/-!
# Binary search finds stretches

Where the front of an array passes a test and the rest does not, binary search finds
the length of the front.  So two searches in a sorted array cut out the elements of
one key.
-/

namespace FeatureModel

variable {α : Type}

section Split

variable {test : α -> Bool} {xs : Array α} {front rest : List α}

theorem any_getElem?_iff (hxs : xs.toList = front ++ rest)
    (hfront : forall x, x ∈ front -> test x = true)
    (hrest : forall x, x ∈ rest -> test x = false) {i : Nat} (hi : i < xs.size) :
    (xs[i]?).any test = true <-> i < front.length := by
  have hlength : front.length + rest.length = xs.size := by
    rw [<- List.length_append, <- hxs, Array.length_toList]
  rw [<- Array.getElem?_toList, hxs]
  by_cases hinside : i < front.length
  · have hget : (front ++ rest)[i]? = some front[i] := by
      rw [List.getElem?_append_left hinside, List.getElem?_eq_getElem hinside]
    simp only [hget, Option.any_some, hfront _ (List.getElem_mem hinside), hinside]
  · have hafter : i - front.length < rest.length := by omega
    have hget : (front ++ rest)[i]? = some rest[i - front.length] := by
      rw [List.getElem?_append_right (Nat.le_of_not_lt hinside), List.getElem?_eq_getElem hafter]
    simp only [hget, Option.any_some, hrest _ (List.getElem_mem hafter), hinside,
      Bool.false_eq_true]

theorem partitionPoint_eq_length (hxs : xs.toList = front ++ rest)
    (hfront : forall x, x ∈ front -> test x = true)
    (hrest : forall x, x ∈ rest -> test x = false) {lo hi : Nat} (hlo : lo ≤ front.length)
    (hhi : front.length ≤ hi) (hsize : hi ≤ xs.size) :
    partitionPoint test xs lo hi = front.length := by
  -- The length of the front stays between the ends of the stretch that is searched.
  fun_induction partitionPoint test xs lo hi with
  | case1 lo hi hlt middle htest ih =>
      have hmiddle : middle = lo + (hi - lo) / 2 := rfl
      have hinside := (any_getElem?_iff hxs hfront hrest (by omega)).mp htest
      exact ih hinside hhi hsize
  | case2 lo hi hlt middle htest ih =>
      have hmiddle : middle = lo + (hi - lo) / 2 := rfl
      have hafter := mt (any_getElem?_iff hxs hfront hrest (by omega)).mpr htest
      exact ih hlo (Nat.le_of_not_lt hafter) (by omega)
  | case3 lo hi hge => omega

end Split

/-!
## Sorted lists
-/

theorem eq_filter_append_filter_not {test : α -> Bool} {xs : List α}
    (hsorted : xs.Pairwise (fun x y => test y = true -> test x = true)) :
    xs = xs.filter test ++ xs.filter (fun x => !test x) := by
  induction xs with
  | nil => rfl
  | cons x rest ih =>
      have hx := List.pairwise_cons.mp hsorted
      have hrest := ih hx.right
      cases htest : test x with
      | true =>
          simp only [List.filter_cons, htest, if_true, Bool.not_true, Bool.false_eq_true, if_false,
            List.cons_append]
          rw [<- hrest]
      | false =>
          have hnone : rest.filter test = [] := by
            rw [List.filter_eq_nil_iff]
            intro y hy hpass
            rw [hx.left y hy hpass] at htest
            cases htest
          rw [hnone, List.nil_append] at hrest
          simp only [List.filter_cons, htest, hnone, Bool.false_eq_true, if_false, Bool.not_false,
            if_true, List.nil_append]
          rw [<- hrest]

section Sorted

variable {key : α -> Int} {k : Int}

theorem filter_le_eq_append {xs : List α} (hsorted : xs.Pairwise (fun x y => key x ≤ key y)) :
    xs.filter (fun x => decide (key x ≤ k)) =
      xs.filter (fun x => decide (key x < k)) ++ xs.filter (fun x => decide (key x = k)) := by
  have hmonotone : (xs.filter (fun x => decide (key x ≤ k))).Pairwise
      (fun x y => decide (key y < k) = true -> decide (key x < k) = true) := by
    refine (hsorted.filter _).imp ?_
    intro x y hxy
    simp only [decide_eq_true_eq]
    omega
  rw [eq_filter_append_filter_not hmonotone, List.filter_filter, List.filter_filter]
  congr 1
  · apply List.filter_congr
    intro x _
    rw [<- Bool.decide_and, decide_eq_decide]
    omega
  · apply List.filter_congr
    intro x _
    rw [<- decide_not, <- Bool.decide_and, decide_eq_decide]
    omega

theorem extract_partitionPoint_of_append {xs : Array α} {lower equal higher : List α}
    (hxs : xs.toList = lower ++ (equal ++ higher)) (hlower : forall x, x ∈ lower -> key x < k)
    (hequal : forall x, x ∈ equal -> key x = k) (hhigher : forall x, x ∈ higher -> k < key x) :
    let first := partitionPoint (fun x => decide (key x < k)) xs 0 xs.size
    let last := partitionPoint (fun x => decide (key x ≤ k)) xs first xs.size
    (xs.extract first last).toList = equal := by
  intro first last
  have hsize : lower.length + (equal.length + higher.length) = xs.size := by
    rw [<- List.length_append, <- List.length_append, <- hxs, Array.length_toList]
  have hfirst : first = lower.length := by
    apply partitionPoint_eq_length hxs
    · intro x hx
      exact decide_eq_true (hlower x hx)
    · intro x hx
      rcases List.mem_append.mp hx with hx | hx
      · have hkey := hequal x hx
        exact decide_eq_false (by omega)
      · have hkey := hhigher x hx
        exact decide_eq_false (by omega)
    · exact Nat.zero_le _
    · omega
    · exact Nat.le_refl _
  have hlast : last = (lower ++ equal).length := by
    apply partitionPoint_eq_length (hxs.trans (List.append_assoc lower equal higher).symm)
    · intro x hx
      rcases List.mem_append.mp hx with hx | hx
      · exact decide_eq_true (Int.le_of_lt (hlower x hx))
      · exact decide_eq_true (Int.le_of_eq (hequal x hx))
    · intro x hx
      exact decide_eq_false (Int.not_le.mpr (hhigher x hx))
    · rw [hfirst, List.length_append]
      exact Nat.le_add_right _ _
    · rw [List.length_append]
      omega
    · exact Nat.le_refl _
  rw [hfirst, hlast, Array.toList_extract, hxs, List.extract_eq_take_drop, List.drop_left,
    List.length_append, Nat.add_sub_cancel_left, List.take_left]

/-- In an array that is sorted by a key, two searches cut out the elements of one key. -/
theorem extract_partitionPoint_eq_filter {xs : Array α}
    (hsorted : xs.toList.Pairwise (fun x y => key x ≤ key y)) :
    let first := partitionPoint (fun x => decide (key x < k)) xs 0 xs.size
    let last := partitionPoint (fun x => decide (key x ≤ k)) xs first xs.size
    (xs.extract first last).toList = xs.toList.filter (fun x => decide (key x = k)) := by
  have hmonotone : xs.toList.Pairwise
      (fun x y => decide (key y ≤ k) = true -> decide (key x ≤ k) = true) := by
    refine hsorted.imp ?_
    intro x y hxy
    simp only [decide_eq_true_eq]
    omega
  have hxs := eq_filter_append_filter_not hmonotone
  rw [filter_le_eq_append hsorted, List.append_assoc] at hxs
  apply extract_partitionPoint_of_append hxs
  · intro x hx
    exact of_decide_eq_true (List.mem_filter.mp hx).right
  · intro x hx
    exact of_decide_eq_true (List.mem_filter.mp hx).right
  · intro x hx
    have hkey := (List.mem_filter.mp hx).right
    rw [<- decide_not] at hkey
    exact Int.not_le.mp (of_decide_eq_true hkey)

end Sorted

end FeatureModel
