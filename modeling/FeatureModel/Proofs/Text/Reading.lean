import FeatureModel.Text.Decimal

/-!
# Reading texts back

A text is read from its front: a part that is known beforehand is passed over, and a
field ends where a mark stands that is not in it.  Lines end at newlines, the numbers
of a list at commas.  What was written so is read back.
-/

namespace FeatureModel
namespace Text

def after? : List Char -> List Char -> Option (List Char)
  | [], text => some text
  | _ :: _, [] => none
  | c :: part, d :: text => if c = d then after? part text else none

/-- What stands in front of the first mark in a text, and what follows it. -/
def cutAt? (mark : Char) : List Char -> Option (List Char × List Char)
  | [] => none
  | c :: text =>
      if c = mark then
        some ([], text)
      else
        (cutAt? mark text).map (fun parts => (c :: parts.1, parts.2))

/-- The field between a known part and a mark, and what follows the mark. -/
def field? (part : String) (mark : Char) (text : List Char) : Option (List Char × List Char) := do
  let rest <- after? part.toList text
  cutAt? mark rest

def named? {α : Type} (all : List α) (name : α -> String) (text : List Char) : Option α :=
  all.find? (fun a => decide ((name a).toList = text))

/-- The lines of a text; the last one is what follows the last newline. -/
def lines (s : String) : List String :=
  (s.toList.splitOn '\n').map String.ofList

def readNat (text : List Char) : Nat :=
  Nat.ofDigitChars 10 text 0

def readInt (text : List Char) : Int :=
  if text.head? = some '-' then -(readNat text.tail : Int) else (readNat text : Int)

def readInts (text : List Char) : List Int :=
  if text = [] then [] else (text.splitOn ',').map readInt

def IsWord (s : String) : Prop :=
  forall c, c ∈ s.toList -> c.isLower = true

instance instDecidablePredIsWord : DecidablePred IsWord :=
  fun s => decidable_of_iff (s.toList.all Char.isLower = true) List.all_eq_true

theorem IsWord.not_mem {s : String} (h : IsWord s) {c : Char} (hc : c.isLower = false) :
    c ∉ s.toList := by
  intro hmem
  rw [h c hmem] at hc
  cases hc

/-!
## Parts and fields
-/

@[simp] theorem after?_append (part rest : List Char) : after? part (part ++ rest) = some rest := by
  induction part with
  | nil => rfl
  | cons c part ih => rw [List.cons_append, after?, if_pos rfl, ih]

theorem cutAt?_append {mark : Char} {field : List Char} (h : mark ∉ field) (rest : List Char) :
    cutAt? mark (field ++ mark :: rest) = some (field, rest) := by
  induction field with
  | nil => rw [List.nil_append, cutAt?, if_pos rfl]
  | cons c field ih =>
      rw [List.mem_cons, not_or] at h
      rw [List.cons_append, cutAt?, if_neg (Ne.symm h.left), ih h.right]
      rfl

/-- A field is read back when its mark is not in it. -/
theorem field?_append (part : String) {mark : Char} {field : List Char} (h : mark ∉ field)
    (rest : List Char) :
    field? part mark (part.toList ++ (field ++ mark :: rest)) = some (field, rest) := by
  unfold field?
  rw [after?_append]
  exact cutAt?_append h rest

/-!
## Lines
-/

theorem lines_append {line : String} (h : '\n' ∉ line.toList) (rest : String) :
    lines (line ++ "\n" ++ rest) = line :: lines rest := by
  have hlist : (line ++ "\n" ++ rest).toList = line.toList ++ '\n' :: rest.toList := by simp
  unfold lines
  rw [hlist, List.splitOn_append_cons_self_of_not_mem h, List.map_cons, String.ofList_toList]

theorem lines_join {texts : List String} (h : forall s, s ∈ texts -> '\n' ∉ s.toList) :
    lines (String.join (texts.map (fun s => s ++ "\n"))) = texts ++ [""] := by
  induction texts with
  | nil => rfl
  | cons s rest ih =>
      rw [List.forall_mem_cons] at h
      rw [List.map_cons, String.join_cons, lines_append h.left, ih h.right, List.cons_append]

/-!
## Numbers
-/

theorem isDigit_or_eq_minus_of_mem_decimal {n : Int} {c : Char} (h : c ∈ (decimal n).toList) :
    c.isDigit = true ∨ c = '-' := by
  cases n with
  | ofNat n => exact Or.inl (isDigit_of_mem_natDecimal h)
  | negSucc n =>
      unfold decimal at h
      rw [String.toList_append] at h
      rcases List.mem_append.mp h with hminus | hdigits
      · exact Or.inr (by simpa using hminus)
      · exact Or.inl (isDigit_of_mem_natDecimal hdigits)

theorem not_mem_decimal {c : Char} (hdigit : c.isDigit = false) (hminus : c ≠ '-') (n : Int) :
    c ∉ (decimal n).toList := by
  intro h
  rcases isDigit_or_eq_minus_of_mem_decimal h with hd | hm
  · rw [hdigit] at hd
    cases hd
  · exact hminus hm

theorem not_mem_natDecimal {c : Char} (hdigit : c.isDigit = false) (n : Nat) :
    c ∉ (natDecimal n).toList := by
  intro h
  rw [isDigit_of_mem_natDecimal h] at hdigit
  cases hdigit

theorem toList_decimal_ne_nil (n : Int) : (decimal n).toList ≠ [] := by
  cases n with
  | ofNat n =>
      show (String.ofList (Nat.toDigits 10 n)).toList ≠ []
      rw [String.toList_ofList]
      exact Nat.toDigits_ne_nil
  | negSucc n => simp [decimal]

@[simp] theorem readNat_natDecimal (n : Nat) : readNat (natDecimal n).toList = n := by
  unfold readNat natDecimal
  rw [String.toList_ofList]
  exact Nat.ofDigitChars_ten_toDigits

@[simp] theorem readInt_decimal (n : Int) : readInt (decimal n).toList = n := by
  cases n with
  | ofNat n =>
      have hplain : (natDecimal n).toList.head? ≠ some '-' := by
        intro h
        exact not_mem_natDecimal (by decide) n (List.mem_of_head? h)
      show readInt (natDecimal n).toList = _
      rw [readInt, if_neg hplain, readNat_natDecimal]
      rfl
  | negSucc n =>
      have hlist : (decimal (.negSucc n)).toList = '-' :: (natDecimal (n + 1)).toList := by
        simp [decimal]
      rw [hlist, readInt, List.head?_cons, if_pos rfl, List.tail_cons, readNat_natDecimal]
      rfl

theorem mem_or_exists_of_mem_intercalate {separator : String} {texts : List String} {c : Char}
    (h : c ∈ (separator.intercalate texts).toList) :
    c ∈ separator.toList ∨ exists s, s ∈ texts ∧ c ∈ s.toList := by
  induction texts with
  | nil => simp at h
  | cons s rest ih =>
      by_cases hrest : rest = []
      · rw [hrest, String.intercalate_singleton] at h
        exact Or.inr ⟨s, by simp, h⟩
      · rw [String.intercalate_cons_of_ne_nil hrest, String.toList_append, String.toList_append,
          List.mem_append, List.mem_append] at h
        rcases h with (hs | hseparator) | hlater
        · exact Or.inr ⟨s, by simp, hs⟩
        · exact Or.inl hseparator
        · rcases ih hlater with hseparator | ⟨t, ht, hc⟩
          · exact Or.inl hseparator
          · exact Or.inr ⟨t, List.mem_cons_of_mem s ht, hc⟩

theorem not_mem_intercalate_decimal {c : Char} (hdigit : c.isDigit = false) (hminus : c ≠ '-')
    (hcomma : c ≠ ',') (ns : List Int) : c ∉ (",".intercalate (ns.map decimal)).toList := by
  intro h
  rcases mem_or_exists_of_mem_intercalate h with hseparator | ⟨s, hs, hc⟩
  · exact hcomma (by simpa using hseparator)
  · rcases List.mem_map.mp hs with ⟨n, _, heq⟩
    rw [<- heq] at hc
    exact not_mem_decimal hdigit hminus n hc

theorem readInts_intercalate (ns : List Int) :
    readInts (",".intercalate (ns.map decimal)).toList = ns := by
  have hlist : (",".intercalate (ns.map decimal)).toList =
      [','].intercalate (ns.map (fun n => (decimal n).toList)) := by
    rw [String.toList_intercalate, List.map_map]
    rfl
  unfold readInts
  rw [hlist]
  by_cases hns : ns = []
  · rw [hns]
    rfl
  · have hsplit : ([','].intercalate (ns.map (fun n => (decimal n).toList))).splitOn ',' =
        ns.map (fun n => (decimal n).toList) := by
      apply List.splitOn_intercalate
      · intro text htext
        rcases List.mem_map.mp htext with ⟨n, _, heq⟩
        rw [<- heq]
        exact not_mem_decimal (by decide) (by decide) n
      · exact mt List.map_eq_nil_iff.mp hns
    have hne : [','].intercalate (ns.map (fun n => (decimal n).toList)) ≠ [] := by
      intro hnil
      rw [hnil] at hsplit
      -- Splitting nothing gives one empty part, and no numeral is empty.
      have hempty : [] ∈ ns.map (fun n => (decimal n).toList) := by
        rw [<- hsplit]
        exact List.mem_singleton.mpr rfl
      rcases List.mem_map.mp hempty with ⟨n, _, heq⟩
      exact toList_decimal_ne_nil n heq
    rw [if_neg hne, hsplit, List.map_map]
    have hread : (readInt ∘ fun n => (decimal n).toList) = id := funext readInt_decimal
    rw [hread, List.map_id]

end Text
end FeatureModel
