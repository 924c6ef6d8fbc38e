/-!
# Terminated texts

Messages of failures are terminated texts: they end before their first NUL
character.  No NUL is left in a terminated text, and cutting it again changes
nothing.
-/

namespace FeatureModel
namespace Text

/-- The part of a text before its first NUL character, or all of it if there is none. -/
def untilNul (s : String) : String :=
  String.ofList (s.toList.takeWhile (fun c => c != '\x00'))

@[simp] theorem toList_untilNul (s : String) :
    (untilNul s).toList = s.toList.takeWhile (fun c => c != '\x00') := by
  simp [untilNul]

theorem ne_nul_of_mem_untilNul {s : String} {c : Char} (h : c ∈ (untilNul s).toList) :
    c ≠ '\x00' := by
  rw [toList_untilNul] at h
  have hall := List.all_eq_true.mp
    (List.all_takeWhile (p := fun c => c != '\x00') (l := s.toList)) c h
  simpa using hall

theorem untilNul_append {s : String} (t : String)
    (h : forall c, c ∈ s.toList -> c ≠ '\x00') :
    untilNul (s ++ t) = s ++ untilNul t := by
  apply String.toList_injective
  simp only [toList_untilNul, String.toList_append]
  apply List.takeWhile_append_of_pos
  intro c hc
  simpa using h c hc

theorem untilNul_eq_self {s : String} (h : forall c, c ∈ s.toList -> c ≠ '\x00') :
    untilNul s = s := by
  have happ := untilNul_append "" h
  have hempty : untilNul "" = "" := by
    apply String.toList_injective
    simp
  simpa [hempty] using happ

@[simp] theorem untilNul_untilNul (s : String) : untilNul (untilNul s) = untilNul s :=
  untilNul_eq_self (fun _ h => ne_nul_of_mem_untilNul h)

end Text
end FeatureModel
