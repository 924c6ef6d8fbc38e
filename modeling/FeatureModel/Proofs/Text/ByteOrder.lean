/-!
# Texts in byte order

Texts are compared character by character.  That is the order of their bytes:
the encodings of two characters differ before either ends, and the greater
character has the greater byte there.
-/

namespace FeatureModel
namespace Text

def bytes (s : String) : List UInt8 :=
  s.toList.flatMap String.utf8EncodeChar

theorem toByteArray_bytes (s : String) : (bytes s).toByteArray = s.toUTF8 :=
  String.utf8Encode_toList

theorem toNat_lt_of_char (c : Char) : c.toNat < 1114112 := by
  rcases c.valid with hlow | hhigh
  · have hval : c.toNat < 55296 := hlow
    omega
  · exact hhigh.right

theorem ofNat_cons_lt_iff {m n : Nat} (hm : m < 256) (hn : n < 256) (u v : List UInt8) :
    UInt8.ofNat m :: u < UInt8.ofNat n :: v <-> m < n ∨ (m = n ∧ u < v) := by
  rw [List.cons_lt_cons_iff, UInt8.lt_iff_toNat_lt, <- UInt8.toNat_inj]
  rw [UInt8.toNat_ofNat_of_lt' (by simpa using hm), UInt8.toNat_ofNat_of_lt' (by simpa using hn)]

/-- A smaller character decides the order, whatever bytes follow. -/
theorem encodeChar_append_lt {c d : Char} (h : c < d) (u v : List UInt8) :
    String.utf8EncodeChar c ++ u < String.utf8EncodeChar d ++ v := by
  have hlt : c.toNat < d.toNat := h
  have hd : d.toNat < 1114112 := toNat_lt_of_char d
  have h12 : forall k : Nat, k / 4096 = k / 64 / 64 := by omega
  have h18 : forall k : Nat, k / 262144 = k / 64 / 64 / 64 := by omega
  simp only [String.utf8EncodeChar, Char.toNat_val, h12, h18]
  generalize c.toNat = m at *
  generalize d.toNat = n at *
  -- One case for each pair of lengths of the two encodings.
  repeat' split
  all_goals
    simp (disch := omega) only [List.cons_append, List.nil_append, ofNat_cons_lt_iff]
    omega

theorem bytes_lt_of_lt {s t : String} (h : s < t) : bytes s < bytes t := by
  have hlist : s.toList < t.toList := h
  unfold bytes
  generalize s.toList = cs at hlist
  generalize t.toList = ds at hlist
  induction hlist with
  | @nil d ds =>
      rw [List.flatMap_nil, List.flatMap_cons]
      cases hd : String.utf8EncodeChar d with
      | nil => exact absurd hd String.utf8EncodeChar_ne_nil
      | cons b rest => exact List.nil_lt_cons b _
  | rel hcd => exact encodeChar_append_lt hcd _ _
  | cons _ ih =>
      rw [List.flatMap_cons, List.flatMap_cons]
      exact List.append_left_lt ih

theorem bytes_lt_iff {s t : String} : bytes s < bytes t <-> s < t := by
  constructor
  · intro h
    rcases Std.lt_trichotomy s t with hst | hst | hts
    · exact hst
    · rw [hst] at h
      exact absurd h (List.lt_irrefl (bytes t))
    · exact absurd (bytes_lt_of_lt hts) (List.lt_asymm h)
  · exact bytes_lt_of_lt

end Text
end FeatureModel
