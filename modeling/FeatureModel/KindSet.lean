import FeatureModel.RelationshipKind

/-!
# Sets of relationship kinds

The kinds that one feature declares toward another form a set, kept as a mask with a
bit for each kind.  A set is known by its members: `contains` decides every other
operation.
-/

namespace FeatureModel

def RelationshipKind.number : RelationshipKind -> UInt8
  | alternative => 0
  | incompatible => 1
  | complex => 2

def RelationshipKind.bit (k : RelationshipKind) : UInt8 :=
  1 <<< k.number

structure KindSet where
  bits : UInt8 := 0
  /-- Only the bits of kinds are set. -/
  bits_lt : bits < 8 := by decide
deriving DecidableEq, Repr

namespace KindSet

def empty : KindSet :=
  {}

instance instInhabited : Inhabited KindSet where
  default := empty

theorem or_lt {a b : UInt8} (ha : a < 8) (hb : b < 8) : a ||| b < 8 := by
  rw [UInt8.lt_iff_toNat_lt] at ha hb ⊢
  rw [UInt8.toNat_or]
  exact Nat.or_lt_two_pow (n := 3) ha hb

theorem bit_lt (k : RelationshipKind) : k.bit < 8 := by
  cases k <;> decide

def contains (s : KindSet) (k : RelationshipKind) : Bool :=
  s.bits &&& k.bit != 0

/-- Adds a kind, and tells whether it was new. -/
def insert (s : KindSet) (k : RelationshipKind) : Bool × KindSet :=
  if s.contains k then
    (false, s)
  else
    (true, { bits := s.bits ||| k.bit, bits_lt := or_lt s.bits_lt (bit_lt k) })

def union (s t : KindSet) : KindSet where
  bits := s.bits ||| t.bits
  bits_lt := or_lt s.bits_lt t.bits_lt

theorem toNat_and_pred_lt {bits : UInt8} (h : bits ≠ 0) :
    (bits &&& (bits - 1)).toNat < bits.toNat := by
  have hpos : 0 < bits.toNat := by
    refine Nat.pos_of_ne_zero ?_
    intro hzero
    exact h (UInt8.toNat_inj.mp hzero)
  have hpred : (bits - 1).toNat = bits.toNat - 1 :=
    UInt8.toNat_sub_of_le bits 1 (UInt8.le_iff_toNat_le.mpr hpos)
  have hle : (bits &&& (bits - 1)).toNat ≤ (bits - 1).toNat := by
    rw [UInt8.toNat_and]
    exact Nat.and_le_right
  omega

/-- The number of bits that are set in a mask; each step clears the lowest of them. -/
def countBits (bits : UInt8) : Nat :=
  if h : bits = 0 then 0 else countBits (bits &&& (bits - 1)) + 1
termination_by bits.toNat
decreasing_by exact toNat_and_pred_lt h

def size (s : KindSet) : Nat :=
  countBits s.bits

def isEmpty (s : KindSet) : Bool :=
  s.bits == 0

def toList (s : KindSet) : List RelationshipKind :=
  RelationshipKind.all.filter s.contains

@[simp] theorem contains_empty (k : RelationshipKind) : empty.contains k = false := by
  cases k <;> rfl

private theorem or_and (a b c : UInt8) : (a ||| b) &&& c = a &&& c ||| b &&& c :=
  UInt8.eq_of_toBitVec_eq BitVec.and_or_distrib_right

private theorem or_bne_zero (a b : UInt8) : (a ||| b != 0) = (a != 0 || b != 0) := by
  rw [Bool.eq_iff_iff]
  simp only [bne_iff_ne, Bool.or_eq_true, ne_eq, UInt8.or_eq_zero_iff]
  exact Decidable.not_and_iff_not_or_not

@[simp] theorem contains_union (s t : KindSet) (k : RelationshipKind) :
    (s.union t).contains k = (s.contains k || t.contains k) := by
  simp only [contains, union, or_and, or_bne_zero]

@[simp] theorem insert_fst (s : KindSet) (k : RelationshipKind) :
    (s.insert k).1 = !s.contains k := by
  cases hk : s.contains k <;> simp [insert, hk]

@[simp] theorem contains_insert_snd (s : KindSet) (j k : RelationshipKind) :
    (s.insert j).2.contains k = (decide (j = k) || s.contains k) := by
  cases hj : s.contains j with
  | true =>
      by_cases heq : j = k
      · simp [insert, hj, <- heq]
      · simp [insert, hj, heq]
  | false =>
      have hbit : (j.bit &&& k.bit != 0) = decide (j = k) := by
        cases j <;> cases k <;> decide
      have hinsert : (s.insert j).2.bits = s.bits ||| j.bit := by
        simp [insert, hj]
      rw [contains, hinsert, or_and, or_bne_zero, hbit, Bool.or_comm]
      rfl

@[simp] theorem mem_toList {s : KindSet} {k : RelationshipKind} :
    k ∈ s.toList <-> s.contains k = true := by
  simp [toList, RelationshipKind.mem_all]

theorem forall_mask {p : UInt8 -> Prop} (h : forall n : Fin 8, p (UInt8.ofNat n))
    (s : KindSet) : p s.bits := by
  have hbits := h ⟨s.bits.toNat, s.bits_lt⟩
  rw [UInt8.ofNat_toNat] at hbits
  exact hbits

theorem bits_eq (s : KindSet) :
    s.bits = (RelationshipKind.all.filter s.contains).foldl (fun bits k => bits ||| k.bit) 0 :=
  forall_mask
    (p := fun bits => bits =
      (RelationshipKind.all.filter (fun k => bits &&& k.bit != 0)).foldl
        (fun bits k => bits ||| k.bit) 0)
    (by decide) s

theorem ext_contains {s t : KindSet} (h : forall k, s.contains k = t.contains k) :
    s = t := by
  have hcontains : s.contains = t.contains := funext h
  have hbits : s.bits = t.bits := by
    rw [bits_eq s, bits_eq t, hcontains]
  cases s with
  | mk bits bits_lt =>
      cases t with
      | mk bits' bits_lt' =>
          cases hbits
          rfl

theorem isEmpty_iff {s : KindSet} :
    s.isEmpty = true <-> forall k, s.contains k = false := by
  constructor
  · intro hempty k
    have hbits : s.bits = 0 := eq_of_beq hempty
    simp [contains, hbits]
  · intro hnone
    have hs : s = empty := ext_contains (by simpa using hnone)
    rw [hs]
    rfl

/-- The loop over the mask counts the members. -/
theorem size_eq_length_toList (s : KindSet) : s.size = s.toList.length :=
  forall_mask
    (p := fun bits => countBits bits =
      (RelationshipKind.all.filter (fun k => bits &&& k.bit != 0)).length)
    (by decide +kernel) s

end KindSet
end FeatureModel
