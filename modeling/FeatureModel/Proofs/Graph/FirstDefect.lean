import FeatureModel.Proofs.Graph.Scan

/-!
# The first defect of a list of records

A place of a list of records is faulty for reasons that can be read off the
records alone.  Records without a faulty place have a graph; otherwise the error
is about the first faulty place.
-/

namespace FeatureModel

structure Fault where
  defect : StructuralDefect
  guids : List Guid
  message : String
deriving DecidableEq, Repr

def StructuralError.fault (e : StructuralError) : Fault where
  defect := e.defect
  guids := e.guids
  message := e.message

/-- Whether a link stands at a place of a list of records, in a record. -/
def LinkAt (records : List Record) (i number : Nat) (r : Record) (link : Link) : Prop :=
  records[i]? = some r ∧ r.links[number]? = some link

/-- The faulty places of a list of records, with what is to be told about them. -/
inductive FaultAt (records : List Record) (tolerate : Bool) : Spot -> Fault -> Prop where
  /-- An earlier record has the guid; the first one of the guid is named. -/
  | duplicateGuid {i j : Nat} {r first : Record}
      (hrecord : records[i]? = some r) (htolerate : tolerate = false)
      (hfirst : IsFirst records r.guid j first) (hearlier : j < i) :
      FaultAt records tolerate (.guid i)
        { defect := .duplicateGuid
          guids := [r.guid]
          message := Text.untilNul
            ("Features '" ++ first.name ++ "' and '" ++ r.name ++ "' share guid " ++
              Text.decimal r.guid) }
  | selfRelationship {i number : Nat} {r : Record} {link : Link}
      (hlink : LinkAt records i number r link) (hself : link.target = r.guid) :
      FaultAt records tolerate (.link i number)
        { defect := .selfRelationship
          guids := [r.guid]
          message := Text.untilNul
            ("Feature " ++ r.label ++ " declares a " ++ link.kind.name ++
              " relationship to itself") }
  /-- No record, earlier or later, has the target's guid. -/
  | danglingReference {i number : Nat} {r : Record} {link : Link}
      (hlink : LinkAt records i number r link) (hother : link.target ≠ r.guid)
      (hunknown : forall q, q ∈ records -> q.guid ≠ link.target) :
      FaultAt records tolerate (.link i number)
        { defect := .danglingReference
          guids := [r.guid, link.target]
          message := Text.untilNul
            ("Feature " ++ r.label ++ " declares a " ++ link.kind.name ++
              " relationship to unknown guid " ++ Text.decimal link.target) }
  /-- An earlier link of this record, or of an earlier one of its guid, says the same. -/
  | duplicateRelationshipKind {i number j m : Nat} {r q : Record} {link same : Link}
      (hlink : LinkAt records i number r link) (hother : link.target ≠ r.guid)
      (hknown : exists p, p ∈ records ∧ p.guid = link.target)
      (hearlier : (Spot.link j m).Before (.link i number)) (hsame : LinkAt records j m q same)
      (hguid : q.guid = r.guid) (htarget : same.target = link.target)
      (hkind : same.kind = link.kind) :
      FaultAt records tolerate (.link i number)
        { defect := .duplicateRelationshipKind
          guids := [r.guid, link.target]
          message := Text.untilNul
            ("Feature " ++ r.label ++ " declares more than one " ++ link.kind.name ++
              " relationship to guid " ++ Text.decimal link.target) }

/-!
## Faulty guids
-/

theorem isFirst_take_iff {records : List Record} {guid : Guid} {i j : Nat} {r : Record} :
    IsFirst (records.take i) guid j r <-> IsFirst records guid j r ∧ j < i := by
  constructor
  · intro h
    have hget := h.getElem?_eq
    rw [List.getElem?_take] at hget
    split at hget
    · next hji =>
        refine ⟨⟨hget, h.guid_eq, ?_⟩, hji⟩
        intro k q hk hq
        apply h.guid_ne k q hk
        rw [List.getElem?_take, if_pos (Nat.lt_trans hk hji)]
        exact hq
    · cases hget
  · intro h
    rcases h with ⟨hfirst, hji⟩
    refine ⟨?_, hfirst.guid_eq, ?_⟩
    · rw [List.getElem?_take, if_pos hji]
      exact hfirst.getElem?_eq
    · intro k q hk hq
      rw [List.getElem?_take, if_pos (Nat.lt_trans hk hji)] at hq
      exact hfirst.guid_ne k q hk hq

namespace Graph

theorem guidError?_eq_some_iff {records : List Record} {tolerate : Bool} {i : Nat} {r : Record}
    {e : StructuralError} :
    guidError? tolerate (entered (records.take i)) r = some e <->
      tolerate = false ∧ exists j first, IsFirst records r.guid j first ∧ j < i ∧
        e = .duplicateGuid r.guid first.name r.name := by
  unfold guidError? clash?
  cases tolerate with
  | true => simp
  | false =>
      simp only [Bool.false_eq_true, if_false, Option.map_eq_some_iff, true_and,
        (holds_entered (records.take i)).find?_eq_some_iff, isFirst_take_iff]
      constructor
      · intro h
        rcases h with ⟨f, ⟨j, first, hfirst, hf⟩, he⟩
        rw [hf] at he
        exact ⟨j, first, hfirst.left, hfirst.right, he.symm⟩
      · intro h
        rcases h with ⟨j, first, hfirst, hji, he⟩
        exact ⟨first.toFeature j [], ⟨j, first, ⟨hfirst, hji⟩, rfl⟩, he.symm⟩

/-!
## Faulty links
-/

theorem isDeclared_eq_false_iff {records : List Record} {guid : Guid} :
    isDeclared records guid = false <-> forall q, q ∈ records -> q.guid ≠ guid := by
  simp [isDeclared]

/-- What is noted when the scan comes to a link is what was declared before it. -/
theorem contains_notedKinds_iff {records : List Record} {i number : Nat} {r : Record}
    (hrecord : records[i]? = some r) (link : Link) :
    (notedKinds ((r.links.take number).foldl (noteLink r.guid) (entered (records.take i)).kinds)
        r.guid link.target).contains link.kind = true <->
      exists j m q, (Spot.link j m).Before (.link i number) ∧ LinkAt records j m q link ∧
        q.guid = r.guid := by
  rw [contains_foldl_noteLink]
  have hkinds := (holds_entered (records.take i)).contains_kinds r.guid link.target link.kind
  unfold kindsBetween at hkinds
  unfold notedKinds
  rw [hkinds]
  constructor
  · intro h
    rcases h with ⟨q, hq, hguid, hlink⟩ | ⟨_, hlink⟩
    · rcases List.mem_take_iff_getElem.mp hq with ⟨j, hj, hget⟩
      rcases List.mem_iff_getElem?.mp hlink with ⟨m, hm⟩
      have hji : j < i := (Nat.lt_min.mp hj).left
      exact ⟨j, m, q, Or.inl hji, ⟨List.getElem?_eq_some_iff.mpr ⟨_, hget⟩, hm⟩, hguid⟩
    · rcases List.mem_take_iff_getElem.mp hlink with ⟨m, hm, hget⟩
      have hmn : m < number := (Nat.lt_min.mp hm).left
      exact ⟨i, m, r, Or.inr ⟨rfl, hmn⟩,
        ⟨hrecord, List.getElem?_eq_some_iff.mpr ⟨_, hget⟩⟩, rfl⟩
  · intro h
    rcases h with ⟨j, m, q, hji | ⟨hji, hmn⟩, ⟨hq, hlink⟩, hguid⟩
    · left
      refine ⟨q, ?_, hguid, List.mem_of_getElem? hlink⟩
      apply List.mem_of_getElem? (i := j)
      rw [List.getElem?_take, if_pos hji]
      exact hq
    · right
      rw [hji, hrecord] at hq
      cases hq
      refine ⟨rfl, ?_⟩
      apply List.mem_of_getElem? (i := m)
      rw [List.getElem?_take, if_pos hmn]
      exact hlink

theorem linkError?_eq_some_iff {declared : Guid -> Bool} {source : Attributes}
    {kinds : Index (Guid × Guid) KindSet} {link : Link} {e : StructuralError} :
    linkError? declared source kinds link = some e <->
      (link.target = source.guid ∧ e = .selfRelationship source link.kind) ∨
        (link.target ≠ source.guid ∧ declared link.target = false ∧
          e = .danglingReference source link.kind link.target) ∨
        (link.target ≠ source.guid ∧ declared link.target = true ∧
          (notedKinds kinds source.guid link.target).contains link.kind = true ∧
          e = .duplicateRelationshipKind source link.kind link.target) := by
  unfold linkError?
  by_cases hself : link.target = source.guid
  · rw [if_pos hself, Option.some.injEq, eq_comm]
    simp [hself]
  · rw [if_neg hself]
    cases hdeclared : declared link.target with
    | false =>
        rw [if_pos rfl, Option.some.injEq, eq_comm]
        simp [hself]
    | true =>
        rw [if_neg (by decide)]
        by_cases hknown : (notedKinds kinds source.guid link.target).contains link.kind = true
        · rw [if_pos hknown, Option.some.injEq, eq_comm]
          simp [hself, hknown]
        · rw [if_neg hknown]
          simp [hself, hknown]

theorem isDeclared_eq_true_iff {records : List Record} {guid : Guid} :
    isDeclared records guid = true <-> exists q, q ∈ records ∧ q.guid = guid := by
  simp [isDeclared]

theorem errorAt?_link_eq_some_iff {records : List Record} {tolerate : Bool} {i number : Nat}
    {e : StructuralError} :
    errorAt? records tolerate (.link i number) = some e <->
      exists r link, LinkAt records i number r link ∧
        linkError? (isDeclared records) r.toAttributes
          ((r.links.take number).foldl (noteLink r.guid) (entered (records.take i)).kinds)
          link = some e := by
  rw [errorAt?_link, Option.bind_eq_some_iff]
  unfold linkErrorAt? CheckedFold.wrongAt? LinkAt
  constructor
  · intro h
    rcases h with ⟨r, hr, hlink⟩
    rcases Option.bind_eq_some_iff.mp hlink with ⟨link, hget, he⟩
    exact ⟨r, link, ⟨hr, hget⟩, he⟩
  · intro h
    rcases h with ⟨r, link, ⟨hr, hget⟩, he⟩
    exact ⟨r, hr, Option.bind_eq_some_iff.mpr ⟨link, hget, he⟩⟩

/-!
## Faults are what the scan finds
-/

theorem faultAt_of_errorAt? {records : List Record} {tolerate : Bool} {spot : Spot}
    {e : StructuralError} (h : errorAt? records tolerate spot = some e) :
    FaultAt records tolerate spot e.fault := by
  cases spot with
  | guid i =>
      rw [errorAt?_guid] at h
      rcases Option.bind_eq_some_iff.mp h with ⟨r, hr, he⟩
      rcases guidError?_eq_some_iff.mp he with ⟨htolerate, j, first, hfirst, hji, heq⟩
      rw [heq]
      exact FaultAt.duplicateGuid hr htolerate hfirst hji
  | link i number =>
      rcases errorAt?_link_eq_some_iff.mp h with ⟨r, link, hlink, he⟩
      rcases linkError?_eq_some_iff.mp he with
        ⟨hself, heq⟩ | ⟨hother, hunknown, heq⟩ | ⟨hother, hknown, hnoted, heq⟩
      · rw [heq]
        exact FaultAt.selfRelationship hlink hself
      · rw [heq]
        exact FaultAt.danglingReference hlink hother (isDeclared_eq_false_iff.mp hunknown)
      · rw [heq]
        rcases (contains_notedKinds_iff hlink.left link).mp hnoted with
          ⟨j, m, q, hearlier, hsame, hguid⟩
        exact FaultAt.duplicateRelationshipKind hlink hother (isDeclared_eq_true_iff.mp hknown)
          hearlier hsame hguid rfl rfl

theorem exists_errorAt?_of_faultAt {records : List Record} {tolerate : Bool} {spot : Spot}
    {fault : Fault} (h : FaultAt records tolerate spot fault) :
    exists e, errorAt? records tolerate spot = some e ∧ e.fault = fault := by
  cases h with
  | @duplicateGuid i j r first hrecord htolerate hfirst hearlier =>
      refine ⟨.duplicateGuid r.guid first.name r.name, ?_, rfl⟩
      rw [errorAt?_guid, hrecord]
      exact guidError?_eq_some_iff.mpr ⟨htolerate, j, first, hfirst, hearlier, rfl⟩
  | @selfRelationship i number r link hlink hself =>
      refine ⟨.selfRelationship r.toAttributes link.kind, ?_, rfl⟩
      exact errorAt?_link_eq_some_iff.mpr
        ⟨r, link, hlink, linkError?_eq_some_iff.mpr (Or.inl ⟨hself, rfl⟩)⟩
  | @danglingReference i number r link hlink hother hunknown =>
      refine ⟨.danglingReference r.toAttributes link.kind link.target, ?_, rfl⟩
      have hdeclared := isDeclared_eq_false_iff.mpr hunknown
      exact errorAt?_link_eq_some_iff.mpr
        ⟨r, link, hlink, linkError?_eq_some_iff.mpr (Or.inr (Or.inl ⟨hother, hdeclared, rfl⟩))⟩
  | @duplicateRelationshipKind i number j m r q link same hlink hother hknown hearlier hsame hguid
      htarget hkind =>
      refine ⟨.duplicateRelationshipKind r.toAttributes link.kind link.target, ?_, rfl⟩
      have hdeclared := isDeclared_eq_true_iff.mpr hknown
      have heq : same = link := by
        cases same
        cases link
        simp_all
      rw [heq] at hsame
      have hnoted := (contains_notedKinds_iff hlink.left link).mpr
        ⟨j, m, q, hearlier, hsame, hguid⟩
      exact errorAt?_link_eq_some_iff.mpr ⟨r, link, hlink,
        linkError?_eq_some_iff.mpr (Or.inr (Or.inr ⟨hother, hdeclared, hnoted, rfl⟩))⟩

theorem errorAt?_eq_none_iff_not_faultAt {records : List Record} {tolerate : Bool} {spot : Spot} :
    errorAt? records tolerate spot = none <->
      forall fault, ¬ FaultAt records tolerate spot fault := by
  constructor
  · intro hnone fault hfault
    rcases exists_errorAt?_of_faultAt hfault with ⟨e, he, _⟩
    rw [hnone] at he
    cases he
  · intro hclear
    cases he : errorAt? records tolerate spot with
    | none => rfl
    | some e => exact absurd (faultAt_of_errorAt? he) (hclear e.fault)

theorem build_isOk_iff {records : List Record} {tolerate : Bool} :
    (exists g, build records tolerate = .ok g) <->
      forall spot fault, ¬ FaultAt records tolerate spot fault := by
  constructor
  · intro h
    rcases h with ⟨g, hg⟩
    intro spot
    exact errorAt?_eq_none_iff_not_faultAt.mp ((build_eq_ok_iff.mp hg).left spot)
  · intro hclear
    exact ⟨ofRecords records, build_eq_ok_iff.mpr
      ⟨fun spot => errorAt?_eq_none_iff_not_faultAt.mpr (hclear spot), rfl⟩⟩

/-- Records have a graph exactly when no place of theirs is faulty; otherwise the error tells
about the first faulty place. -/
theorem build_tells_first_fault (records : List Record) (tolerate : Bool) :
    ((exists g, build records tolerate = .ok g) <->
        forall spot fault, ¬ FaultAt records tolerate spot fault) ∧
      forall fault,
        (exists e, build records tolerate = .error e ∧ e.fault = fault) <->
          exists spot, FaultAt records tolerate spot fault ∧
            forall earlier : Spot, earlier.Before spot ->
              forall other, ¬ FaultAt records tolerate earlier other := by
  refine ⟨build_isOk_iff, ?_⟩
  intro fault
  constructor
  · intro h
    rcases h with ⟨e, he, hfault⟩
    rcases build_eq_error_iff.mp he with ⟨spot, hspot, hbefore⟩
    refine ⟨spot, ?_, ?_⟩
    · rw [<- hfault]
      exact faultAt_of_errorAt? hspot
    · intro earlier hearlier
      exact errorAt?_eq_none_iff_not_faultAt.mp (hbefore earlier hearlier)
  · intro h
    rcases h with ⟨spot, hspot, hbefore⟩
    rcases exists_errorAt?_of_faultAt hspot with ⟨e, he, hfault⟩
    refine ⟨e, build_eq_error_iff.mpr ⟨spot, he, ?_⟩, hfault⟩
    intro earlier hearlier
    exact errorAt?_eq_none_iff_not_faultAt.mpr (hbefore earlier hearlier)

end Graph
end FeatureModel
