import FeatureModel.Proofs.CheckedFold
import FeatureModel.Proofs.Graph.Entry

/-!
# The scan for defects

The scan of a list of records checks each record before it is entered, and
within a record each link before it is noted.  So it fails at the first place
where a check fails, and otherwise leaves the graph of the records entered.
-/

namespace FeatureModel

/-- A place that the scan comes to: the guid of a record, or one of its links. -/
inductive Spot where
  | guid (record : Nat)
  | link (record number : Nat)
deriving DecidableEq, Repr

/-- Whether the scan comes to one place before another. -/
def Spot.Before : Spot -> Spot -> Prop
  | guid i, guid j => i < j
  | guid i, link j _ => i ≤ j
  | link i _, guid j => i < j
  | link i m, link j n => i < j ∨ (i = j ∧ m < n)

namespace Graph

open CheckedFold

/-!
## The checks
-/

def linkError? (declared : Guid -> Bool) (source : Attributes)
    (kinds : Index (Guid × Guid) KindSet) (link : Link) : Option StructuralError :=
  if link.target = source.guid then
    some (.selfRelationship source link.kind)
  else if declared link.target = false then
    some (.danglingReference source link.kind link.target)
  else if (notedKinds kinds source.guid link.target).contains link.kind = true then
    some (.duplicateRelationshipKind source link.kind link.target)
  else
    none

def guidError? (tolerate : Bool) (g : Graph) (record : Record) : Option StructuralError :=
  (clash? tolerate g record.guid).map
    (fun first => .duplicateGuid record.guid first.name record.name)

def linkErrorAt? (declared : Guid -> Bool) (g : Graph) (record : Record) (number : Nat) :
    Option StructuralError :=
  wrongAt? (linkError? declared record.toAttributes) (noteLink record.guid) g.kinds record.links
    number

/-- What is wrong with a record: its guid, or else the first of its links that is wrong. -/
def recordError? (declared : Guid -> Bool) (tolerate : Bool) (g : Graph) (record : Record) :
    Option StructuralError :=
  match guidError? tolerate g record with
  | some e => some e
  | none =>
      match record.links.foldlM (scanLink declared record.toAttributes) g.kinds with
      | .error e => some e
      | .ok _ => none

theorem checks_scanLink (declared : Guid -> Bool) (source : Attributes) :
    Checks (scanLink declared source) (linkError? declared source) (noteLink source.guid) := by
  intro kinds link
  unfold scanLink linkError? notedKinds
  by_cases hself : link.target = source.guid
  · simp [hself]
  · by_cases hdeclared : declared link.target = false
    · simp [hself, hdeclared]
    · by_cases hkind : ((kinds.lookup? (source.guid, link.target)).getD KindSet.empty).contains
          link.kind = true
      · simp [hself, hdeclared, hkind]
      · simp [hself, hdeclared, hkind, noteLink]

theorem checks_scanRecord (declared : Guid -> Bool) (tolerate : Bool) :
    Checks (scanRecord declared tolerate) (recordError? declared tolerate) enter := by
  intro g record
  unfold scanRecord recordError? guidError?
  cases hclash : clash? tolerate g record.guid with
  | some first => rfl
  | none =>
      cases hlinks : record.links.foldlM (scanLink declared record.toAttributes) g.kinds with
      | error e =>
          simp only [Option.map_none]
          rfl
      | ok kinds =>
          have hend := (foldlM_eq_ok_iff (checks_scanLink declared record.toAttributes)).mp hlinks
          simp only [Option.map_none, hend.right]
          rfl

theorem recordError?_eq_none_iff {declared : Guid -> Bool} {tolerate : Bool} {g : Graph}
    {record : Record} :
    recordError? declared tolerate g record = none <->
      guidError? tolerate g record = none ∧
        forall number, linkErrorAt? declared g record number = none := by
  unfold recordError?
  cases hguid : guidError? tolerate g record with
  | some e => simp
  | none =>
      have hchecks := checks_scanLink declared record.toAttributes
      cases hlinks : record.links.foldlM (scanLink declared record.toAttributes) g.kinds with
      | error e =>
          rcases (foldlM_eq_error_iff hchecks).mp hlinks with ⟨number, hwrong, _⟩
          simp only [reduceCtorEq, true_and, false_iff]
          intro hright
          have hnone := hright number
          unfold linkErrorAt? at hnone
          rw [hwrong] at hnone
          cases hnone
      | ok kinds =>
          simp only [true_and, true_iff]
          exact ((foldlM_eq_ok_iff hchecks).mp hlinks).left

theorem recordError?_eq_some_iff {declared : Guid -> Bool} {tolerate : Bool} {g : Graph}
    {record : Record} {e : StructuralError} :
    recordError? declared tolerate g record = some e <->
      guidError? tolerate g record = some e ∨
        (guidError? tolerate g record = none ∧
          exists number, linkErrorAt? declared g record number = some e ∧
            forall m, m < number -> linkErrorAt? declared g record m = none) := by
  unfold recordError?
  cases hguid : guidError? tolerate g record with
  | some e' => simp
  | none =>
      have hchecks := checks_scanLink declared record.toAttributes
      cases hlinks : record.links.foldlM (scanLink declared record.toAttributes) g.kinds with
      | error e' =>
          simp only [Option.some.injEq, reduceCtorEq, false_or, true_and]
          constructor
          · intro heq
            rw [heq] at hlinks
            exact (foldlM_eq_error_iff hchecks).mp hlinks
          · intro hfirst
            have herror := (foldlM_eq_error_iff hchecks).mpr hfirst
            rw [hlinks] at herror
            cases herror
            rfl
      | ok kinds =>
          simp only [reduceCtorEq, false_or, true_and, false_iff]
          intro hfirst
          rcases hfirst with ⟨number, hwrong, _⟩
          have hnone := ((foldlM_eq_ok_iff hchecks).mp hlinks).left number
          unfold linkErrorAt? at hwrong
          rw [hnone] at hwrong
          cases hwrong

/-!
## The scan as a whole
-/

/-- What the scan of a list of records finds wrong at a place when it comes there. -/
def errorAt? (records : List Record) (tolerate : Bool) : Spot -> Option StructuralError
  | .guid i => records[i]?.bind (guidError? tolerate (entered (records.take i)))
  | .link i number =>
      records[i]?.bind (fun record =>
        linkErrorAt? (isDeclared records) (entered (records.take i)) record number)

theorem errorAt?_guid (records : List Record) (tolerate : Bool) (i : Nat) :
    errorAt? records tolerate (.guid i) =
      records[i]?.bind (guidError? tolerate (entered (records.take i))) :=
  rfl

theorem errorAt?_link (records : List Record) (tolerate : Bool) (i number : Nat) :
    errorAt? records tolerate (.link i number) =
      records[i]?.bind (fun record =>
        linkErrorAt? (isDeclared records) (entered (records.take i)) record number) :=
  rfl

theorem build_eq_map_scan (records : List Record) (tolerate : Bool) :
    build records tolerate =
      (scan records tolerate).map (fun scanned => (byGuid records).foldl attach scanned) := by
  unfold build
  cases scan records tolerate <;> rfl

/-- The graph of a list of records, whether or not they have defects. -/
def ofRecords (records : List Record) : Graph :=
  (byGuid records).foldl attach (entered records)

theorem errorAt?_eq_none_iff {records : List Record} {tolerate : Bool} {i : Nat} :
    wrongAt? (recordError? (isDeclared records) tolerate) enter empty records i = none <->
      errorAt? records tolerate (.guid i) = none ∧
        forall number, errorAt? records tolerate (.link i number) = none := by
  simp only [errorAt?_guid, errorAt?_link, wrongAt?, entered]
  cases records[i]? with
  | none => simp
  | some record =>
      simp only [Option.bind_some]
      exact recordError?_eq_none_iff

theorem errorAt?_eq_some_iff {records : List Record} {tolerate : Bool} {i : Nat}
    {e : StructuralError} :
    wrongAt? (recordError? (isDeclared records) tolerate) enter empty records i = some e <->
      errorAt? records tolerate (.guid i) = some e ∨
        (errorAt? records tolerate (.guid i) = none ∧
          exists number, errorAt? records tolerate (.link i number) = some e ∧
            forall m, m < number -> errorAt? records tolerate (.link i m) = none) := by
  simp only [errorAt?_guid, errorAt?_link, wrongAt?, entered]
  cases records[i]? with
  | none => simp
  | some record =>
      simp only [Option.bind_some]
      exact recordError?_eq_some_iff

theorem build_eq_ok_iff {records : List Record} {tolerate : Bool} {g : Graph} :
    build records tolerate = .ok g <->
      (forall spot, errorAt? records tolerate spot = none) ∧ g = ofRecords records := by
  have hchecks := checks_scanRecord (isDeclared records) tolerate
  have hscan : forall scanned, scan records tolerate = .ok scanned <->
      (forall spot, errorAt? records tolerate spot = none) ∧ scanned = entered records := by
    intro scanned
    unfold scan
    rw [foldlM_eq_ok_iff hchecks]
    constructor
    · intro h
      refine ⟨?_, h.right⟩
      intro spot
      cases spot with
      | guid i => exact (errorAt?_eq_none_iff.mp (h.left i)).left
      | link i number => exact (errorAt?_eq_none_iff.mp (h.left i)).right number
    · intro h
      exact ⟨fun i => errorAt?_eq_none_iff.mpr
        ⟨h.left (.guid i), fun number => h.left (.link i number)⟩, h.right⟩
  rw [build_eq_map_scan]
  constructor
  · intro hok
    cases hs : scan records tolerate with
    | error e =>
        rw [hs] at hok
        cases hok
    | ok scanned =>
        rw [hs] at hok
        cases hok
        have h := (hscan scanned).mp hs
        rw [h.right]
        exact ⟨h.left, rfl⟩
  · intro h
    rw [(hscan (entered records)).mpr ⟨h.left, rfl⟩, h.right]
    rfl

theorem build_eq_error_iff {records : List Record} {tolerate : Bool} {e : StructuralError} :
    build records tolerate = .error e <->
      exists spot, errorAt? records tolerate spot = some e ∧
        forall earlier : Spot, earlier.Before spot -> errorAt? records tolerate earlier = none := by
  have hchecks := checks_scanRecord (isDeclared records) tolerate
  have hscan : build records tolerate = .error e <-> scan records tolerate = .error e := by
    rw [build_eq_map_scan]
    cases scan records tolerate with
    | error e' => exact Iff.intro (fun h => by cases h; rfl) (fun h => by cases h; rfl)
    | ok scanned => exact Iff.intro (fun h => by cases h) (fun h => by cases h)
  rw [hscan]
  unfold scan
  rw [foldlM_eq_error_iff hchecks]
  constructor
  · intro h
    rcases h with ⟨i, hi, hbefore⟩
    have hclear : forall j, j < i -> forall spot, (spot = .guid j ∨ exists n, spot = .link j n) ->
        errorAt? records tolerate spot = none := by
      intro j hj spot hspot
      have hnone := errorAt?_eq_none_iff.mp (hbefore j hj)
      rcases hspot with heq | ⟨n, heq⟩
      · rw [heq]
        exact hnone.left
      · rw [heq]
        exact hnone.right n
    rcases errorAt?_eq_some_iff.mp hi with hguid | ⟨hguid, number, hlink, hlinks⟩
    · refine ⟨.guid i, hguid, ?_⟩
      intro earlier hearlier
      cases earlier with
      | guid j => exact hclear j hearlier _ (Or.inl rfl)
      | link j n => exact hclear j hearlier _ (Or.inr ⟨n, rfl⟩)
    · refine ⟨.link i number, hlink, ?_⟩
      intro earlier hearlier
      cases earlier with
      | guid j =>
          rcases Nat.lt_or_eq_of_le hearlier with hj | hj
          · exact hclear j hj _ (Or.inl rfl)
          · rw [hj]
            exact hguid
      | link j n =>
          rcases hearlier with hj | ⟨hj, hn⟩
          · exact hclear j hj _ (Or.inr ⟨n, rfl⟩)
          · rw [hj]
            exact hlinks n hn
  · intro h
    rcases h with ⟨spot, hspot, hbefore⟩
    cases spot with
    | guid i =>
        refine ⟨i, errorAt?_eq_some_iff.mpr (Or.inl hspot), ?_⟩
        intro j hj
        exact errorAt?_eq_none_iff.mpr
          ⟨hbefore (.guid j) hj, fun n => hbefore (.link j n) hj⟩
    | link i number =>
        refine ⟨i, errorAt?_eq_some_iff.mpr (Or.inr ⟨?_, number, hspot, ?_⟩), ?_⟩
        · exact hbefore (.guid i) (Nat.le_refl i)
        · intro m hm
          exact hbefore (.link i m) (Or.inr ⟨rfl, hm⟩)
        · intro j hj
          exact errorAt?_eq_none_iff.mpr
            ⟨hbefore (.guid j) (Nat.le_of_lt hj), fun n => hbefore (.link j n) (Or.inl hj)⟩

end Graph
end FeatureModel
