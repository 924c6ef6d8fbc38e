import FeatureModel.Proofs.Text.Reading
import FeatureModel.Report.Basic

/-!
# Reading reports back

A report is written as lines of marked fields.  If identifiers of rules keep clear of
the bracket that ends them, and neither they nor messages run over a line, every field
is read back from its line, and different reports have different texts.
-/

namespace FeatureModel

open Text

/-- Whether a line tells where the texts of a finding end. -/
def Violation.Legible (v : Violation) : Prop :=
  ']' ∉ v.ruleId.toList ∧ '\n' ∉ v.ruleId.toList ∧ '\n' ∉ v.message.toList

instance Violation.instDecidablePredLegible : DecidablePred Legible :=
  fun _ => inferInstanceAs (Decidable (_ ∧ _ ∧ _))

def Report.Legible (r : Report) : Prop :=
  forall v, v ∈ r.violations -> v.Legible

instance Report.instDecidablePredLegible : DecidablePred Legible :=
  fun r => inferInstanceAs (Decidable (forall v, v ∈ r.violations -> v.Legible))

def Violation.read? (text : List Char) : Option Violation := do
  let (severity, text) <- field? "" ' ' text
  let (ruleId, text) <- field? "[" ']' text
  let (guids, text) <- field? " guids=\x7b" '\x7d' text
  let message <- after? ": ".toList text
  let severity <- named? Severity.all Severity.name severity
  return {
    ruleId := String.ofList ruleId
    severity := severity
    guids := readInts guids
    message := String.ofList message }

def Report.verdictName (isValid : Bool) : String :=
  if isValid then "succeeded" else "failed"

def Report.readSummary? (text : List Char) : Option Report := do
  let (isValid, text) <- field? "Compilation " ' ' text
  let (mode, text) <- field? "(mode=" ',' text
  let (errors, text) <- field? " errors=" ',' text
  let (warnings, _) <- field? " warnings=" ')' text
  let isValid <- named? [true, false] verdictName isValid
  let mode <- named? Mode.all Mode.name mode
  return {
    isValid := isValid
    mode := mode
    errorCount := readNat errors
    warningCount := readNat warnings }

def Report.readLine? (line : String) : Option Violation := do
  let text <- after? "  ".toList line.toList
  Violation.read? text

def Report.read? (text : String) : Option Report :=
  match lines text with
  | [] => none
  | summary :: rest => do
      let report <- readSummary? summary.toList
      let violations <- rest.dropLast.mapM readLine?
      return { report with violations := violations }

/-!
## The fields of a line
-/

theorem Severity.named?_name (s : Severity) :
    named? Severity.all Severity.name s.name.toList = some s := by
  cases s <;> rfl

theorem Mode.named?_name (m : Mode) : named? Mode.all Mode.name m.name.toList = some m := by
  cases m <;> rfl

theorem Report.named?_verdictName (isValid : Bool) :
    named? [true, false] verdictName (verdictName isValid).toList = some isValid := by
  cases isValid <;> rfl

theorem Violation.toList_text (v : Violation) :
    v.text.toList =
      "".toList ++ (v.severity.name.toList ++ ' ' ::
        ("[".toList ++ (v.ruleId.toList ++ ']' ::
          (" guids=\x7b".toList ++ ((",".intercalate (v.guids.map decimal)).toList ++ '\x7d' ::
            (": ".toList ++ v.message.toList)))))) := by
  simp [text]

theorem Report.toList_summary (r : Report) :
    r.summary.toList =
      "Compilation ".toList ++ ((verdictName r.isValid).toList ++ ' ' ::
        ("(mode=".toList ++ (r.mode.name.toList ++ ',' ::
          (" errors=".toList ++ ((natDecimal r.errorCount).toList ++ ',' ::
            (" warnings=".toList ++ ((natDecimal r.warningCount).toList ++ ')' :: []))))))) := by
  cases h : r.isValid <;> simp [summary, verdictName, h]

theorem Severity.isWord_name (s : Severity) : IsWord s.name := by
  cases s <;> decide

theorem Mode.isWord_name (m : Mode) : IsWord m.name := by
  cases m <;> decide

theorem Report.isWord_verdictName (isValid : Bool) : IsWord (verdictName isValid) := by
  cases isValid <;> decide

/-!
## Findings and summaries
-/

theorem Violation.read?_text {v : Violation} (h : ']' ∉ v.ruleId.toList) :
    read? v.text.toList = some v := by
  have hseverity : ' ' ∉ v.severity.name.toList := v.severity.isWord_name.not_mem (by decide)
  have hguids :=
    not_mem_intercalate_decimal (c := '\x7d') (by decide) (by decide) (by decide) v.guids
  unfold read?
  rw [toList_text, field?_append _ hseverity]
  simp only [Option.bind_eq_bind, Option.bind_some, field?_append _ h, field?_append _ hguids,
    after?_append, Severity.named?_name, readInts_intercalate, String.ofList_toList]
  rfl

theorem Report.readSummary?_summary (r : Report) :
    readSummary? r.summary.toList = some { r with violations := [] } := by
  have hverdict : ' ' ∉ (verdictName r.isValid).toList :=
    (isWord_verdictName r.isValid).not_mem (by decide)
  have hmode : ',' ∉ r.mode.name.toList := r.mode.isWord_name.not_mem (by decide)
  have herrors : ',' ∉ (natDecimal r.errorCount).toList := not_mem_natDecimal (by decide) _
  have hwarnings : ')' ∉ (natDecimal r.warningCount).toList := not_mem_natDecimal (by decide) _
  unfold readSummary?
  rw [toList_summary, field?_append _ hverdict]
  simp only [Option.bind_eq_bind, Option.bind_some, field?_append _ hmode, field?_append _ herrors,
    field?_append _ hwarnings, named?_verdictName, Mode.named?_name, readNat_natDecimal]
  rfl

/-!
## Lines
-/

theorem Violation.newline_not_mem_text {v : Violation} (h : v.Legible) : '\n' ∉ v.text.toList := by
  have hseverity : '\n' ∉ v.severity.name.toList := v.severity.isWord_name.not_mem (by decide)
  have hguids :=
    not_mem_intercalate_decimal (c := '\n') (by decide) (by decide) (by decide) v.guids
  rw [toList_text]
  simp [-String.toList_intercalate, hseverity, hguids, h.right.left, h.right.right]

theorem Report.newline_not_mem_summary (r : Report) : '\n' ∉ r.summary.toList := by
  have hverdict : '\n' ∉ (verdictName r.isValid).toList :=
    (isWord_verdictName r.isValid).not_mem (by decide)
  have hmode : '\n' ∉ r.mode.name.toList := r.mode.isWord_name.not_mem (by decide)
  have hcount : forall n, '\n' ∉ (natDecimal n).toList := not_mem_natDecimal (by decide)
  rw [toList_summary]
  simp [hverdict, hmode, hcount]

theorem Report.lines_text {r : Report} (h : r.Legible) :
    lines r.text = r.summary :: (r.violations.map (fun v => "  " ++ v.text) ++ [""]) := by
  have hjoin : String.join (r.violations.map (fun v => "  " ++ v.text ++ "\n")) =
      String.join ((r.violations.map (fun v => "  " ++ v.text)).map (fun s => s ++ "\n")) := by
    rw [List.map_map]
    rfl
  unfold text
  rw [lines_append r.newline_not_mem_summary, hjoin, lines_join]
  intro s hs
  rcases List.mem_map.mp hs with ⟨v, hv, heq⟩
  rw [<- heq]
  simpa using Violation.newline_not_mem_text (h v hv)

/-!
## Reports
-/

theorem Report.readLine?_text {v : Violation} (h : v.Legible) :
    readLine? ("  " ++ v.text) = some v := by
  unfold readLine?
  rw [String.toList_append, after?_append]
  exact Violation.read?_text h.left

theorem Report.mapM_readLine? {violations : List Violation}
    (h : forall v, v ∈ violations -> v.Legible) :
    (violations.map (fun v => "  " ++ v.text)).mapM readLine? = some violations := by
  induction violations with
  | nil => rfl
  | cons v rest ih =>
      rw [List.forall_mem_cons] at h
      rw [List.map_cons, List.mapM_cons, readLine?_text h.left, ih h.right]
      rfl

theorem Report.read?_text {r : Report} (h : r.Legible) : read? r.text = some r := by
  unfold read?
  rw [lines_text h]
  simp only [List.dropLast_concat, readSummary?_summary, mapM_readLine? h, Option.bind_eq_bind,
    Option.bind_some]
  rfl

/-- The text of a legible report has the summary on its first line and a finding on each further
one.  Everything is read back from these lines, so no other legible report has the same text. -/
theorem Report.text_tells_report {r s : Report} (hr : r.Legible) (hs : s.Legible) :
    lines r.text = r.summary :: (r.violations.map (fun v => "  " ++ v.text) ++ [""]) ∧
      read? r.text = some r ∧ (r.text = s.text <-> r = s) := by
  refine ⟨lines_text hr, read?_text hr, ?_⟩
  constructor
  · intro htext
    have hsame : some r = some s := by rw [<- read?_text hr, htext, read?_text hs]
    exact Option.some.inj hsame
  · intro heq
    rw [heq]

/-- Texts that imitate the marks of a line are read back, as are an empty list of guids, counts
that are not those of the findings, and the order of the findings. -/
theorem Report.text_tells_report_despite_imitation :
    let imitation : Violation :=
      { ruleId := "a [error", severity := .warning, guids := [-12, 0, 7],
        message := "x] guids=\x7b-1\x7d: y" }
    let blank : Violation := {}
    let r : Report :=
      { mode := .strict, violations := [imitation, blank], errorCount := 30 }
    let s : Report := { r with violations := [blank, imitation] }
    r.Legible ∧ s.Legible ∧ read? r.text = some r ∧ r.text ≠ s.text := by
  intro imitation blank r s
  have hr : r.Legible := by decide
  have hs : s.Legible := by decide
  have htells := text_tells_report hr hs
  refine ⟨hr, hs, htells.right.left, ?_⟩
  intro htext
  have hsame : r = s := htells.right.right.mp htext
  exact absurd hsame (by decide)

/-- A bracket in an identifier hides where the identifier ends. -/
example :
    let r : Report := { violations := [{ ruleId := "a", message := "b] guids=\x7b\x7d: c" }] }
    let s : Report := { violations := [{ ruleId := "a] guids=\x7b\x7d: b", message := "c" }] }
    r.Legible ∧ ¬ s.Legible ∧ r.text = s.text ∧ r ≠ s := by
  decide

end FeatureModel
