import QspNode.Lib.Loops
import QspNode.Lib.Ordered

open lib.loops lib.ordered

namespace qsp.report

/-- A dictionary of the report format; a missing key is `none`. -/
structure Instance where
  ref_id : Option Int
  start_line : Option Int
  end_line : Option Int
  deriving DecidableEq, Repr

structure Vulnerability where
  type : Option String
  file : Option String
  instances : Option (List Instance)
  deriving DecidableEq, Repr

structure AnalyzerMetadata where
  name : Option String
  version : Option String
  deriving DecidableEq, Repr

structure AnalyzerReport where
  analyzer : Option AnalyzerMetadata
  status : Option String
  start_time : Option Int
  end_time : Option Int
  errors : Option (List String)
  potential_vulnerabilities : Option (List Vulnerability)
  deriving DecidableEq, Repr

structure Report where
  requestor : Option String
  auditor : Option String
  version : Option String
  audit_state : Option Int
  status : Option String
  contract_hash : Option String
  analyzers_reports : Option (List AnalyzerReport)
  deriving DecidableEq, Repr

/-- One finding of a report, the unit that the compressed format encodes. -/
structure Finding where
  type : String
  start_line : Int
  end_line : Int
  deriving DecidableEq, Repr

/-- The line an instance ends on: an absent end line, zero and the start line
    all mean that it spans one line. -/
def Instance.end_of (i : Instance) (start_line : Int) : Int :=
  let end_line := i.end_line.getD 0
  if end_line = 0 ∨ start_line = end_line then start_line else end_line

def Instance.finding (type : String) (i : Instance) : Option Finding :=
  i.start_line.map (fun start_line =>
    { type, start_line, end_line := i.end_of start_line })

def Vulnerability.findings (v : Vulnerability) : Option (List Finding) :=
  match v.type, v.instances with
  | some type, some instances => collect (fun i => (i.finding type).map ([·])) instances
  | none, some [] => some []
  | _, _ => none

def AnalyzerReport.findings (a : AnalyzerReport) : Option (List Finding) :=
  collect Vulnerability.findings (a.potential_vulnerabilities.getD [])

/-- The findings of a report in order, `none` when a finding lacks a field. -/
def Report.findings (r : Report) : Option (List Finding) :=
  collect AnalyzerReport.findings (r.analyzers_reports.getD [])

/-- The instances of a report as they stand in it: type, start and end line. -/
def Report.listed (r : Report) : List (Option String × Option Int × Option Int) :=
  (r.analyzers_reports.getD []).flatMap (fun a =>
    (a.potential_vulnerabilities.getD []).flatMap (fun v =>
      (v.instances.getD []).map (fun i => (v.type, i.start_line, i.end_line))))

/-- The groups a decoded report lists: one per type, in order of first
    appearance, with the findings of the type in order and numbered from zero. -/
def grouped (file : String) (findings : List Finding) : List Vulnerability :=
  (findings.map Finding.type).eraseDups.map (fun type =>
    { type := some type
      file := some file
      instances := some ((findings.filter (fun f => f.type = type)).mapIdx (fun i f =>
        { ref_id := some (i : Int), start_line := some f.start_line, end_line := some f.end_line })) })

theorem map_mapIdx_of_left_inverse {α β : Type} {l : List α} {number : Nat → α → β} {g : β → α}
    (hinverse : ∀ i, ∀ a ∈ l, g (number i a) = a) : (l.mapIdx number).map g = l := by
  apply List.ext_getElem
  · rw [List.length_map, List.length_mapIdx]
  · intro i _ hi
    rw [List.getElem_map, List.getElem_mapIdx]
    exact hinverse i l[i] (List.getElem_mem hi)

/-- The findings of the groups are the grouped findings: a group spells out the
    end line of a one-line finding, and that line is read as its start line. -/
theorem findings_grouped (file : String) {fs : List Finding}
    (hlines : ∀ f ∈ fs, 0 ≤ f.start_line ∧ f.start_line ≤ f.end_line) :
    collect Vulnerability.findings (grouped file fs) = some (regroup Finding.type fs) := by
  rw [grouped, collect_map]
  apply collect_pure
  intro type _
  have hgroup : ∀ f ∈ fs.filter (fun f => f.type = type), f.type = type ∧
      0 ≤ f.start_line ∧ f.start_line ≤ f.end_line := by
    intro f hf
    rw [List.mem_filter, decide_eq_true_eq] at hf
    exact ⟨hf.2, hlines f hf.1⟩
  simp only [Vulnerability.findings]
  have hround : ∀ i ∈ (fs.filter (fun f => f.type = type)).mapIdx (fun i f =>
        ({ ref_id := some (i : Int), start_line := some f.start_line,
           end_line := some f.end_line } : Instance)),
      (i.finding type).map ([·]) = 
        pure [Finding.mk type (i.start_line.getD 0) (i.end_line.getD 0)] := by
    intro i hi
    obtain ⟨j, hj, rfl⟩ := List.mem_mapIdx.mp hi
    obtain ⟨_, hnonneg, hle⟩ := hgroup _ (List.getElem_mem hj)
    have hend : ∀ start end_line : Int, 0 ≤ start → start ≤ end_line →
        (if end_line = 0 ∨ start = end_line then start else end_line) = end_line := by
      intro start end_line _ _
      split <;> omega
    simp only [Instance.finding, Instance.end_of, Option.map_some, Option.getD_some,
      hend _ _ hnonneg hle, Option.pure_def]
  rw [collect_pure hround, ← List.map_eq_flatMap, map_mapIdx_of_left_inverse, Option.pure_def]
  intro j f hf
  rw [← (hgroup f hf).1]
  rfl

theorem listed_grouped (file : String) (fs : List Finding) :
    (grouped file fs).flatMap (fun v =>
        (v.instances.getD []).map (fun i => (v.type, i.start_line, i.end_line))) =
      (regroup Finding.type fs).map (fun f => (some f.type, some f.start_line, some f.end_line)) := by
  rw [grouped, List.flatMap_map, regroup, List.map_flatMap]
  apply List.flatMap_congr
  intro type _
  apply List.ext_getElem
  · simp
  · intro i hi _
    have hlt : i < (fs.filter (fun f => f.type = type)).length := by simpa using hi
    have htype : (fs.filter (fun f => f.type = type))[i].type = type := by
      have hmem := List.getElem_mem hlt
      rw [List.mem_filter, decide_eq_true_eq] at hmem
      exact hmem.2
    simp [htype]

end qsp.report
