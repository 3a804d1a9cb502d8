import Mathlib.Data.Finset.Card
import QspNode.Exceptions
import QspNode.Report

open lib.loops qsp.report

namespace qsp.vulnerabilities_set

/-- The body of the middle loop of `VulnerabilitiesSet.from_uncompressed_report`. -/
def vulnerability_pairs (vulnerability : Vulnerability) :
    Except PyException (List (String × Int)) := do
  let vulnerability_type ← subscript "type" vulnerability.type
  collect (fun i : Instance => do
      let line ← subscript "start_line" i.start_line
      return [(vulnerability_type, line)])
    (vulnerability.instances.getD [])

def report_pairs (report : Report) : Except PyException (List (String × Int)) :=
  collect (fun a : AnalyzerReport =>
      collect vulnerability_pairs (a.potential_vulnerabilities.getD []))
    (report.analyzers_reports.getD [])

/-- `VulnerabilitiesSet.from_uncompressed_report`. An empty dictionary has no
    analyzers, so only a missing report is told apart. -/
def from_uncompressed_report (report : Option Report) :
    Except PyException (Finset (String × Int)) :=
  match report with
  | none => .ok ∅
  | some report => do return (← report_pairs report).toFinset

def pair_of (f : Finding) : String × Int := (f.type, f.start_line)

theorem vulnerability_pairs_eq {v : Vulnerability} {pairs : List (String × Int)} {fs : List Finding}
    (hpairs : vulnerability_pairs v = .ok pairs) (hfs : v.findings = some fs) :
    pairs = fs.map pair_of := by
  rw [vulnerability_pairs, bind_eq_ok_iff] at hpairs
  obtain ⟨type, htype, hpairs⟩ := hpairs
  rw [subscript_eq_ok_iff] at htype
  cases hinstances : v.instances with
  | none => simp [Vulnerability.findings, htype, hinstances] at hfs
  | some instances =>
    rw [hinstances] at hpairs
    simp only [Vulnerability.findings, htype, hinstances] at hfs
    refine collect_image ?_ hpairs hfs
    intro i bs cs hbs hcs
    rw [bind_eq_ok_iff] at hbs
    obtain ⟨line, hline, hbs⟩ := hbs
    obtain rfl := pure_eq_ok_iff.mp hbs
    rw [subscript_eq_ok_iff] at hline
    obtain ⟨f, hf, rfl⟩ := Option.map_eq_some_iff.mp hcs
    rw [Instance.finding, hline, Option.map_some, Option.some.injEq] at hf
    rw [← hf]
    rfl

/-- The set of a report holds the types and start lines of its findings. -/
theorem from_uncompressed_report_findings {r : Report} {A : Finset (String × Int)}
    {fs : List Finding} (hset : from_uncompressed_report (some r) = .ok A)
    (hfs : r.findings = some fs) : A = (fs.map pair_of).toFinset := by
  simp only [from_uncompressed_report, bind_eq_ok_iff] at hset
  obtain ⟨pairs, hpairs, hset⟩ := hset
  rw [← pure_eq_ok_iff.mp hset, collect_image ?_ hpairs hfs]
  intro a bs cs hbs hcs
  exact collect_image (fun v _ _ => vulnerability_pairs_eq) hbs hcs

end qsp.vulnerabilities_set
