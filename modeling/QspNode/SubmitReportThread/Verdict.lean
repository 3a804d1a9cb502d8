import Mathlib.Data.Rat.Cast.Order
import Mathlib.Data.Rat.Cast.CharZero
import QspNode.ReportProcessing.RoundTrip
import QspNode.Schema
import QspNode.VulnerabilitiesSet

open lib.loops lib.ordered lib.python
open qsp.report qsp.report_processing qsp.schema qsp.vulnerabilities_set

namespace qsp.submit_report_thread

/-- `SubmitReportThread.__SIMILARITY_THRESHOLD`, as an exact number. -/
def SIMILARITY_THRESHOLD : Rat := 6 / 10

/-- `bytes.hex()`. -/
def hex (bytes : List UInt8) : String :=
  String.ofList (bytes.flatMap (fun b => [Nat.digitChar (b.toNat / 16), Nat.digitChar (b.toNat % 16)]))

/-- `SubmitReportThread.__get_report_in_blockchain` for the answer of
    `getReport`. -/
def get_report_in_blockchain (compressed_report_bytes : Option (List UInt8)) : Option String :=
  match compressed_report_bytes with
  | none | some [] => none
  | some bytes => some (hex bytes)

/-- `SubmitReportThread.__is_report_deemed_correct` for the answer of
    `getReport`. -/
def is_report_deemed_correct (report_encoder : ReportEncoder) (request_id : Int)
    (compressed_report_bytes : Option (List UInt8)) (full_police_report : Report) :
    Except PyException Bool :=
  match get_report_in_blockchain compressed_report_bytes with
  | none => .error (.Exception s!"Report for request_id {request_id} not found")
  | some compressed_audit_report =>
    match report_encoder.decode_report compressed_audit_report >>= validate_json with
    | .error _ => .ok false
    | .ok decompressed_audit_report =>
      let audit_contract_hash := lower (decompressed_audit_report.contract_hash.getD "")
      let police_contract_hash := lower (full_police_report.contract_hash.getD "")
      if audit_contract_hash = "" ∨ police_contract_hash = "" ∨
          audit_contract_hash ≠ police_contract_hash then
        .ok false
      else
        match from_uncompressed_report (some decompressed_audit_report) with
        | .error _ => .ok false
        | .ok auditor_vulnerabilities => do
          let police_vulnerabilities ← from_uncompressed_report (some full_police_report)
          if police_vulnerabilities.card = 0 then return true
          else
            let similarity : Rat :=
              (auditor_vulnerabilities ∩ police_vulnerabilities).card / police_vulnerabilities.card
            return SIMILARITY_THRESHOLD ≤ similarity

/-- The set of a decoded report holds the pairs of the findings it lists. -/
theorem from_uncompressed_report_produce_json (version : String) (audit_state : Int)
    (status contract_hash : String) (fs : List Finding) :
    from_uncompressed_report (some (produce_json version audit_state status contract_hash fs)) =
      .ok (fs.map pair_of).toFinset := by
  have hgroup : ∀ v ∈ grouped UNKNOWN_FILE fs,
      vulnerability_pairs v = .ok ((fs.filter (fun f => f.type = v.type.getD "")).map pair_of) := by
    intro v hv
    obtain ⟨type, _, rfl⟩ := List.mem_map.mp hv
    have hround : ∀ i ∈ (fs.filter (fun f => f.type = type)).mapIdx (fun i f =>
          { ref_id := some (i : Int), start_line := some f.start_line, end_line := some f.end_line }),
        (do return [(type, ← subscript "start_line" (Instance.start_line i))] :
          Except PyException (List (String × Int))) = .ok [(type, i.start_line.getD 0)] := by
      intro i hi
      obtain ⟨_, _, rfl⟩ := List.mem_mapIdx.mp hi
      rfl
    simp only [vulnerability_pairs, subscript, Option.getD_some, bind, Except.bind]
    apply (collect_pure hround).trans
    rw [← List.map_eq_flatMap]
    congr 1
    apply List.ext_getElem (by simp)
    intro i hi hi'
    have htype := (List.mem_filter.mp (List.getElem_mem (by simpa using hi'))).2
    rw [decide_eq_true_eq] at htype
    simp only [List.getElem_map, List.getElem_mapIdx, Option.getD_some, pair_of]
    rw [htype]
  have hpairs : report_pairs (produce_json version audit_state status contract_hash fs) =
      .ok ((grouped UNKNOWN_FILE fs).flatMap (fun v =>
        (fs.filter (fun f => f.type = v.type.getD "")).map pair_of)) := by
    rw [produce_json_eq]
    simp only [report_pairs, Option.getD_some, collect, collect_pure hgroup, bind, Except.bind, pure,
      Except.pure, List.append_nil]
  rw [from_uncompressed_report, hpairs]
  simp only [bind, Except.bind, pure, Except.pure, Except.ok.injEq]
  ext pair
  simp only [List.mem_toFinset, List.mem_flatMap, List.mem_map, grouped, mem_eraseDups]
  constructor
  · rintro ⟨_, _, f, hf, rfl⟩
    exact ⟨f, (List.mem_filter.mp hf).1, rfl⟩
  · rintro ⟨f, hf, rfl⟩
    exact ⟨_, ⟨f.type, ⟨f, hf, rfl⟩, rfl⟩, f, List.mem_filter.mpr ⟨hf, by simp⟩, rfl⟩

theorem hash_pattern_hex_chars {ds : List Nat} (hbound : ∀ d ∈ ds, d < 16) (hlength : ds.length = 64) :
    hash_pattern (String.ofList (ds.map hex_char)) = true := by
  have hchars : ∀ c ∈ ds.map hex_char, is_hex_digit c = true := by
    have hall : ∀ d < 16, is_hex_digit (hex_char d) = true := by decide
    intro c hc
    obtain ⟨d, hd, rfl⟩ := List.mem_map.mp hc
    exact hall d (hbound d hd)
  have hlast : (ds.map hex_char).getLast? ≠ some '\n' := by
    intro hlast
    have hbreak := hchars _ (List.mem_of_getLast? hlast)
    revert hbreak
    decide
  rw [hash_pattern, String.toList_ofList, hex_pattern]
  simp only [if_neg hlast, List.length_map, hlength, decide_true, Bool.true_and, List.all_eq_true]
  exact hchars

theorem report_encoder_type_length {name : String} {b : Bitstring}
    (htype : report_encoder.vulnerability_types name = some b) : name.length ≤ 1000 := by
  have hlisted := ReportEncoder.init_names init_report_encoder
    (report_encoder.types_inverted name b htype)
  have hall : ∀ name ∈ vulnerability_types_json, name.length ≤ 1000 := by decide +kernel
  exact hall name hlisted

/-- The report that the decoder builds from encodable findings passes the
    schema. -/
theorem report_valid_produce_json {version : String} {state_bit status_bit : Bool}
    {hash_digits : List Nat} {fs : List Finding} (hbound : ∀ d ∈ hash_digits, d < 16)
    (hlength : hash_digits.length = 64) (hencodable : ∀ f ∈ fs, report_encoder.Encodable f) :
    report_valid (produce_json version
      (if state_bit then AUDIT_STATE_SUCCESS else AUDIT_STATE_ERROR)
      (if status_bit then AUDIT_STATUS_SUCCESS else AUDIT_STATUS_ERROR)
      (String.ofList (hash_digits.map hex_char)) fs) = true := by
  have hgroups : (grouped UNKNOWN_FILE fs).all vulnerability_valid = true := by
    rw [List.all_eq_true]
    intro v hv
    obtain ⟨type, htype, rfl⟩ := List.mem_map.mp hv
    obtain ⟨f, hf, rfl⟩ := List.mem_map.mp (mem_eraseDups.mp htype)
    obtain ⟨⟨b, hb⟩, _⟩ := hencodable f hf
    have hname := report_encoder_type_length hb
    have hinstances : ((fs.filter (fun g => g.type = f.type)).mapIdx (fun i g =>
        { ref_id := some (i : Int), start_line := some g.start_line, end_line := some g.end_line })).all
          instance_valid = true := by
      rw [List.all_eq_true]
      intro i hi
      obtain ⟨k, hk, rfl⟩ := List.mem_mapIdx.mp hi
      obtain ⟨_, hnonneg, _, hle, _⟩ := hencodable _ (List.mem_filter.mp (List.getElem_mem hk)).1
      simp only [instance_valid, required, minimum, Option.isSome_some, Option.all_some, Bool.and_true,
        Bool.true_and, Bool.and_eq_true, decide_eq_true_eq]
      omega
    simp [vulnerability_valid, required, maxLength, items, hname, hinstances, UNKNOWN_FILE]
    decide
  rw [produce_json_eq]
  cases state_bit <;> cases status_bit <;>
    simp [report_valid, analyzer_report_valid, analyzer_valid, required, minimum, maximum, maxLength,
      enum, items, hgroups, hash_pattern_hex_chars hbound hlength, AUDIT_STATE_SUCCESS,
      AUDIT_STATE_ERROR, AUDIT_STATUS_SUCCESS, AUDIT_STATUS_ERROR, UNKNOWN_ANALYZER] <;> decide

end qsp.submit_report_thread
