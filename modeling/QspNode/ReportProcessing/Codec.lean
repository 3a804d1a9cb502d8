import QspNode.ReportProcessing.Hex
import QspNode.ReportProcessing.Vulnerabilities

open lib.python lib.ordered qsp.report

namespace qsp.report_processing

def CONTRACT_HASH_SIZE : Nat := 256
def CONTRACT_HASH_START : Nat := STATUS_INDEX + 1
def VULNERABILITIES_START : Nat := CONTRACT_HASH_START + CONTRACT_HASH_SIZE

def UNKNOWN_ANALYZER : AnalyzerMetadata := { name := some "Unknown Analyzer", version := none }
def UNKNOWN_FILE : String := "Unknown File"

def instance_of (vulnerability : Finding) (ref_id : Nat) : Instance :=
  { ref_id := some (ref_id : Int)
    start_line := some vulnerability.start_line
    end_line := some vulnerability.end_line }

/-- `ReportEncoder.__produce_json`. Every listed name is a key of the
    dictionary of groups. -/
def produce_json (version : String) (audit_state : Int) (status contract_hash : String)
    (vulnerabilities : List Finding) : Report :=
  let vulnerability_groups := groupBy Finding.type instance_of vulnerabilities
  let vulnerability_lists := vulnerability_groups.order.map (fun name =>
    { type := some name
      file := some UNKNOWN_FILE
      instances := some ((vulnerability_groups.items name).getD []) : Vulnerability })
  { requestor := none
    auditor := none
    version := some version
    audit_state := some audit_state
    status := some status
    contract_hash := some contract_hash
    analyzers_reports := some
      [{ analyzer := some UNKNOWN_ANALYZER
         status := some status
         start_time := none
         end_time := none
         errors := none
         potential_vulnerabilities := some vulnerability_lists }] }

/-- The `try` block of `ReportEncoder.compress_report`. -/
def ReportEncoder.compress (self : ReportEncoder) (report : Report) : Except PyException String := do
  let audit_state ← subscript "audit_state" report.audit_state
  let status ← subscript "status" report.status
  let version ← subscript "version" report.version
  let b_header ← encode_header_bytes version audit_state status
  let contract_hash ← subscript "contract_hash" report.contract_hash
  let b_contract_hash ← hex_to_bitstring contract_hash.toList CONTRACT_HASH_SIZE
  let b_vulnerabilities ← self.encode_vulnerabilities (report.analyzers_reports.getD [])
  let b_report := b_header ++ b_contract_hash ++ b_vulnerabilities
  return String.ofList (← to_hex b_report)

/-- `ReportEncoder.compress_report`: formatting errors pass through, any other
    error is wrapped. -/
def ReportEncoder.compress_report (self : ReportEncoder) (report : Report) :
    Except PyException String :=
  match self.compress report with
  | .ok compressed => .ok compressed
  | .error (.ReportFormattingException message) => .error (.ReportFormattingException message)
  | .error _ => .error (.Exception "Report could not be compressed")

/-- `ReportEncoder.decode_report` from the bits of the report on. -/
def ReportEncoder.decode_bits (self : ReportEncoder) (b_report : Bitstring) :
    Except PyException Report := do
  let (version, audit_state, status) ← decode_header_bytes (b_report.take HEADER_SIZE)
  let contract_hash ← to_hex (slice b_report HEADER_SIZE (HEADER_SIZE + CONTRACT_HASH_SIZE))
  let vulnerabilities ← self.decode_vulnerabilities (b_report.drop VULNERABILITIES_START)
  return produce_json version audit_state status (String.ofList contract_hash) vulnerabilities

/-- `ReportEncoder.decode_report`. -/
def ReportEncoder.decode_report (self : ReportEncoder) (report : String) :
    Except PyException Report := do
  self.decode_bits (← hex_to_bitstring report.toList 0)

/-- The groups that the two dictionaries of `__produce_json` build. -/
theorem produce_json_eq (version : String) (audit_state : Int) (status contract_hash : String)
    (vulnerabilities : List Finding) :
    produce_json version audit_state status contract_hash vulnerabilities =
      { requestor := none
        auditor := none
        version := some version
        audit_state := some audit_state
        status := some status
        contract_hash := some contract_hash
        analyzers_reports := some
          [{ analyzer := some UNKNOWN_ANALYZER
             status := some status
             start_time := none
             end_time := none
             errors := none
             potential_vulnerabilities := some (grouped UNKNOWN_FILE vulnerabilities) }] } := by
  simp only [produce_json, grouped, groupBy_order, groupBy_items, valuesOf, instance_of]

theorem ReportEncoder.compress_report_eq_ok_iff (self : ReportEncoder) (report : Report) (h : String) :
    self.compress_report report = .ok h ↔ self.compress report = .ok h := by
  unfold compress_report
  split <;> simp_all

/-- What the encoder demands of a report, and the digits it returns. -/
structure Compresses (encoder : ReportEncoder) (report : Report) (major minor patch : Nat)
    (state_bit status_bit : Bool) (hash_digits : List Nat) (fs : List Finding) : Prop where
  version : report.version.bind version_numbers = some [(major : Int), (minor : Int), (patch : Int)]
  major_lt : major < 2 ^ MAJOR_VERSION_SIZE
  minor_lt : minor < 2 ^ MINOR_VERSION_SIZE
  patch_lt : patch < 2 ^ PATCH_VERSION_SIZE
  audit_state : report.audit_state = some (if state_bit then AUDIT_STATE_SUCCESS else AUDIT_STATE_ERROR)
  status : report.status = some (if status_bit then AUDIT_STATUS_SUCCESS else AUDIT_STATUS_ERROR)
  contract_hash : ∃ hash, report.contract_hash = some hash ∧ HexDigits hash.toList hash_digits
  hash_length : hash_digits.length = 64
  findings : report.findings = some fs
  encodable : ∀ f ∈ fs, encoder.Encodable f

def header_bits (major minor patch : Nat) (state_bit status_bit : Bool) : Bitstring :=
  format_bits MAJOR_VERSION_SIZE major ++ format_bits MINOR_VERSION_SIZE minor ++
    format_bits PATCH_VERSION_SIZE patch ++ [state_bit] ++ [status_bit]

/-- The bits of a compressed report. -/
def ReportEncoder.report_bits (self : ReportEncoder) (major minor patch : Nat)
    (state_bit status_bit : Bool) (hash_digits : List Nat) (fs : List Finding) : Bitstring :=
  header_bits major minor patch state_bit status_bit ++ nibbles_to_bits hash_digits ++
    fs.eraseDups.flatMap self.record

@[simp]
theorem length_header_bits (major minor patch : Nat) (state_bit status_bit : Bool) :
    (header_bits major minor patch state_bit status_bit).length = HEADER_SIZE := by
  simp [header_bits, MAJOR_VERSION_SIZE, MINOR_VERSION_SIZE, PATCH_VERSION_SIZE, HEADER_SIZE]

/-- A text spells a bitstring in hexadecimal. -/
def Spells (cs : List Char) (b : Bitstring) : Prop :=
  cs ≠ [] ∧ ∃ ds, HexDigits cs ds ∧ b = nibbles_to_bits ds

theorem hex_to_bitstring_zero_iff {cs : List Char} {b : Bitstring} :
    hex_to_bitstring cs 0 = .ok b ↔ Spells cs b := by
  simp [hex_to_bitstring_eq_ok_iff, Spells]

/-- Every digit that the encoder prints reads back, in either case. -/
theorem digit_hex_char {d : Nat} (hlt : d < 16) :
    digit 16 (hex_char d) = some d ∧ digit 16 (hex_char d).toLower = some d := by
  have hall : ∀ d < 16, digit 16 (hex_char d) = some d ∧ digit 16 (hex_char d).toLower = some d := by
    decide
  exact hall d hlt

def lower (s : String) : String := String.ofList (s.toList.map Char.toLower)
def upper (s : String) : String := String.ofList (s.toList.map Char.toUpper)

theorem spells_hex_chars {ds : List Nat} (hne : ds ≠ []) (hbound : ∀ d ∈ ds, d < 16) :
    Spells (ds.map hex_char) (nibbles_to_bits ds) ∧
      Spells ((ds.map hex_char).map Char.toLower) (nibbles_to_bits ds) := by
  refine ⟨⟨by simpa using hne, ds, ?_, rfl⟩, ⟨by simpa using hne, ds, ?_, rfl⟩⟩
  · rw [HexDigits, List.forall₂_map_left_iff, List.forall₂_same]
    exact fun d hd => (digit_hex_char (hbound d hd)).1
  · rw [HexDigits, List.map_map, List.forall₂_map_left_iff, List.forall₂_same]
    exact fun d hd => (digit_hex_char (hbound d hd)).2

theorem ReportEncoder.compress_eq_ok_iff (self : ReportEncoder) (report : Report) (h : String) :
    self.compress report = .ok h ↔
      ∃ major minor patch state_bit status_bit hash_digits fs,
        Compresses self report major minor patch state_bit status_bit hash_digits fs ∧
        to_hex (self.report_bits major minor patch state_bit status_bit hash_digits fs) =
          .ok h.toList := by
  simp only [compress, bind_eq_ok_iff, subscript_eq_ok_iff, pure_eq_ok_iff,
    encode_header_bytes_eq_ok_iff, hex_to_bitstring_eq_ok_iff, self.encode_vulnerabilities_eq_ok_iff]
  constructor
  · rintro ⟨_, hstate, _, hstatus, version, hversion, _,
      ⟨major, minor, patch, state_bit, status_bit, hnumbers, hmajor, hminor, hpatch, rfl, rfl, rfl⟩,
      hash, hhash, _, ⟨hlength, _, ds, hds, rfl⟩, _, ⟨fs, hfs, hencodable, rfl⟩, cs, hcs, rfl⟩
    rw [self.eraseDups_records hencodable] at hcs
    have hlen : ds.length = 64 := by
      rw [← hds.length_eq]
      simp only [CONTRACT_HASH_SIZE] at hlength
      omega
    refine ⟨major, minor, patch, state_bit, status_bit, ds, fs, ⟨?_, hmajor, hminor, hpatch, hstate,
      hstatus, ⟨hash, hhash, hds⟩, hlen, hfs, hencodable⟩, ?_⟩
    · rw [hversion]
      exact hnumbers
    · rw [String.toList_ofList]
      exact hcs
  · rintro ⟨major, minor, patch, state_bit, status_bit, ds, fs, hcompresses, hcs⟩
    obtain ⟨version, hversion, hnumbers⟩ := Option.bind_eq_some_iff.mp hcompresses.version
    obtain ⟨hash, hhash, hds⟩ := hcompresses.contract_hash
    have hlen := hcompresses.hash_length
    refine ⟨_, hcompresses.audit_state, _, hcompresses.status, version, hversion, _,
      ⟨major, minor, patch, state_bit, status_bit, hnumbers, hcompresses.major_lt,
        hcompresses.minor_lt, hcompresses.patch_lt, rfl, rfl, rfl⟩, hash, hhash, _,
      ⟨Or.inr ?_, ?_, ds, hds, rfl⟩, _, ⟨fs, hcompresses.findings, hcompresses.encodable, rfl⟩,
      h.toList, ?_, String.ofList_toList⟩
    · rw [hds.length_eq, hlen]
      rfl
    · intro hnil
      have hzero := hds.length_eq
      rw [hnil, hlen] at hzero
      cases hzero
    · rw [self.eraseDups_records hcompresses.encodable]
      exact hcs

end qsp.report_processing
