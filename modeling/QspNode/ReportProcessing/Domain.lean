import QspNode.ReportProcessing.Format

open lib.loops lib.ordered lib.python qsp.report

namespace qsp.report_processing

/-- The instances that have a record: a type of the table and lines in range. -/
def ReportEncoder.AcceptsInstance (self : ReportEncoder) (type_name : Option String) (i : Instance) :
    Prop :=
  ∃ type id start_line, type_name = some type ∧ self.vulnerability_types type = some id ∧
    i.start_line = some start_line ∧ 0 ≤ start_line ∧ start_line ≤ 32767 ∧
    (i.end_line = none ∨ i.end_line = some 0 ∨ i.end_line = some start_line ∨
      ∃ end_line, i.end_line = some end_line ∧ start_line + 1 ≤ end_line ∧
        end_line ≤ start_line + 255)

/-- The reports that the compressed format has room for. -/
structure ReportEncoder.Accepts (self : ReportEncoder) (report : Report) : Prop where
  version : ∃ version major minor patch, report.version = some version ∧
    version_numbers version = some [major, minor, patch] ∧
    (0 ≤ major ∧ major ≤ 15) ∧ (0 ≤ minor ∧ minor ≤ 15) ∧ (0 ≤ patch ∧ patch ≤ 63)
  audit_state : report.audit_state = some 4 ∨ report.audit_state = some 5
  status : report.status = some "success" ∨ report.status = some "error"
  contract_hash : ∃ hash, report.contract_hash = some hash ∧ hash.toList.length = 64 ∧
    ∀ c ∈ hash.toList, is_hex_digit c
  instances : ∀ a ∈ report.analyzers_reports.getD [], ∀ v ∈ a.potential_vulnerabilities.getD [],
    ∃ instances, v.instances = some instances ∧ ∀ i ∈ instances, self.AcceptsInstance v.type i

theorem linesFit_end_of_iff {i : Instance} {start_line : Int} :
    LinesFit start_line (i.end_of start_line) ↔
      0 ≤ start_line ∧ start_line ≤ 32767 ∧
      (i.end_line = none ∨ i.end_line = some 0 ∨ i.end_line = some start_line ∨
        ∃ end_line, i.end_line = some end_line ∧ start_line + 1 ≤ end_line ∧
          end_line ≤ start_line + 255) := by
  have hstart : (2 : Int) ^ (START_LINE_SIZE - 1) = 32768 := rfl
  have hend : (2 : Int) ^ END_LINE_SIZE = 256 := rfl
  rw [LinesFit, Instance.end_of, hstart, hend]
  cases hline : i.end_line with
  | none =>
    simp
    omega
  | some end_line =>
    simp only [Option.getD_some, reduceCtorEq, Option.some.injEq, false_or, exists_eq_left']
    split <;> omega

theorem ReportEncoder.acceptsInstance_iff (self : ReportEncoder) {type_name : Option String}
    {i : Instance} :
    (∃ f, type_name.bind i.finding = some f ∧ self.Encodable f) ↔ self.AcceptsInstance type_name i := by
  cases type_name with
  | none => simp [AcceptsInstance]
  | some type =>
    cases hstart : i.start_line with
    | none => simp [AcceptsInstance, Instance.finding, hstart]
    | some start_line =>
      simp [AcceptsInstance, Instance.finding, hstart, Encodable, linesFit_end_of_iff]

theorem ReportEncoder.vulnerability_findings_iff (self : ReportEncoder) (v : Vulnerability) :
    (∃ fs, v.findings = some fs ∧ ∀ f ∈ fs, self.Encodable f) ↔
      ∃ instances, v.instances = some instances ∧ ∀ i ∈ instances, self.AcceptsInstance v.type i := by
  cases hinstances : v.instances with
  | none => cases htype : v.type <;> simp [Vulnerability.findings, hinstances, htype]
  | some instances =>
    simp only [Option.some.injEq, exists_eq_left', ← self.acceptsInstance_iff]
    cases htype : v.type with
    | none =>
      cases instances with
      | nil => simp [Vulnerability.findings, hinstances, htype]
      | cons i instances =>
        simp only [Vulnerability.findings, hinstances, htype, Option.bind_none, reduceCtorEq,
          false_and, exists_false, false_iff]
        exact fun hall => hall i (by simp)
    | some type =>
      simp only [Vulnerability.findings, hinstances, htype, collect_option_forall_iff,
        Option.map_eq_some_iff, Option.bind_some]
      apply forall₂_congr
      intro i _
      constructor
      · rintro ⟨_, ⟨f, hf, rfl⟩, hencodable⟩
        exact ⟨f, hf, hencodable f (by simp)⟩
      · rintro ⟨f, hf, hencodable⟩
        exact ⟨_, ⟨f, hf, rfl⟩, by simpa using hencodable⟩

theorem ReportEncoder.report_findings_iff (self : ReportEncoder) (report : Report) :
    (∃ fs, report.findings = some fs ∧ ∀ f ∈ fs, self.Encodable f) ↔
      ∀ a ∈ report.analyzers_reports.getD [], ∀ v ∈ a.potential_vulnerabilities.getD [],
        ∃ instances, v.instances = some instances ∧ ∀ i ∈ instances, self.AcceptsInstance v.type i := by
  simp only [Report.findings, AnalyzerReport.findings, collect_option_forall_iff,
    self.vulnerability_findings_iff]

/-- The records of distinct findings: six digits for one line, eight for
    several. -/
theorem ReportEncoder.length_records (self : ReportEncoder) {fs : List Finding}
    (hencodable : ∀ f ∈ fs, self.Encodable f) :
    (fs.flatMap self.record).length =
      4 * (6 * (fs.filter (fun f => f.end_line = f.start_line)).length +
        8 * (fs.filter (fun f => f.end_line ≠ f.start_line)).length) := by
  induction fs with
  | nil => rfl
  | cons f fs ih =>
    rw [List.forall_mem_cons] at hencodable
    obtain ⟨⟨id, htype⟩, _⟩ := hencodable.1
    have hid := self.types_size htype
    rw [VULNERABILITY_TYPE_SIZE] at hid
    rw [List.flatMap_cons, List.length_append, ih hencodable.2]
    by_cases hone : f.end_line = f.start_line
    · simp [record, lines_bits, htype, hid, hone, START_LINE_SIZE]
      omega
    · simp [record, lines_bits, htype, hid, hone, START_LINE_SIZE, END_LINE_SIZE]
      omega

theorem Compresses.length_report_bits {encoder : ReportEncoder} {report : Report}
    {major minor patch : Nat} {state_bit status_bit : Bool} {hash_digits : List Nat}
    {fs : List Finding}
    (hcompresses : Compresses encoder report major minor patch state_bit status_bit hash_digits fs) :
    (encoder.report_bits major minor patch state_bit status_bit hash_digits fs).length =
      4 * (68 + 6 * (fs.eraseDups.filter (fun f => f.end_line = f.start_line)).length +
        8 * (fs.eraseDups.filter (fun f => f.end_line ≠ f.start_line)).length) := by
  have hrecords := encoder.length_records
    (fun f hf => hcompresses.encodable f (lib.ordered.mem_eraseDups.mp hf))
  rw [ReportEncoder.report_bits, List.length_append, List.length_append, length_header_bits,
    length_nibbles_to_bits, hcompresses.hash_length, hrecords, HEADER_SIZE]
  omega

/-- The bits of an accepted report always make up whole digits. -/
theorem Compresses.exists_hex {encoder : ReportEncoder} {report : Report}
    {major minor patch : Nat} {state_bit status_bit : Bool} {hash_digits : List Nat}
    {fs : List Finding}
    (hcompresses : Compresses encoder report major minor patch state_bit status_bit hash_digits fs) :
    ∃ h, to_hex (encoder.report_bits major minor patch state_bit status_bit hash_digits fs) = .ok h := by
  have hlength := hcompresses.length_report_bits
  rw [to_hex_ok_iff]
  refine ⟨?_, by omega⟩
  intro hnil
  rw [hnil, List.length_nil] at hlength
  omega

theorem version_fits_iff {report : Report} :
    (∃ version major minor patch, report.version = some version ∧
        version_numbers version = some [major, minor, patch] ∧
        (0 ≤ major ∧ major ≤ 15) ∧ (0 ≤ minor ∧ minor ≤ 15) ∧ (0 ≤ patch ∧ patch ≤ 63)) ↔
      ∃ major minor patch : Nat,
        report.version.bind version_numbers = some [(major : Int), (minor : Int), (patch : Int)] ∧
        major < 2 ^ MAJOR_VERSION_SIZE ∧ minor < 2 ^ MINOR_VERSION_SIZE ∧
        patch < 2 ^ PATCH_VERSION_SIZE := by
  have hmajor : 2 ^ MAJOR_VERSION_SIZE = 16 := rfl
  have hminor : 2 ^ MINOR_VERSION_SIZE = 16 := rfl
  have hpatch : 2 ^ PATCH_VERSION_SIZE = 64 := rfl
  rw [hmajor, hminor, hpatch]
  constructor
  · rintro ⟨version, major, minor, patch, hversion, hnumbers, hmajor, hminor, hpatch⟩
    obtain ⟨major, rfl⟩ := Int.eq_ofNat_of_zero_le hmajor.1
    obtain ⟨minor, rfl⟩ := Int.eq_ofNat_of_zero_le hminor.1
    obtain ⟨patch, rfl⟩ := Int.eq_ofNat_of_zero_le hpatch.1
    exact ⟨major, minor, patch, by rw [hversion]; exact hnumbers, by omega, by omega, by omega⟩
  · rintro ⟨major, minor, patch, hbind, hmajor, hminor, hpatch⟩
    obtain ⟨version, hversion, hnumbers⟩ := Option.bind_eq_some_iff.mp hbind
    exact ⟨version, major, minor, patch, hversion, hnumbers, by omega, by omega, by omega⟩

/-- The conditions on a report, field by field, are those of the encoder. -/
theorem ReportEncoder.accepts_iff (self : ReportEncoder) {report : Report}
    (hascii : ∀ hash, report.contract_hash = some hash → is_ascii hash) :
    self.Accepts report ↔ ∃ major minor patch state_bit status_bit hash_digits fs,
      Compresses self report major minor patch state_bit status_bit hash_digits fs := by
  constructor
  · rintro ⟨hversion, hstate, hstatus, ⟨hash, hhash, hlength, hchars⟩, hinstances⟩
    obtain ⟨major, minor, patch, hnumbers, hmajor, hminor, hpatch⟩ := version_fits_iff.mp hversion
    obtain ⟨fs, hfs, hencodable⟩ := (self.report_findings_iff report).mpr hinstances
    obtain ⟨ds, hds⟩ := (exists_hexDigits_iff (hascii hash hhash)).mpr hchars
    have hstate_bit : ∃ state_bit : Bool, report.audit_state =
        some (if state_bit then AUDIT_STATE_SUCCESS else AUDIT_STATE_ERROR) := by
      rcases hstate with hstate | hstate
      · exact ⟨true, hstate⟩
      · exact ⟨false, hstate⟩
    have hstatus_bit : ∃ status_bit : Bool, report.status =
        some (if status_bit then AUDIT_STATUS_SUCCESS else AUDIT_STATUS_ERROR) := by
      rcases hstatus with hstatus | hstatus
      · exact ⟨true, hstatus⟩
      · exact ⟨false, hstatus⟩
    obtain ⟨state_bit, hstate⟩ := hstate_bit
    obtain ⟨status_bit, hstatus⟩ := hstatus_bit
    exact ⟨major, minor, patch, state_bit, status_bit, ds, fs, hnumbers, hmajor, hminor, hpatch,
      hstate, hstatus, ⟨hash, hhash, hds⟩, hds.length_eq ▸ hlength, hfs, hencodable⟩
  · rintro ⟨major, minor, patch, state_bit, status_bit, ds, fs, hcompresses⟩
    obtain ⟨hash, hhash, hds⟩ := hcompresses.contract_hash
    refine ⟨version_fits_iff.mpr ⟨major, minor, patch, hcompresses.version, hcompresses.major_lt,
      hcompresses.minor_lt, hcompresses.patch_lt⟩, ?_, ?_, ⟨hash, hhash, ?_, ?_⟩, ?_⟩
    · rw [hcompresses.audit_state]
      cases state_bit
      · exact Or.inr rfl
      · exact Or.inl rfl
    · rw [hcompresses.status]
      cases status_bit
      · exact Or.inr rfl
      · exact Or.inl rfl
    · rw [hds.length_eq, hcompresses.hash_length]
    · exact (exists_hexDigits_iff (hascii hash hhash)).mp ⟨ds, hds⟩
    · exact (self.report_findings_iff report).mp ⟨fs, hcompresses.findings, hcompresses.encodable⟩

def is_upper_hex_digit (c : Char) : Bool :=
  ('0' ≤ c && c ≤ '9') || ('A' ≤ c && c ≤ 'F')

theorem is_upper_hex_digit_hex_char {d : Nat} (hlt : d < 16) : is_upper_hex_digit (hex_char d) := by
  have hall : ∀ d < 16, is_upper_hex_digit (hex_char d) := by decide
  exact hall d hlt

/-- The digits of a compressed report: upper case, and as many as its distinct
    findings take up. -/
structure HexOf (report : Report) (h : String) : Prop where
  upper : ∀ c ∈ h.toList, is_upper_hex_digit c
  even : h.length % 2 = 0
  length : ∃ fs, report.findings = some fs ∧
    h.length = 68 + 6 * (fs.eraseDups.filter (fun f => f.end_line = f.start_line)).length +
      8 * (fs.eraseDups.filter (fun f => f.end_line ≠ f.start_line)).length

theorem Compresses.hexOf {encoder : ReportEncoder} {report : Report}
    {major minor patch : Nat} {state_bit status_bit : Bool} {hash_digits : List Nat}
    {fs : List Finding} {h : String}
    (hcompresses : Compresses encoder report major minor patch state_bit status_bit hash_digits fs)
    (hhex : to_hex (encoder.report_bits major minor patch state_bit status_bit hash_digits fs) =
      .ok h.toList) : HexOf report h := by
  obtain ⟨ds, _, hbound, hbits, hchars⟩ := to_hex_eq_ok_iff.mp hhex
  have hlength := hcompresses.length_report_bits
  rw [hbits, length_nibbles_to_bits] at hlength
  have hdigits : h.length = ds.length := by
    rw [← String.length_toList, hchars, List.length_map]
  refine ⟨?_, by omega, fs, hcompresses.findings, by omega⟩
  rw [hchars, List.forall_mem_map]
  exact fun d hd => is_upper_hex_digit_hex_char (hbound d hd)

/-- The encoder returns a string exactly for the reports that fit the compressed
    format, and the string has the length that their findings take up. -/
theorem ReportEncoder.compress_report_accepts_iff (self : ReportEncoder) {report : Report}
    (hascii : ∀ hash, report.contract_hash = some hash → is_ascii hash) :
    ((∃ h, self.compress_report report = .ok h) ↔ self.Accepts report) ∧
      ∀ h, self.compress_report report = .ok h → HexOf report h := by
  simp only [self.compress_report_eq_ok_iff, self.compress_eq_ok_iff, self.accepts_iff hascii]
  refine ⟨⟨?_, ?_⟩, ?_⟩
  · rintro ⟨h, major, minor, patch, state_bit, status_bit, ds, fs, hcompresses, _⟩
    exact ⟨major, minor, patch, state_bit, status_bit, ds, fs, hcompresses⟩
  · rintro ⟨major, minor, patch, state_bit, status_bit, ds, fs, hcompresses⟩
    obtain ⟨cs, hcs⟩ := hcompresses.exists_hex
    refine ⟨String.ofList cs, major, minor, patch, state_bit, status_bit, ds, fs, hcompresses, ?_⟩
    rw [hcs, String.toList_ofList]
  · rintro h ⟨_, _, _, _, _, _, _, hcompresses, hhex⟩
    exact hcompresses.hexOf hhex

/-- The sample report, whose three instances are two findings. -/
theorem compress_report_accepts_sample :
    ((∃ h, report_encoder.compress_report (sample_report (sample_hash 'a')) = .ok h) ↔
      report_encoder.Accepts (sample_report (sample_hash 'a'))) ∧
    ∀ h, report_encoder.compress_report (sample_report (sample_hash 'a')) = .ok h →
      HexOf (sample_report (sample_hash 'a')) h :=
  report_encoder.compress_report_accepts_iff (by
    intro hash hhash
    obtain rfl := Option.some.inj hhash
    decide +kernel)

end qsp.report_processing
