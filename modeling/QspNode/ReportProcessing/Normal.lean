import QspNode.ReportProcessing.Domain

open lib.loops lib.ordered lib.positional lib.python lib.records qsp.report

namespace qsp.report_processing

/-- Every name that an identifier leads to has an identifier. -/
theorem initialize_loop_types {types : String → Option Bitstring}
    {inverted : Bitstring → Option String} {count : Nat} {types_list : List String}
    (htypes : ∀ b name, inverted b = some name → (types name).isSome)
    {result : (String → Option Bitstring) × (Bitstring → Option String)}
    (hloop : initialize_loop types inverted count types_list = .ok result) :
    ∀ b name, result.2 b = some name → (result.1 name).isSome := by
  induction types_list generalizing types inverted count with
  | nil =>
    obtain rfl : (types, inverted) = result := by simpa [initialize_loop] using hloop
    exact htypes
  | cons head types_list ih =>
    rw [initialize_loop] at hloop
    cases hbits : to_bitstring count VULNERABILITY_TYPE_SIZE with
    | error e => simp [hbits] at hloop
    | ok bitstring =>
      simp only [hbits] at hloop
      apply ih ?_ hloop
      intro b name hentry
      by_cases hname : name = head
      · rw [hname, Function.update_self, Option.isSome_some]
      · rw [Function.update_of_ne hname]
        by_cases hb : b = bitstring
        · rw [hb, Function.update_self, Option.some.injEq] at hentry
          exact absurd hentry.symm hname
        · rw [Function.update_of_ne hb] at hentry
          exact htypes b name hentry

theorem ReportEncoder.init_types {types_list : List String} {self : ReportEncoder}
    (hinit : ReportEncoder.init types_list = .ok self) {b : Bitstring} {name : String}
    (hentry : self.vulnerability_types_inverted b = some name) :
    ∃ b', self.vulnerability_types name = some b' := by
  unfold ReportEncoder.init at hinit
  split at hinit
  · cases hinit
  · rename_i result hloop
    obtain rfl := Except.ok.inj hinit
    rw [← Option.isSome_iff_exists]
    apply initialize_loop_types ?_ hloop b name hentry
    intro _ _ h
    cases h

theorem bits_value_lt {b : Bitstring} {n : Nat} (hlength : b.length ≤ n) : bits_value b < 2 ^ n := by
  have hlt := value_lt (bits_lt_two b)
  rw [List.length_map] at hlt
  exact hlt.trans_le (Nat.pow_le_pow_right (by decide) hlength)

/-- What one round of the decoder reads can be written again. -/
theorem ReportEncoder.decode_vulnerability_encodable {types_list : List String}
    {self : ReportEncoder} (hinit : ReportEncoder.init types_list = .ok self) {b rest : Bitstring}
    {f : Finding} (hread : self.decode_vulnerability b = .ok (f, rest)) : self.Encodable f := by
  rw [self.decode_vulnerability_eq_ok_iff] at hread
  obtain ⟨id, flag, body, hid, _, _, hstart, _, hend⟩ := hread
  have hstart_lt := bits_value_lt (List.length_take_le (START_LINE_SIZE - 1) body)
  have hdiff_lt := bits_value_lt
    (List.length_take_le END_LINE_SIZE (body.drop (START_LINE_SIZE - 1)))
  refine ⟨self.init_types hinit hid, ?_⟩
  rw [LinesFit, hstart]
  cases flag with
  | false =>
    simp only [Bool.false_eq_true, if_false] at hend
    rw [hend, hstart, sub_self]
    exact ⟨by omega, by exact_mod_cast hstart_lt, le_rfl, by decide⟩
  | true =>
    simp only [if_true] at hend
    rw [hend.2, hstart, add_sub_cancel_left]
    exact ⟨by omega, by exact_mod_cast hstart_lt, by omega, by exact_mod_cast hdiff_lt⟩

theorem ReportEncoder.decode_vulnerabilities_encodable {types_list : List String}
    {self : ReportEncoder} (hinit : ReportEncoder.init types_list = .ok self) {b : Bitstring}
    {fs : List Finding} (hdecode : self.decode_vulnerabilities b = .ok fs) :
    ∀ f ∈ fs, self.Encodable f := by
  rw [decode_vulnerabilities, readToEnd_eq_ok_iff self.decode_vulnerability_shortens] at hdecode
  induction hdecode with
  | nil => simp
  | cons _ hread _ ih =>
    rw [List.forall_mem_cons]
    exact ⟨self.decode_vulnerability_encodable hinit hread, ih⟩

/-- The report that the decoder builds from the fields of a compressed one. -/
def decoded_report (major minor patch : Nat) (state_bit status_bit : Bool) (hash_digits : List Nat)
    (fs : List Finding) : Report :=
  produce_json (version_text [(major : Int), (minor : Int), (patch : Int)])
    (if state_bit then AUDIT_STATE_SUCCESS else AUDIT_STATE_ERROR)
    (if status_bit then AUDIT_STATUS_SUCCESS else AUDIT_STATUS_ERROR)
    (String.ofList (hash_digits.map hex_char)) fs

theorem hexDigits_hex_chars {ds : List Nat} (hbound : ∀ d ∈ ds, d < 16) :
    HexDigits (ds.map hex_char) ds := by
  rw [HexDigits, List.forall₂_map_left_iff, List.forall₂_same]
  exact fun d hd => (digit_hex_char (hbound d hd)).1

/-- A decoded report meets the conditions of the encoder, which sees its
    findings sorted by type. -/
theorem ReportEncoder.compresses_decoded (self : ReportEncoder) {major minor patch : Nat}
    (hmajor : major < 2 ^ MAJOR_VERSION_SIZE) (hminor : minor < 2 ^ MINOR_VERSION_SIZE)
    (hpatch : patch < 2 ^ PATCH_VERSION_SIZE) (state_bit status_bit : Bool) {hash_digits : List Nat}
    (hlength : hash_digits.length = 64) (hbound : ∀ d ∈ hash_digits, d < 16) {fs : List Finding}
    (hencodable : ∀ f ∈ fs, self.Encodable f) :
    Compresses self (decoded_report major minor patch state_bit status_bit hash_digits fs)
      major minor patch state_bit status_bit hash_digits (regroup Finding.type fs) := by
  have hlines : ∀ f ∈ fs, 0 ≤ f.start_line ∧ f.start_line ≤ f.end_line := by
    intro f hf
    obtain ⟨_, hnonneg, _, hle, _⟩ := hencodable f hf
    exact ⟨hnonneg, hle⟩
  rw [decoded_report, produce_json_eq]
  refine ⟨?_, hmajor, hminor, hpatch, rfl, rfl, ⟨_, rfl, ?_⟩, hlength, ?_, ?_⟩
  · exact version_numbers_version_text (by simp)
  · rw [String.toList_ofList]
    exact hexDigits_hex_chars hbound
  · have hgroups : AnalyzerReport.findings
        { analyzer := some UNKNOWN_ANALYZER
          status := some (if status_bit then AUDIT_STATUS_SUCCESS else AUDIT_STATUS_ERROR)
          start_time := none
          end_time := none
          errors := none
          potential_vulnerabilities := some (grouped UNKNOWN_FILE fs) } =
        some (regroup Finding.type fs) := findings_grouped UNKNOWN_FILE hlines
    rw [Report.findings, Option.getD_some, collect_option_cons_eq_some_iff]
    exact ⟨_, [], hgroups, rfl, (List.append_nil _).symm⟩
  · exact fun f hf => hencodable f (mem_regroup.mp hf)

theorem listed_decoded_report (major minor patch : Nat) (state_bit status_bit : Bool)
    (hash_digits : List Nat) (fs : List Finding) :
    (decoded_report major minor patch state_bit status_bit hash_digits fs).listed =
      (regroup Finding.type fs).map (fun f => (some f.type, some f.start_line, some f.end_line)) := by
  rw [decoded_report, produce_json_eq, ← listed_grouped UNKNOWN_FILE]
  simp [Report.listed]

/-- What the decoder builds from a string that reaches past the contract
    hash. -/
theorem ReportEncoder.decode_report_fields {types_list : List String} {self : ReportEncoder}
    (hinit : ReportEncoder.init types_list = .ok self) {h : String} (hlong : 68 ≤ h.toList.length)
    {decoded : Report} (hdecode : self.decode_report h = .ok decoded) :
    ∃ major minor patch state_bit status_bit hash_digits fs,
      decoded = decoded_report major minor patch state_bit status_bit hash_digits fs ∧
      Compresses self decoded major minor patch state_bit status_bit hash_digits
        (regroup Finding.type fs) := by
  rw [decode_report, bind_eq_ok_iff] at hdecode
  obtain ⟨b, hbits, hdecode⟩ := hdecode
  have hlength := (hex_to_bitstring_zero_iff.mp hbits).length_eq
  simp only [decode_bits, bind_eq_ok_iff, pure_eq_ok_iff] at hdecode
  obtain ⟨⟨version, audit_state, status⟩, hheader, hash, hhash, fs, hfs, rfl⟩ := hdecode
  simp only [decode_header_bytes, bind_eq_ok_iff, pure_eq_ok_iff, from_bitstring_eq_ok_iff,
    Prod.mk.injEq] at hheader
  obtain ⟨major, ⟨_, hmajor⟩, minor, ⟨_, hminor⟩, patch, ⟨_, hpatch⟩, state_bit, _, status_bit, _,
    rfl, rfl, rfl⟩ := hheader
  obtain ⟨ds, _, hbound, hslice, rfl⟩ := to_hex_eq_ok_iff.mp hhash
  have hdigits : ds.length = 64 := by
    have hcount := congrArg List.length hslice
    rw [slice, List.length_take, List.length_drop, length_nibbles_to_bits, HEADER_SIZE,
      CONTRACT_HASH_SIZE] at hcount
    omega
  refine ⟨major, minor, patch, state_bit, status_bit, ds, fs, rfl,
    self.compresses_decoded ?_ ?_ ?_ state_bit status_bit hdigits hbound
      (self.decode_vulnerabilities_encodable hinit hfs)⟩
  · rw [hmajor]
    exact bits_value_lt (List.length_take_le ..)
  · rw [hminor]
    exact bits_value_lt (List.length_take_le ..)
  · rw [hpatch]
    exact bits_value_lt (List.length_take_le ..)

/-- Two reports with the same header, contract hash and set of findings. -/
structure SameFindings (report other : Report) : Prop where
  version : report.version = other.version
  audit_state : report.audit_state = other.audit_state
  status : report.status = other.status
  contract_hash : report.contract_hash = other.contract_hash
  listed : ∀ finding, finding ∈ report.listed ↔ finding ∈ other.listed

theorem decoded_report_sameFindings (major minor patch : Nat) (state_bit status_bit : Bool)
    (hash_digits : List Nat) {fs gs : List Finding} (hmem : ∀ f, f ∈ fs ↔ f ∈ gs) :
    SameFindings (decoded_report major minor patch state_bit status_bit hash_digits fs)
      (decoded_report major minor patch state_bit status_bit hash_digits gs) := by
  refine ⟨rfl, rfl, rfl, rfl, ?_⟩
  intro finding
  simp only [listed_decoded_report, List.mem_map, mem_regroup, hmem]

/-- Compressing a decoded report succeeds and gives a normal form: the same
    report up to order and repetition of its findings, which decoding and
    compressing reproduce. -/
theorem ReportEncoder.compress_report_normal_form {types_list : List String} {self : ReportEncoder}
    (hinit : ReportEncoder.init types_list = .ok self) {h : String} (hlong : 68 ≤ h.toList.length)
    {decoded : Report} (hdecode : self.decode_report h = .ok decoded) :
    ∃ h1 decoded1, self.compress_report decoded = .ok h1 ∧ self.decode_report h1 = .ok decoded1 ∧
      SameFindings decoded decoded1 ∧ self.compress_report decoded1 = .ok h1 := by
  obtain ⟨major, minor, patch, state_bit, status_bit, ds, fs, rfl, hcompresses⟩ :=
    self.decode_report_fields hinit hlong hdecode
  obtain ⟨cs, hcs⟩ := hcompresses.exists_hex
  rw [← String.toList_ofList (l := cs)] at hcs
  have hdecode1 := self.decode_report_compressed hcompresses hcs (String.ofList cs) (by simp)
  have hmem : ∀ f, f ∈ fs ↔ f ∈ (regroup Finding.type fs).eraseDups := by
    intro f
    rw [lib.ordered.mem_eraseDups, mem_regroup]
  have hencodable1 : ∀ f ∈ (regroup Finding.type fs).eraseDups, self.Encodable f :=
    fun f hf => hcompresses.encodable f (lib.ordered.mem_eraseDups.mp hf)
  obtain ⟨hash, _, hds⟩ := hcompresses.contract_hash
  have hcompresses1 := self.compresses_decoded hcompresses.major_lt hcompresses.minor_lt
    hcompresses.patch_lt state_bit status_bit hcompresses.hash_length hds.lt hencodable1
  refine ⟨String.ofList cs, _, ?_, hdecode1,
    decoded_report_sameFindings major minor patch state_bit status_bit ds hmem, ?_⟩
  · rw [self.compress_report_eq_ok_iff, self.compress_eq_ok_iff]
    exact ⟨_, _, _, _, _, _, _, hcompresses, hcs⟩
  · rw [self.compress_report_eq_ok_iff, self.compress_eq_ok_iff]
    refine ⟨_, _, _, _, _, _, _, hcompresses1, ?_⟩
    rw [ReportEncoder.report_bits, eraseDups_regroup_idem]
    exact hcs

/-- Findings of two types in turn, one of them twice and one with an end line
    difference of zero. -/
def interleaved (c : Char) : String :=
  String.ofList ("2007".toList ++ List.replicate 64 c ++
    "110005".toList ++ "05800700".toList ++ "110005".toList ++ "11800504".toList)

theorem compress_report_normal_form_interleaved :
    ∃ decoded h1 decoded1, report_encoder.decode_report (interleaved 'a') = .ok decoded ∧
      report_encoder.compress_report decoded = .ok h1 ∧ report_encoder.decode_report h1 = .ok decoded1 ∧
      SameFindings decoded decoded1 ∧ report_encoder.compress_report decoded1 = .ok h1 := by
  have hsome : (report_encoder.decode_report (interleaved 'a')).toOption.isSome := by decide +kernel
  cases hdecode : report_encoder.decode_report (interleaved 'a') with
  | error e => simp [hdecode, Except.toOption] at hsome
  | ok decoded =>
    obtain ⟨h1, decoded1, hnormal⟩ := report_encoder.compress_report_normal_form init_report_encoder
      (by decide) hdecode
    exact ⟨decoded, h1, decoded1, rfl, hnormal⟩

end qsp.report_processing
