import QspNode.ReportProcessing.Codec

open lib.positional lib.python qsp.report

namespace qsp.report_processing

/-- The bits of a compressed report decode to its header, hash and distinct
    findings. -/
theorem ReportEncoder.decode_bits_report_bits (self : ReportEncoder) {report : Report}
    {major minor patch : Nat} {state_bit status_bit : Bool} {hash_digits : List Nat}
    {fs : List Finding}
    (hcompresses : Compresses self report major minor patch state_bit status_bit hash_digits fs) :
    self.decode_bits
        (self.report_bits major minor patch state_bit status_bit hash_digits fs) =
      .ok (produce_json (version_text [(major : Int), (minor : Int), (patch : Int)])
        (if state_bit then AUDIT_STATE_SUCCESS else AUDIT_STATE_ERROR)
        (if status_bit then AUDIT_STATUS_SUCCESS else AUDIT_STATUS_ERROR)
        (String.ofList (hash_digits.map hex_char)) fs.eraseDups) := by
  obtain ⟨hash, _, hdigits⟩ := hcompresses.contract_hash
  have hhash_bits : (nibbles_to_bits hash_digits).length = CONTRACT_HASH_SIZE := by
    rw [length_nibbles_to_bits, hcompresses.hash_length]
    rfl
  have htake : (self.report_bits major minor patch state_bit status_bit hash_digits fs).take
      HEADER_SIZE = header_bits major minor patch state_bit status_bit := by
    rw [report_bits, List.append_assoc]
    exact List.take_left' (length_header_bits ..)
  have hslice : slice (self.report_bits major minor patch state_bit status_bit hash_digits fs)
      HEADER_SIZE (HEADER_SIZE + CONTRACT_HASH_SIZE) = nibbles_to_bits hash_digits := by
    rw [report_bits, List.append_assoc]
    exact slice_append (length_header_bits ..) (by rw [hhash_bits]; rfl)
  have hdrop : (self.report_bits major minor patch state_bit status_bit hash_digits fs).drop
      VULNERABILITIES_START = fs.eraseDups.flatMap self.record := by
    rw [report_bits]
    apply List.drop_left'
    rw [List.length_append, length_header_bits, hhash_bits]
    rfl
  have hheader := decode_header_bytes_fields state_bit status_bit
    (length_format_bits MAJOR_VERSION_SIZE major) (length_format_bits MINOR_VERSION_SIZE minor)
    (length_format_bits PATCH_VERSION_SIZE patch)
  rw [bits_value_format_bits hcompresses.major_lt, bits_value_format_bits hcompresses.minor_lt,
    bits_value_format_bits hcompresses.patch_lt] at hheader
  have hhex : to_hex (nibbles_to_bits hash_digits) = .ok (hash_digits.map hex_char) := by
    rw [to_hex_eq_ok_iff]
    refine ⟨hash_digits, ?_, hdigits.lt, rfl, rfl⟩
    rintro rfl
    cases hcompresses.hash_length
  have hencodable : ∀ f ∈ fs.eraseDups, self.Encodable f :=
    fun f hf => hcompresses.encodable f (lib.ordered.mem_eraseDups.mp hf)
  have hfindings := self.decode_vulnerabilities_records hencodable
  rw [decode_bits, htake, header_bits, hheader, hslice, hdrop, hhex, hfindings]
  rfl

/-- A compressed report decodes in upper and in lower case, to the same
    report. -/
theorem ReportEncoder.decode_report_compressed (self : ReportEncoder) {report : Report}
    {major minor patch : Nat} {state_bit status_bit : Bool} {hash_digits : List Nat}
    {fs : List Finding} {h : String}
    (hcompresses : Compresses self report major minor patch state_bit status_bit hash_digits fs)
    (hhex : to_hex (self.report_bits major minor patch state_bit status_bit hash_digits fs) =
      .ok h.toList) :
    ∀ spelling ∈ [h, lower h], self.decode_report spelling =
      .ok (produce_json (version_text [(major : Int), (minor : Int), (patch : Int)])
        (if state_bit then AUDIT_STATE_SUCCESS else AUDIT_STATE_ERROR)
        (if status_bit then AUDIT_STATUS_SUCCESS else AUDIT_STATUS_ERROR)
        (String.ofList (hash_digits.map hex_char)) fs.eraseDups) := by
  obtain ⟨ds, hne, hbound, hbits, hchars⟩ := to_hex_eq_ok_iff.mp hhex
  obtain ⟨hupper, hlower⟩ := spells_hex_chars hne hbound
  rw [← self.decode_bits_report_bits hcompresses, hbits]
  intro spelling hspelling
  have hspells : Spells spelling.toList (nibbles_to_bits ds) := by
    rw [List.mem_cons, List.mem_singleton] at hspelling
    rcases hspelling with rfl | rfl
    · rwa [hchars]
    · rwa [lower, String.toList_ofList, hchars]
  rw [decode_report, hex_to_bitstring_zero_iff.mpr hspells]
  rfl

/-- `decoded` is the report that went into the encoder, in the layout of the
    compressed format. -/
structure RoundTrips (report decoded : Report) : Prop where
  version : ∃ major minor patch,
    report.version.bind version_numbers = some [major, minor, patch] ∧
      decoded.version.bind version_numbers = some [major, minor, patch]
  audit_state : decoded.audit_state = report.audit_state
  status : decoded.status = report.status
  contract_hash : decoded.contract_hash = report.contract_hash.map upper
  analyzers_reports : ∃ fs, report.findings = some fs ∧
    decoded.analyzers_reports = some
      [{ analyzer := some UNKNOWN_ANALYZER
         status := report.status
         start_time := none
         end_time := none
         errors := none
         potential_vulnerabilities := some (grouped UNKNOWN_FILE fs.eraseDups) }]

def is_ascii (s : String) : Prop := ∀ c ∈ s.toList, c.toNat < 128

instance (s : String) : Decidable (is_ascii s) := List.decidableBAll _ _

theorem toUpper_of_not_ascii {c : Char} (hnot : ¬ c.toNat < 128) : c.toUpper = c := by
  apply dif_neg
  rintro ⟨_, hle⟩
  have hle : c.toNat ≤ 122 := hle
  omega

/-- An upper-cased digit is the digit the encoder prints exactly when it is an
    ASCII one. -/
theorem toUpper_eq_hex_char_iff {c : Char} {d : Nat} (hdigit : digit 16 c = some d) :
    c.toUpper = hex_char d ↔ c.toNat < 128 := by
  have hlt : d < 16 := (digit_eq_some_iff.mp hdigit).2
  constructor
  · intro heq
    have hprinted : ∀ d < 16, (hex_char d).toNat < 128 := by decide
    by_contra hnot
    rw [toUpper_of_not_ascii hnot] at heq
    exact hnot (heq ▸ hprinted d hlt)
  · intro hascii
    exact forall_ascii (p := fun c => ∀ d < 16, digit 16 c = some d → c.toUpper = hex_char d)
      (by decide +kernel) hascii d hlt hdigit

theorem upper_eq_hex_chars_iff {hash : String} {ds : List Nat} (hdigits : HexDigits hash.toList ds) :
    upper hash = String.ofList (ds.map hex_char) ↔ is_ascii hash := by
  rw [upper, is_ascii, String.ofList_inj]
  generalize hash.toList = cs at hdigits
  induction hdigits with
  | nil => simp
  | cons hhead _ ih =>
    rw [List.map_cons, List.map_cons, List.cons.injEq, toUpper_eq_hex_char_iff hhead, ih,
      List.forall_mem_cons]

/-- The decoder's output is the report that went in, if and only if its hash is
    written in ASCII: `int` also takes the decimal digits of other scripts, which
    come back as ASCII ones. -/
theorem roundTrips_iff (self : ReportEncoder) {report : Report} {major minor patch : Nat}
    {state_bit status_bit : Bool} {hash_digits : List Nat} {fs : List Finding}
    (hcompresses : Compresses self report major minor patch state_bit status_bit hash_digits fs) :
    RoundTrips report
        (produce_json (version_text [(major : Int), (minor : Int), (patch : Int)])
          (if state_bit then AUDIT_STATE_SUCCESS else AUDIT_STATE_ERROR)
          (if status_bit then AUDIT_STATUS_SUCCESS else AUDIT_STATUS_ERROR)
          (String.ofList (hash_digits.map hex_char)) fs.eraseDups) ↔
      ∀ hash, report.contract_hash = some hash → is_ascii hash := by
  obtain ⟨hash, hhash, hdigits⟩ := hcompresses.contract_hash
  rw [produce_json_eq, hhash]
  constructor
  · rintro ⟨_, _, _, hupper, _⟩ _ ⟨⟩
    rw [hhash, Option.map_some, Option.some.injEq] at hupper
    exact (upper_eq_hex_chars_iff hdigits).mp hupper.symm
  · intro hascii
    refine ⟨⟨major, minor, patch, hcompresses.version, ?_⟩, hcompresses.audit_state.symm,
      hcompresses.status.symm, ?_, ⟨fs, hcompresses.findings, ?_⟩⟩
    · exact version_numbers_version_text (by simp)
    · rw [hhash, Option.map_some, (upper_eq_hex_chars_iff hdigits).mpr (hascii hash rfl)]
    · rw [hcompresses.status]

/-- An accepted report comes back from its compressed form, in upper and in
    lower case, exactly when its contract hash is written in ASCII. -/
theorem ReportEncoder.compress_report_round_trip_iff (self : ReportEncoder) {report : Report}
    {h : String} (hcompress : self.compress_report report = .ok h) :
    (∀ spelling ∈ [h, lower h], ∃ decoded,
        self.decode_report spelling = .ok decoded ∧ RoundTrips report decoded) ↔
      ∀ hash, report.contract_hash = some hash → is_ascii hash := by
  rw [self.compress_report_eq_ok_iff, self.compress_eq_ok_iff] at hcompress
  obtain ⟨_, _, _, _, _, _, _, hcompresses, hhex⟩ := hcompress
  have hdecode := self.decode_report_compressed hcompresses hhex
  rw [← roundTrips_iff self hcompresses]
  constructor
  · intro hround
    obtain ⟨decoded, hdecoded, htrips⟩ := hround h (by simp)
    rw [hdecode h (by simp), Except.ok.injEq] at hdecoded
    exact hdecoded ▸ htrips
  · intro htrips spelling hspelling
    exact ⟨_, hdecode spelling hspelling, htrips⟩

/-- A hash of one repeated character. -/
def sample_hash (c : Char) : String := String.ofList (List.replicate 64 c)

/-- A report with two instances of one finding and a third one. -/
def sample_report (contract_hash : String) : Report :=
  { requestor := none
    auditor := none
    version := some "2.0.1"
    audit_state := some AUDIT_STATE_SUCCESS
    status := some AUDIT_STATUS_SUCCESS
    contract_hash := some contract_hash
    analyzers_reports := some
      [{ analyzer := some { name := some "Securify", version := none }
         status := some AUDIT_STATUS_SUCCESS
         start_time := none
         end_time := none
         errors := none
         potential_vulnerabilities := some
          [{ type := some "other"
             file := some "DAO.sol"
             instances := some
              [{ ref_id := some 0, start_line := some 5, end_line := none },
                { ref_id := some 1, start_line := some 5, end_line := some 5 },
                { ref_id := some 2, start_line := some 5, end_line := some 9 }] }] }] }

/-- The compressed sample report, for the digit its hash repeats. -/
def sample_compressed (c : Char) : String :=
  String.ofList ("2007".toList ++ List.replicate 64 c ++ "110005".toList ++ "11800504".toList)

theorem compress_report_round_trip_ascii :
    (∃ decoded, report_encoder.decode_report (sample_compressed 'A') = .ok decoded ∧
        RoundTrips (sample_report (sample_hash 'a')) decoded) ∧
      ∃ decoded, report_encoder.decode_report (lower (sample_compressed 'A')) = .ok decoded ∧
        RoundTrips (sample_report (sample_hash 'a')) decoded := by
  have hascii (hash : String) (hhash : some (sample_hash 'a') = some hash) : is_ascii hash := by
    obtain rfl := Option.some.inj hhash
    decide +kernel
  have hcompress : report_encoder.compress_report (sample_report (sample_hash 'a')) =
      .ok (sample_compressed 'A') := by
    decide +kernel
  have hround := (report_encoder.compress_report_round_trip_iff hcompress).mpr hascii
  exact ⟨hround _ List.mem_cons_self, hround _ (List.mem_cons_of_mem _ List.mem_cons_self)⟩

/-- A hash of Arabic-Indic digits is accepted and comes back as another
    text. -/
theorem compress_report_round_trip_arabic_digits :
    report_encoder.compress_report (sample_report (sample_hash '١')) = .ok (sample_compressed '1') ∧
      ¬ ∀ spelling ∈ [sample_compressed '1', lower (sample_compressed '1')], ∃ decoded,
        report_encoder.decode_report spelling = .ok decoded ∧
          RoundTrips (sample_report (sample_hash '١')) decoded := by
  refine ⟨by decide +kernel, ?_⟩
  intro hround
  obtain ⟨decoded, hdecoded, htrips⟩ := hround _ List.mem_cons_self
  have hhash : (report_encoder.decode_report (sample_compressed '1')).map Report.contract_hash =
      .ok (some (sample_hash '1')) := by
    decide +kernel
  rw [hdecoded, Except.map, Except.ok.injEq, htrips.contract_hash] at hhash
  revert hhash
  decide +kernel

end qsp.report_processing
