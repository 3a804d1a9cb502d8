import QspNode.ReportProcessing.RoundTrip

open lib.positional lib.python lib.records qsp.report

namespace qsp.report_processing

/-- A complete vulnerability record: a type of the table, the flag, the whole
    start line and, exactly under the flag, the whole end line difference. -/
def ReportEncoder.Record (self : ReportEncoder) (b : Bitstring) : Prop :=
  ∃ (id : Bitstring) (flag : Bool) (start_line end_line_diff : Bitstring),
    (∃ name, self.vulnerability_types_inverted id = some name) ∧
    start_line.length = START_LINE_SIZE - 1 ∧
    end_line_diff.length = (if flag then END_LINE_SIZE else 0) ∧
    b = id ++ flag :: (start_line ++ end_line_diff)

/-- A record that ends inside its last field, which has kept at least one
    bit. -/
def ReportEncoder.CutRecord (self : ReportEncoder) (b : Bitstring) : Prop :=
  ∃ (id : Bitstring) (flag : Bool) (body : Bitstring),
    (∃ name, self.vulnerability_types_inverted id = some name) ∧
    b = id ++ flag :: body ∧ body ≠ [] ∧
    body.length < START_LINE_SIZE - 1 + (if flag then END_LINE_SIZE else 0) ∧
    (flag = true → START_LINE_SIZE - 1 < body.length)

inductive ReportEncoder.Records (self : ReportEncoder) : Bitstring → Prop
  | nil : ReportEncoder.Records self []
  | cons {b rest : Bitstring} (hrecord : self.Record b) (hrest : ReportEncoder.Records self rest) :
      ReportEncoder.Records self (b ++ rest)

/-- Complete records before a cut one. -/
inductive ReportEncoder.CutRecords (self : ReportEncoder) : Bitstring → Prop
  | last {b : Bitstring} (hcut : self.CutRecord b) : ReportEncoder.CutRecords self b
  | cons {b rest : Bitstring} (hrecord : self.Record b)
      (hrest : ReportEncoder.CutRecords self rest) : ReportEncoder.CutRecords self (b ++ rest)

/-- The length of the record at the front of a bitstring, which its flag
    decides. -/
def record_size (b : Bitstring) : Nat :=
  VULNERABILITY_TYPE_SIZE + START_LINE_SIZE +
    if b[VULNERABILITY_TYPE_SIZE]? = some true then END_LINE_SIZE else 0

theorem record_size_append {id : Bitstring} (hid : id.length = VULNERABILITY_TYPE_SIZE) (flag : Bool)
    (body : Bitstring) :
    record_size (id ++ flag :: body) =
      VULNERABILITY_TYPE_SIZE + START_LINE_SIZE + if flag then END_LINE_SIZE else 0 := by
  rw [record_size, List.getElem?_append_right (le_of_eq hid), hid]
  cases flag <;> rfl

theorem ReportEncoder.Record.length_eq {self : ReportEncoder} {b : Bitstring}
    (hrecord : self.Record b) (rest : Bitstring) : b.length = record_size (b ++ rest) := by
  obtain ⟨id, flag, start_line, end_line_diff, ⟨name, hname⟩, hstart, hend, rfl⟩ := hrecord
  have hid := self.inverted_size _ _ hname
  rw [List.append_assoc, List.cons_append, record_size_append hid]
  simp only [List.length_append, List.length_cons, hid, hstart, hend, START_LINE_SIZE]
  omega

theorem ReportEncoder.CutRecord.length_lt {self : ReportEncoder} {b : Bitstring}
    (hcut : self.CutRecord b) : b.length < record_size b := by
  obtain ⟨id, flag, body, ⟨name, hname⟩, rfl, _, hlt, _⟩ := hcut
  have hid := self.inverted_size _ _ hname
  rw [record_size_append hid]
  simp only [List.length_append, List.length_cons, hid, START_LINE_SIZE] at hlt ⊢
  omega

/-- A bitstring of complete records is cut nowhere. -/
theorem ReportEncoder.Records.not_cut {self : ReportEncoder} {bs : Bitstring}
    (hrecords : self.Records bs) : ¬ self.CutRecords bs := by
  induction hrecords with
  | nil =>
    intro hcut
    generalize hnil : ([] : Bitstring) = bs at hcut
    cases hcut with
    | last hcut =>
      obtain ⟨_, _, _, _, rfl, _⟩ := hcut
      simp at hnil
    | cons hrecord _ =>
      obtain ⟨_, _, _, _, _, _, _, rfl⟩ := hrecord
      simp at hnil
  | @cons b rest hrecord _ ih =>
    intro hcut
    generalize hbs : b ++ rest = bs at hcut
    cases hcut with
    | last hcut =>
      have hlt := hcut.length_lt
      rw [← hbs, ← hrecord.length_eq, List.length_append] at hlt
      omega
    | @cons b' rest' hrecord' hrest' =>
      have hlength : b.length = b'.length := by
        rw [hrecord.length_eq rest, hbs, ← hrecord'.length_eq]
      obtain ⟨rfl, rfl⟩ := List.append_inj hbs hlength
      exact ih hrest'

theorem ReportEncoder.Record.ne_nil {self : ReportEncoder} {b : Bitstring} (hrecord : self.Record b) :
    b ≠ [] := by
  obtain ⟨_, _, _, _, _, _, _, rfl⟩ := hrecord
  simp

/-- When a round of the decoder succeeds, whatever finding it reads. -/
theorem ReportEncoder.decode_vulnerability_ok_iff {self : ReportEncoder} {b rest : Bitstring} :
    (∃ f, self.decode_vulnerability b = .ok (f, rest)) ↔
      ∃ (id : Bitstring) (flag : Bool) (body : Bitstring),
        (∃ name, self.vulnerability_types_inverted id = some name) ∧ b = id ++ flag :: body ∧
        body ≠ [] ∧
        rest = body.drop (START_LINE_SIZE - 1 + if flag then END_LINE_SIZE else 0) ∧
        (flag = true → body.drop (START_LINE_SIZE - 1) ≠ []) := by
  simp only [self.decode_vulnerability_eq_ok_iff]
  constructor
  · intro hread
    obtain ⟨f, id, flag, body, hname, hb, hbody, _, hrest, hend⟩ := hread
    refine ⟨id, flag, body, ⟨f.type, hname⟩, hb, hbody, hrest, ?_⟩
    rintro rfl
    exact hend.1
  · intro hround
    obtain ⟨id, flag, body, ⟨name, hname⟩, hb, hbody, hrest, hend⟩ := hround
    cases flag with
    | false => exact ⟨⟨name, _, _⟩, id, false, body, hname, hb, hbody, rfl, hrest, rfl⟩
    | true => exact ⟨⟨name, _, _⟩, id, true, body, hname, hb, hbody, rfl, hrest, hend rfl, rfl⟩

theorem ReportEncoder.Record.decode {self : ReportEncoder} {b : Bitstring} (hrecord : self.Record b)
    (rest : Bitstring) : ∃ f, self.decode_vulnerability (b ++ rest) = .ok (f, rest) := by
  obtain ⟨id, flag, start_line, end_line_diff, hname, hstart, hend, rfl⟩ := hrecord
  have hbody : start_line ++ (end_line_diff ++ rest) ≠ [] := by
    intro hnil
    rw [List.append_eq_nil_iff] at hnil
    rw [hnil.1] at hstart
    cases hstart
  have htail : (start_line ++ (end_line_diff ++ rest)).drop (START_LINE_SIZE - 1) =
      end_line_diff ++ rest := List.drop_left' hstart
  have hrest : rest = (start_line ++ (end_line_diff ++ rest)).drop
      (START_LINE_SIZE - 1 + if flag then END_LINE_SIZE else 0) := by
    rw [← List.drop_drop, htail, List.drop_left' hend]
  rw [List.append_assoc, List.cons_append, List.append_assoc]
  refine decode_vulnerability_ok_iff.mpr ⟨id, flag, _, hname, rfl, hbody, hrest, ?_⟩
  rintro rfl hnil
  rw [htail, List.append_eq_nil_iff] at hnil
  rw [hnil.1] at hend
  cases hend

theorem ReportEncoder.CutRecord.decode {self : ReportEncoder} {b : Bitstring}
    (hcut : self.CutRecord b) : ∃ f, self.decode_vulnerability b = .ok (f, []) := by
  obtain ⟨id, flag, body, hname, rfl, hbody, hlt, hend⟩ := hcut
  have hrest : [] = body.drop (START_LINE_SIZE - 1 + if flag then END_LINE_SIZE else 0) :=
    (List.drop_eq_nil_of_le (le_of_lt hlt)).symm
  refine decode_vulnerability_ok_iff.mpr ⟨id, flag, body, hname, rfl, hbody, hrest, ?_⟩
  intro hflag hnil
  have hshort := List.drop_eq_nil_iff.mp hnil
  have hlong := hend hflag
  omega

/-- The loop of `__decode_vulnerabilities` accepts complete records and also a
    last record that is cut. -/
theorem ReportEncoder.decode_vulnerabilities_ok_iff (self : ReportEncoder) (bs : Bitstring) :
    (∃ fs, self.decode_vulnerabilities bs = .ok fs) ↔ self.Records bs ∨ self.CutRecords bs := by
  simp only [decode_vulnerabilities, readToEnd_eq_ok_iff self.decode_vulnerability_shortens]
  have hround {bs rest : Bitstring} {f : Finding}
      (hread : self.decode_vulnerability bs = .ok (f, rest)) :
      (self.CutRecord bs ∧ rest = []) ∨ ∃ b, self.Record b ∧ bs = b ++ rest := by
    obtain ⟨id, flag, body, hname, rfl, hbody, rfl, hend⟩ := decode_vulnerability_ok_iff.mp ⟨f, hread⟩
    by_cases hwhole : START_LINE_SIZE - 1 + (if flag then END_LINE_SIZE else 0) ≤ body.length
    · refine Or.inr ⟨_, ⟨id, flag, body.take (START_LINE_SIZE - 1),
        (body.drop (START_LINE_SIZE - 1)).take (if flag then END_LINE_SIZE else 0), hname,
        ?_, ?_, rfl⟩, ?_⟩
      · rw [List.length_take]
        omega
      · rw [List.length_take, List.length_drop]
        omega
      · rw [List.append_assoc, List.cons_append, List.append_assoc, ← List.drop_drop,
          List.take_append_drop, List.take_append_drop]
    · refine Or.inl ⟨⟨id, flag, body, hname, rfl, hbody, by omega, ?_⟩,
        List.drop_eq_nil_of_le (by omega)⟩
      rintro rfl
      by_contra hshort
      exact hend rfl (List.drop_eq_nil_of_le (by omega))
  constructor
  · rintro ⟨fs, hreads⟩
    induction hreads with
    | nil => exact Or.inl .nil
    | cons _ hread _ ih =>
      rcases hround hread with ⟨hcut, _⟩ | ⟨b, hrecord, rfl⟩
      · exact Or.inr (.last hcut)
      · exact ih.imp (.cons hrecord) (.cons hrecord)
  · rintro (hrecords | hrecords)
    · induction hrecords with
      | nil => exact ⟨[], .nil⟩
      | @cons b rest hrecord _ ih =>
        obtain ⟨fs, hreads⟩ := ih
        obtain ⟨f, hread⟩ := hrecord.decode rest
        exact ⟨f :: fs, .cons (by simp [hrecord.ne_nil]) hread hreads⟩
    · induction hrecords with
      | @last b hcut =>
        obtain ⟨f, hread⟩ := hcut.decode
        obtain ⟨_, _, _, _, rfl, _⟩ := hcut
        exact ⟨[f], .cons (by simp) hread .nil⟩
      | @cons b rest hrecord _ ih =>
        obtain ⟨fs, hreads⟩ := ih
        obtain ⟨f, hread⟩ := hrecord.decode rest
        exact ⟨f :: fs, .cons (by simp [hrecord.ne_nil]) hread hreads⟩

theorem to_hex_ok_iff {b : Bitstring} : (∃ cs, to_hex b = .ok cs) ↔ b ≠ [] ∧ b.length % 4 = 0 := by
  simp only [to_hex_eq_ok_iff]
  constructor
  · rintro ⟨_, ds, hne, _, rfl, _⟩
    rw [length_nibbles_to_bits]
    refine ⟨?_, Nat.mul_mod_right 4 ds.length⟩
    intro hnil
    have hlength := congrArg List.length hnil
    rw [length_nibbles_to_bits, List.length_nil] at hlength
    exact hne (List.length_eq_zero_iff.mp (by omega))
  · rintro ⟨hne, hmod⟩
    obtain ⟨ds, _, hbound, rfl⟩ := exists_nibbles (b := b) (n := b.length / 4) (by omega)
    refine ⟨_, ds, ?_, hbound, rfl, rfl⟩
    rintro rfl
    exact hne rfl

/-- The decoder asks for a whole header and for one digit of the hash. -/
theorem ReportEncoder.decode_bits_ok_iff (self : ReportEncoder) {b : Bitstring}
    (hdigits : b.length % 4 = 0) :
    (∃ decoded, self.decode_bits b = .ok decoded) ↔
      HEADER_SIZE < b.length ∧
        (self.Records (b.drop VULNERABILITIES_START) ∨
          self.CutRecords (b.drop VULNERABILITIES_START)) := by
  have hheader := decode_header_bytes_ok_iff (b := b.take HEADER_SIZE) (List.length_take_le ..)
  have hhash := to_hex_ok_iff (b := slice b HEADER_SIZE (HEADER_SIZE + CONTRACT_HASH_SIZE))
  have hhash_length : (slice b HEADER_SIZE (HEADER_SIZE + CONTRACT_HASH_SIZE)).length =
      min CONTRACT_HASH_SIZE (b.length - HEADER_SIZE) := by
    rw [slice, List.length_take, List.length_drop, Nat.add_sub_cancel_left]
  rw [← List.length_pos_iff, hhash_length] at hhash
  rw [List.length_take] at hheader
  rw [← self.decode_vulnerabilities_ok_iff]
  simp only [CONTRACT_HASH_SIZE, HEADER_SIZE] at hheader hhash ⊢
  constructor
  · rintro ⟨decoded, hok⟩
    simp only [decode_bits, bind_eq_ok_iff] at hok
    obtain ⟨header, hok_header, hash, hok_hash, fs, hok_fs, _⟩ := hok
    have hpos := (hhash.mp ⟨hash, hok_hash⟩).1
    exact ⟨by omega, fs, hok_fs⟩
  · rintro ⟨hlong, fs, hok_fs⟩
    obtain ⟨header, hok_header⟩ := hheader.mpr (by omega)
    obtain ⟨hash, hok_hash⟩ := hhash.mpr (by omega)
    refine ⟨produce_json header.1 header.2.1 header.2.2 (String.ofList hash) fs, ?_⟩
    simp only [decode_bits, bind_eq_ok_iff]
    exact ⟨header, hok_header, hash, hok_hash, fs, hok_fs, rfl⟩

theorem exists_hexDigits_iff {cs : List Char} (hascii : ∀ c ∈ cs, c.toNat < 128) :
    (∃ ds, HexDigits cs ds) ↔ ∀ c ∈ cs, is_hex_digit c := by
  induction cs with
  | nil =>
    simp only [List.not_mem_nil, false_implies, implies_true, iff_true]
    exact ⟨[], .nil⟩
  | cons c cs ih =>
    rw [List.forall_mem_cons, ← isSome_digit_iff (hascii c (by simp)),
      ← ih (fun d hd => hascii d (by simp [hd]))]
    constructor
    · rintro ⟨_, hdigits⟩
      cases hdigits with
      | cons hhead htail => exact ⟨by simp [hhead], _, htail⟩
    · rintro ⟨hhead, ds, htail⟩
      obtain ⟨d, hd⟩ := Option.isSome_iff_exists.mp hhead
      exact ⟨d :: ds, .cons hd htail⟩

/-- The documented format: hex digits that spell a header, a whole contract hash
    and complete records. -/
def ReportEncoder.WellFormed (self : ReportEncoder) (h : String) : Prop :=
  (∀ c ∈ h.toList, is_hex_digit c) ∧
    ∃ b_header b_hash b_records : Bitstring,
      Spells h.toList (b_header ++ b_hash ++ b_records) ∧
      b_header.length = HEADER_SIZE ∧ b_hash.length = CONTRACT_HASH_SIZE ∧ self.Records b_records

/-- Hex digits that end inside the contract hash, after its first digit, or
    inside the last field of the last record, after its first bit. -/
def ReportEncoder.CutShort (self : ReportEncoder) (h : String) : Prop :=
  (∀ c ∈ h.toList, is_hex_digit c) ∧
    ((4 < h.toList.length ∧ h.toList.length < 68) ∨
      ∃ b_header b_hash b_records : Bitstring,
        Spells h.toList (b_header ++ b_hash ++ b_records) ∧
        b_header.length = HEADER_SIZE ∧ b_hash.length = CONTRACT_HASH_SIZE ∧
        self.CutRecords b_records)

theorem Spells.length_eq {cs : List Char} {b : Bitstring} (hspells : Spells cs b) :
    b.length = 4 * cs.length := by
  obtain ⟨_, ds, hdigits, rfl⟩ := hspells
  rw [length_nibbles_to_bits, hdigits.length_eq]

theorem Spells.unique {cs : List Char} {a b : Bitstring} (ha : Spells cs a) (hb : Spells cs b) :
    a = b := by
  obtain ⟨_, ds, hds, rfl⟩ := ha
  obtain ⟨_, es, hes, rfl⟩ := hb
  rw [hds.unique hes]

theorem VULNERABILITIES_START_eq : VULNERABILITIES_START = 272 := rfl

/-- The bits of a report that reaches past its hash, cut at the field bounds. -/
theorem exists_fields_iff {cs : List Char} {b : Bitstring} (hspells : Spells cs b)
    (p : Bitstring → Prop) :
    (∃ b_header b_hash b_records : Bitstring, Spells cs (b_header ++ b_hash ++ b_records) ∧
        b_header.length = HEADER_SIZE ∧ b_hash.length = CONTRACT_HASH_SIZE ∧ p b_records) ↔
      68 ≤ cs.length ∧ p (b.drop VULNERABILITIES_START) := by
  have hlength := hspells.length_eq
  constructor
  · rintro ⟨b_header, b_hash, b_records, hfields, hheader, hhash, hp⟩
    obtain rfl := hspells.unique hfields
    have hprefix : (b_header ++ b_hash).length = VULNERABILITIES_START := by
      rw [List.length_append, hheader, hhash]
      rfl
    rw [← hprefix, List.drop_left]
    refine ⟨?_, hp⟩
    rw [List.length_append, hprefix, VULNERABILITIES_START_eq] at hlength
    omega
  · rintro ⟨hlong, hp⟩
    refine ⟨b.take HEADER_SIZE, (b.drop HEADER_SIZE).take CONTRACT_HASH_SIZE,
      b.drop VULNERABILITIES_START, ?_, ?_, ?_, hp⟩
    · have hdrop : b.drop VULNERABILITIES_START = (b.drop HEADER_SIZE).drop CONTRACT_HASH_SIZE := by
        rw [List.drop_drop]
        rfl
      rw [hdrop, List.append_assoc, List.take_append_drop, List.take_append_drop]
      exact hspells
    · rw [List.length_take, HEADER_SIZE]
      omega
    · rw [List.length_take, List.length_drop, HEADER_SIZE, CONTRACT_HASH_SIZE]
      omega

/-- What the decoder accepts: the documented format and two kinds of strings
    that end too early. -/
theorem ReportEncoder.decode_report_ok_iff (self : ReportEncoder) {h : String} (hascii : is_ascii h) :
    (∃ decoded, self.decode_report h = .ok decoded) ↔ self.WellFormed h ∨ self.CutShort h := by
  by_cases hspells : ∃ b, Spells h.toList b
  · obtain ⟨b, hspells⟩ := hspells
    have hdigits : ∀ c ∈ h.toList, is_hex_digit c := by
      obtain ⟨_, ds, hds, _⟩ := hspells
      exact (exists_hexDigits_iff hascii).mp ⟨ds, hds⟩
    have hlength := hspells.length_eq
    have hdecode : self.decode_report h = self.decode_bits b := by
      rw [decode_report, hex_to_bitstring_zero_iff.mpr hspells]
      rfl
    rw [hdecode, self.decode_bits_ok_iff (by omega), WellFormed, CutShort,
      exists_fields_iff hspells, exists_fields_iff hspells, and_iff_right hdigits,
      and_iff_right hdigits, HEADER_SIZE]
    by_cases hlong : 68 ≤ h.toList.length
    · have hhash : 16 < b.length := by omega
      have hnot : ¬ (4 < h.toList.length ∧ h.toList.length < 68) := by omega
      rw [and_iff_right hhash, and_iff_right hlong, and_iff_right hlong, or_iff_right hnot]
    · have hnil : b.drop VULNERABILITIES_START = [] :=
        List.drop_eq_nil_of_le (by rw [VULNERABILITIES_START_eq]; omega)
      have hrecords : self.Records [] := .nil
      rw [hnil, and_iff_left (Or.inl hrecords)]
      omega
  · have hreject : ¬ ∃ decoded, self.decode_report h = .ok decoded := by
      rintro ⟨decoded, hok⟩
      rw [decode_report, bind_eq_ok_iff] at hok
      obtain ⟨b, hbits, _⟩ := hok
      exact hspells ⟨b, hex_to_bitstring_zero_iff.mp hbits⟩
    have hempty (hdigits : ∀ c ∈ h.toList, is_hex_digit c) : h.toList = [] := by
      by_contra hne
      obtain ⟨ds, hds⟩ := (exists_hexDigits_iff hascii).mpr hdigits
      exact hspells ⟨_, hne, ds, hds, rfl⟩
    constructor
    · exact fun hok => absurd hok hreject
    · rintro (⟨_, _, _, _, hfields, _⟩ | ⟨hdigits, ⟨hlong, _⟩ | ⟨_, _, _, hfields, _⟩⟩)
      · exact absurd ⟨_, hfields⟩ hspells
      · rw [hempty hdigits] at hlong
        simp at hlong
      · exact absurd ⟨_, hfields⟩ hspells

theorem ReportEncoder.WellFormed.not_cutShort {self : ReportEncoder} {h : String}
    (hformed : self.WellFormed h) : ¬ self.CutShort h := by
  obtain ⟨_, b_header, b_hash, b_records, hfields, hheader, hhash, hrecords⟩ := hformed
  obtain ⟨hlong, hrecords⟩ := (exists_fields_iff hfields _).mp
    ⟨_, _, _, hfields, hheader, hhash, hrecords⟩
  rintro ⟨_, ⟨_, hshort⟩ | hcut⟩
  · omega
  · exact hrecords.not_cut ((exists_fields_iff hfields _).mp hcut).2

/-- On ASCII strings the decoder accepts exactly the documented format, up to
    the strings that end inside the hash or inside the last record. -/
theorem ReportEncoder.decode_report_accepts_iff (self : ReportEncoder) {h : String}
    (hascii : is_ascii h) :
    ((∃ decoded, self.decode_report h = .ok decoded) ↔ self.WellFormed h) ↔ ¬ self.CutShort h := by
  rw [self.decode_report_ok_iff hascii]
  constructor
  · intro hiff hcut
    exact (hiff.mp (Or.inr hcut)).not_cutShort hcut
  · intro hnot
    exact or_iff_left hnot

/-- Two digits of contract hash. -/
theorem decode_report_accepts_two_hash_digits :
    ((∃ decoded, report_encoder.decode_report "200711" = .ok decoded) ↔
      report_encoder.WellFormed "200711") ↔ ¬ report_encoder.CutShort "200711" :=
  report_encoder.decode_report_accepts_iff (by decide)

theorem decode_report_truncated_hash :
    ¬ ((∃ decoded, report_encoder.decode_report "200711" = .ok decoded) ↔
      report_encoder.WellFormed "200711") := by
  have hcut : report_encoder.CutShort "200711" :=
    ⟨List.all_eq_true.mp (by decide), Or.inl (by decide)⟩
  have hok : ∃ decoded, report_encoder.decode_report "200711" = .ok decoded :=
    (report_encoder.decode_report_ok_iff (by decide)).mpr (Or.inr hcut)
  intro hiff
  exact (hiff.mp hok).not_cutShort hcut

end qsp.report_processing
