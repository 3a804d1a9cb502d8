import QspNode.Lib.Records
import QspNode.Report
import QspNode.ReportProcessing.Encoder
import QspNode.ReportProcessing.Header

open lib.loops lib.records qsp.report

namespace qsp.report_processing

def START_LINE_SIZE : Nat := 16
def END_LINE_SIZE : Nat := 8

/-- The record of an instance whose type has the given identifier. -/
def encode_lines (b_vulnerability_id : Bitstring) (start_line end_line : Int) :
    Except PyException Bitstring := do
  let one_line : Bool := end_line = 0 ∨ start_line = end_line
  let b_is_end_line ← to_bitstring (if one_line then 0 else 1) 1
  let end_line_diff := if one_line then 0 else end_line - start_line
  let b_start_line ← to_bitstring start_line (START_LINE_SIZE - 1)
  let current_vulnerability := b_vulnerability_id ++ b_is_end_line ++ b_start_line
  if end_line_diff ≠ 0 then
    let b_end_line ← to_bitstring end_line_diff END_LINE_SIZE
    return current_vulnerability ++ b_end_line
  else
    return current_vulnerability

/-- The body of the innermost loop of `ReportEncoder.__encode_vulnerabilities`. -/
def ReportEncoder.encode_instance (self : ReportEncoder) (type_name : Option String)
    (instance_ : Instance) : Except PyException Bitstring := do
  let start_line ← subscript "start_line" instance_.start_line
  let end_line := instance_.end_line.getD 0
  let b_vulnerability_id := (type_name.bind self.vulnerability_types).getD []
  if b_vulnerability_id = [] then
    let type_text := type_name.getD "None"
    throw (.ReportFormattingException s!"Type name not in list of types: {type_text}")
  else
    encode_lines b_vulnerability_id start_line end_line

def ReportEncoder.encode_vulnerability (self : ReportEncoder) (vulnerability : Vulnerability) :
    Except PyException (List Bitstring) := do
  let instances ← subscript "instances" vulnerability.instances
  collect (fun i => do return [← self.encode_instance vulnerability.type i]) instances

/-- `ReportEncoder.__encode_vulnerabilities`. -/
def ReportEncoder.encode_vulnerabilities (self : ReportEncoder)
    (analyzers_reports : List AnalyzerReport) : Except PyException Bitstring := do
  let encoded_vulnerabilities ← collect (fun analyzer_report : AnalyzerReport =>
    collect self.encode_vulnerability (analyzer_report.potential_vulnerabilities.getD []))
    analyzers_reports
  return encoded_vulnerabilities.eraseDups.flatten

/-- One round of the loop of `ReportEncoder.__decode_vulnerabilities`. -/
def ReportEncoder.decode_vulnerability (self : ReportEncoder) (b_vulnerabilities : Bitstring) :
    Except PyException (Finding × Bitstring) := do
  let b_type := b_vulnerabilities.take VULNERABILITY_TYPE_SIZE
  let vulnerability_type ← subscript (show_bits b_type) (self.vulnerability_types_inverted b_type)
  let start_line_bits :=
    slice b_vulnerabilities VULNERABILITY_TYPE_SIZE (VULNERABILITY_TYPE_SIZE + START_LINE_SIZE)
  let is_end_line ← bit_at start_line_bits 0
  let start_line ← from_bitstring (slice start_line_bits 1 START_LINE_SIZE)
  let consumed_bits := VULNERABILITY_TYPE_SIZE + START_LINE_SIZE
  if is_end_line then
    let end_bit := consumed_bits + END_LINE_SIZE
    let end_line_diff ← from_bitstring (slice b_vulnerabilities consumed_bits end_bit)
    return ({ type := vulnerability_type, start_line, end_line := (start_line + end_line_diff : Nat) },
      b_vulnerabilities.drop end_bit)
  else
    return ({ type := vulnerability_type, start_line, end_line := start_line },
      b_vulnerabilities.drop consumed_bits)

/-- `ReportEncoder.__decode_vulnerabilities`. -/
def ReportEncoder.decode_vulnerabilities (self : ReportEncoder) (b_vulnerabilities : Bitstring) :
    Except PyException (List Finding) :=
  readToEnd self.decode_vulnerability b_vulnerabilities

/-- The lines that fit the fields of a record. -/
def LinesFit (start_line end_line : Int) : Prop :=
  0 ≤ start_line ∧ start_line < 2 ^ (START_LINE_SIZE - 1) ∧
    start_line ≤ end_line ∧ end_line - start_line < 2 ^ END_LINE_SIZE

def lines_bits (start_line end_line : Int) : Bitstring :=
  [decide (end_line ≠ start_line)] ++ format_bits (START_LINE_SIZE - 1) start_line.toNat ++
    if end_line = start_line then [] else format_bits END_LINE_SIZE (end_line - start_line).toNat

/-- The findings that have a record: their type is in the table and their lines
    fit. -/
def ReportEncoder.Encodable (self : ReportEncoder) (f : Finding) : Prop :=
  (∃ b, self.vulnerability_types f.type = some b) ∧ LinesFit f.start_line f.end_line

def ReportEncoder.record (self : ReportEncoder) (f : Finding) : Bitstring :=
  (self.vulnerability_types f.type).getD [] ++ lines_bits f.start_line f.end_line

theorem ReportEncoder.types_ne_nil (self : ReportEncoder) {name : String} {b : Bitstring}
    (htype : self.vulnerability_types name = some b) : b ≠ [] := by
  rintro rfl
  have hsize := self.types_size htype
  cases hsize

/-- The encoder's arithmetic on the two lines of an instance: it succeeds
    exactly when they fit the record, whose bits it returns. -/
theorem encode_lines_eq_ok_iff (id : Bitstring) (i : Instance) (start_line : Int) (b : Bitstring) :
    encode_lines id start_line (i.end_line.getD 0) = .ok b ↔
      LinesFit start_line (i.end_of start_line) ∧ b = id ++ lines_bits start_line (i.end_of start_line) := by
  by_cases hone : i.end_line.getD 0 = 0 ∨ start_line = i.end_line.getD 0
  · have hend : i.end_of start_line = start_line := by
      rw [Instance.end_of, if_pos hone]
    have hflag : to_bitstring 0 1 = .ok [false] := rfl
    simp only [encode_lines, hone, decide_true, if_true, hflag, ne_eq, not_true_eq_false, if_false,
      bind_eq_ok_iff, pure_eq_ok_iff, to_bitstring_eq_ok_iff, Except.ok.injEq, exists_eq_left', hend,
      LinesFit, lines_bits, decide_false]
    constructor
    · rintro ⟨_, ⟨n, rfl, hn, hbits⟩, rfl⟩
      refine ⟨⟨by omega, by exact_mod_cast hn, le_rfl, by simp [END_LINE_SIZE]⟩, ?_⟩
      simp [hbits]
    · rintro ⟨⟨hnonneg, hlt, _⟩, rfl⟩
      obtain ⟨n, rfl⟩ := Int.eq_ofNat_of_zero_le hnonneg
      exact ⟨_, ⟨n, rfl, by exact_mod_cast hlt, rfl⟩, by simp⟩
  · have hend : i.end_of start_line = i.end_line.getD 0 := by
      rw [Instance.end_of, if_neg hone]
    have hflag : to_bitstring 1 1 = .ok [true] := rfl
    have hdiff : i.end_line.getD 0 - start_line ≠ 0 := by
      intro heq
      exact hone (Or.inr (by omega))
    have hne : i.end_line.getD 0 ≠ start_line := by omega
    simp only [encode_lines, hone, decide_false, Bool.false_eq_true, if_false, hflag, hdiff, ne_eq,
      not_false_eq_true, if_true, bind_eq_ok_iff, pure_eq_ok_iff, to_bitstring_eq_ok_iff,
      Except.ok.injEq, exists_eq_left', hend, LinesFit, lines_bits, hne, decide_true]
    constructor
    · rintro ⟨_, ⟨n, rfl, hn, hbits⟩, _, ⟨d, hd, hdlt, hdiff_bits⟩, rfl⟩
      refine ⟨⟨by omega, by exact_mod_cast hn, by omega, by rw [hd]; exact_mod_cast hdlt⟩, ?_⟩
      simp [hd, hbits, hdiff_bits]
    · rintro ⟨⟨hnonneg, hlt, hle, hdlt⟩, rfl⟩
      obtain ⟨n, rfl⟩ := Int.eq_ofNat_of_zero_le hnonneg
      obtain ⟨d, hd⟩ := Int.eq_ofNat_of_zero_le (a := i.end_line.getD 0 - n) (by omega)
      rw [hd] at hdlt
      exact ⟨_, ⟨n, rfl, by exact_mod_cast hlt, rfl⟩, _, ⟨d, hd, by exact_mod_cast hdlt, rfl⟩,
        by simp [hd]⟩

theorem ReportEncoder.encode_instance_eq_ok_iff (self : ReportEncoder) (type_name : Option String)
    (i : Instance) (b : Bitstring) :
    self.encode_instance type_name i = .ok b ↔
      ∃ f, type_name.bind i.finding = some f ∧ self.Encodable f ∧ b = self.record f := by
  simp only [encode_instance, bind_eq_ok_iff, subscript_eq_ok_iff]
  cases type_name with
  | none => simp [throw, throwThe, MonadExceptOf.throw]
  | some name =>
    cases hstart : i.start_line with
    | none => simp [Instance.finding, hstart]
    | some start_line =>
      cases htype : self.vulnerability_types name with
      | none => simp [Instance.finding, hstart, htype, Encodable, throw, throwThe, MonadExceptOf.throw]
      | some id =>
        have hid := self.types_ne_nil htype
        simp [Instance.finding, hstart, htype, hid, Encodable, record, encode_lines_eq_ok_iff]

theorem ReportEncoder.encode_vulnerability_eq_ok_iff (self : ReportEncoder) (v : Vulnerability)
    (bs : List Bitstring) :
    self.encode_vulnerability v = .ok bs ↔
      ∃ fs, v.findings = some fs ∧ (∀ f ∈ fs, self.Encodable f) ∧ bs = fs.map self.record := by
  have hround (i : Instance) (bs : List Bitstring) :
      (do return [← self.encode_instance v.type i] : Except PyException (List Bitstring)) = .ok bs ↔
        ∃ fs, (v.type.bind i.finding).map ([·]) = some fs ∧ (∀ f ∈ fs, self.Encodable f) ∧
          bs = fs.map self.record := by
    simp only [bind_eq_ok_iff, pure_eq_ok_iff, self.encode_instance_eq_ok_iff, Option.map_eq_some_iff]
    constructor
    · rintro ⟨_, ⟨f, hf, hencodable, rfl⟩, rfl⟩
      exact ⟨[f], ⟨f, hf, rfl⟩, by simpa using hencodable, rfl⟩
    · rintro ⟨_, ⟨f, hf, rfl⟩, hencodable, rfl⟩
      exact ⟨_, ⟨f, hf, hencodable f (by simp), rfl⟩, rfl⟩
  simp only [encode_vulnerability, bind_eq_ok_iff, subscript_eq_ok_iff]
  cases hinstances : v.instances with
  | none => cases htype : v.type <;> simp [Vulnerability.findings, hinstances, htype]
  | some instances =>
    simp only [Option.some.injEq, exists_eq_left', collect_encode hround]
    cases htype : v.type with
    | some name => simp [Vulnerability.findings, hinstances, htype]
    | none =>
      cases instances with
      | nil => simp [Vulnerability.findings, hinstances, htype, collect]
      | cons i instances => simp [Vulnerability.findings, hinstances, htype, collect]

/-- The encoder accepts exactly the reports whose findings all have a record,
    and returns the records of the distinct findings in order. -/
theorem ReportEncoder.encode_vulnerabilities_eq_ok_iff (self : ReportEncoder)
    (analyzers_reports : List AnalyzerReport) (b : Bitstring) :
    self.encode_vulnerabilities analyzers_reports = .ok b ↔
      ∃ fs, collect AnalyzerReport.findings analyzers_reports = some fs ∧
        (∀ f ∈ fs, self.Encodable f) ∧ b = (fs.map self.record).eraseDups.flatten := by
  have hround (a : AnalyzerReport) := collect_encode self.encode_vulnerability_eq_ok_iff
    (a.potential_vulnerabilities.getD [])
  simp only [encode_vulnerabilities, bind_eq_ok_iff, pure_eq_ok_iff,
    collect_encode (g := AnalyzerReport.findings) hround]
  constructor
  · rintro ⟨_, ⟨fs, hfs, hencodable, rfl⟩, rfl⟩
    exact ⟨fs, hfs, hencodable, rfl⟩
  · rintro ⟨fs, hfs, hencodable, rfl⟩
    exact ⟨_, ⟨fs, hfs, hencodable, rfl⟩, rfl⟩

theorem ReportEncoder.record_ne_nil (self : ReportEncoder) (f : Finding) : self.record f ≠ [] := by
  simp [record, lines_bits]

/-- The slices of one round, on a bitstring cut after identifier and flag. -/
theorem record_slices {id : Bitstring} (hid : id.length = VULNERABILITY_TYPE_SIZE) (flag : Bool)
    (body : Bitstring) :
    (id ++ flag :: body).take VULNERABILITY_TYPE_SIZE = id ∧
      slice (id ++ flag :: body) VULNERABILITY_TYPE_SIZE (VULNERABILITY_TYPE_SIZE + START_LINE_SIZE) =
        flag :: body.take (START_LINE_SIZE - 1) ∧
      slice (flag :: body.take (START_LINE_SIZE - 1)) 1 START_LINE_SIZE =
        body.take (START_LINE_SIZE - 1) ∧
      slice (id ++ flag :: body) (VULNERABILITY_TYPE_SIZE + START_LINE_SIZE)
        (VULNERABILITY_TYPE_SIZE + START_LINE_SIZE + END_LINE_SIZE) =
          (body.drop (START_LINE_SIZE - 1)).take END_LINE_SIZE ∧
      ∀ n, (id ++ flag :: body).drop (VULNERABILITY_TYPE_SIZE + START_LINE_SIZE + n) =
        body.drop (START_LINE_SIZE - 1 + n) := by
  have hdrop (n : Nat) : (id ++ flag :: body).drop (VULNERABILITY_TYPE_SIZE + START_LINE_SIZE + n) =
      body.drop (START_LINE_SIZE - 1 + n) := by
    rw [← hid, Nat.add_assoc, List.drop_append, START_LINE_SIZE]
    simp [show 16 + n = (15 + n) + 1 by omega]
  refine ⟨List.take_left' hid, ?_, ?_, ?_, hdrop⟩
  · rw [slice, List.drop_left' hid, Nat.add_sub_cancel_left, START_LINE_SIZE, List.take_succ_cons]
  · simp [slice, START_LINE_SIZE, List.take_take]
  · have hzero := hdrop 0
    rw [Nat.add_zero, Nat.add_zero] at hzero
    rw [slice, hzero, Nat.add_sub_cancel_left]

/-- A successful round has read a whole identifier and a flag. -/
theorem ReportEncoder.decode_vulnerability_split (self : ReportEncoder) {b : Bitstring}
    {f : Finding} {rest : Bitstring} (hread : self.decode_vulnerability b = .ok (f, rest)) :
    ∃ (id : Bitstring) (flag : Bool) (body : Bitstring) (name : String),
      self.vulnerability_types_inverted id = some name ∧ b = id ++ flag :: body := by
  simp only [decode_vulnerability, bind_eq_ok_iff, subscript_eq_ok_iff] at hread
  obtain ⟨name, hname, flag, hflag, _⟩ := hread
  have hsize := self.inverted_size _ _ hname
  cases hrest : b.drop VULNERABILITY_TYPE_SIZE with
  | nil => simp [slice, hrest, bit_at] at hflag
  | cons bit body =>
    refine ⟨b.take VULNERABILITY_TYPE_SIZE, bit, body, name, hname, ?_⟩
    rw [← hrest, List.take_append_drop]

/-- Everything one round of the decoder can do. After the identifier and the
    flag it asks only for one bit of start line and, under the flag, for one bit
    of end line: the slices shrink at the end of the string. -/
theorem ReportEncoder.decode_vulnerability_eq_ok_iff (self : ReportEncoder) (b : Bitstring)
    (f : Finding) (rest : Bitstring) :
    self.decode_vulnerability b = .ok (f, rest) ↔
      ∃ (id : Bitstring) (flag : Bool) (body : Bitstring),
        self.vulnerability_types_inverted id = some f.type ∧ b = id ++ flag :: body ∧
        body ≠ [] ∧ f.start_line = bits_value (body.take (START_LINE_SIZE - 1)) ∧
        rest = body.drop (START_LINE_SIZE - 1 + if flag then END_LINE_SIZE else 0) ∧
        if flag then
          body.drop (START_LINE_SIZE - 1) ≠ [] ∧
            f.end_line = f.start_line +
              bits_value ((body.drop (START_LINE_SIZE - 1)).take END_LINE_SIZE)
        else f.end_line = f.start_line := by
  have hround {id : Bitstring} {name : String} (flag : Bool) (body : Bitstring)
      (hid : self.vulnerability_types_inverted id = some name) :
      self.decode_vulnerability (id ++ flag :: body) = .ok (f, rest) ↔
        name = f.type ∧ body ≠ [] ∧ f.start_line = bits_value (body.take (START_LINE_SIZE - 1)) ∧
        rest = body.drop (START_LINE_SIZE - 1 + if flag then END_LINE_SIZE else 0) ∧
        if flag then
          body.drop (START_LINE_SIZE - 1) ≠ [] ∧
            f.end_line = f.start_line +
              bits_value ((body.drop (START_LINE_SIZE - 1)).take END_LINE_SIZE)
        else f.end_line = f.start_line := by
    obtain ⟨htake, hlines, hstart, hend, hdrop⟩ := record_slices (self.inverted_size _ _ hid) flag body
    have hbit : bit_at (flag :: body.take (START_LINE_SIZE - 1)) 0 = .ok flag := rfl
    have hdrop_zero := hdrop 0
    rw [Nat.add_zero, Nat.add_zero] at hdrop_zero
    simp only [decode_vulnerability, htake, hid, subscript, hlines, hbit, hstart, hend, hdrop,
      hdrop_zero, bind_eq_ok_iff, Except.ok.injEq, exists_eq_left', from_bitstring_eq_ok_iff]
    have hbody : body.take (START_LINE_SIZE - 1) ≠ [] ↔ body ≠ [] := by
      simp [START_LINE_SIZE]
    have hend_bits : (body.drop (START_LINE_SIZE - 1)).take END_LINE_SIZE ≠ [] ↔
        body.drop (START_LINE_SIZE - 1) ≠ [] := by
      rw [Ne, List.take_eq_nil_iff]
      simp [END_LINE_SIZE]
    obtain ⟨type, start_line, end_line⟩ := f
    cases flag with
    | false =>
      simp only [Bool.false_eq_true, if_false, pure_eq_ok_iff, Prod.mk.injEq, Finding.mk.injEq, hbody,
        Nat.add_zero]
      constructor
      · rintro ⟨start, ⟨hne, rfl⟩, ⟨rfl, rfl, rfl⟩, rfl⟩
        exact ⟨rfl, hne, rfl, rfl, rfl⟩
      · rintro ⟨rfl, hne, rfl, rfl, rfl⟩
        exact ⟨_, ⟨hne, rfl⟩, ⟨rfl, rfl, rfl⟩, rfl⟩
    | true =>
      simp only [if_true, bind_eq_ok_iff, from_bitstring_eq_ok_iff, pure_eq_ok_iff, Prod.mk.injEq,
        Finding.mk.injEq, hbody, hend_bits]
      constructor
      · rintro ⟨start, ⟨hne, rfl⟩, diff, ⟨hne_end, rfl⟩, ⟨rfl, rfl, rfl⟩, rfl⟩
        exact ⟨rfl, hne, rfl, rfl, hne_end, Nat.cast_add ..⟩
      · rintro ⟨rfl, hne, rfl, rfl, hne_end, rfl⟩
        exact ⟨_, ⟨hne, rfl⟩, _, ⟨hne_end, rfl⟩, ⟨rfl, rfl, Nat.cast_add ..⟩, rfl⟩
  constructor
  · intro hread
    obtain ⟨id, flag, body, name, hid, rfl⟩ := self.decode_vulnerability_split hread
    obtain ⟨rfl, hrest⟩ := (hround flag body hid).mp hread
    exact ⟨id, flag, body, hid, rfl, hrest⟩
  · rintro ⟨id, flag, body, hid, rfl, hrest⟩
    exact (hround flag body hid).mpr ⟨rfl, hrest⟩

/-- The reader takes a record back off the front of any bitstring. -/
theorem ReportEncoder.decode_vulnerability_record (self : ReportEncoder) {f : Finding}
    (hencodable : self.Encodable f) (rest : Bitstring) :
    self.decode_vulnerability (self.record f ++ rest) = .ok (f, rest) := by
  obtain ⟨⟨id, htype⟩, hnonneg, hlt, hle, hdiff⟩ := hencodable
  obtain ⟨start, hstart⟩ := Int.eq_ofNat_of_zero_le hnonneg
  obtain ⟨diff, hdiff_eq⟩ := Int.eq_ofNat_of_zero_le (a := f.end_line - f.start_line) (by omega)
  have hstart_lt : start < 2 ^ (START_LINE_SIZE - 1) := by
    rw [hstart] at hlt
    exact_mod_cast hlt
  have hdiff_lt : diff < 2 ^ END_LINE_SIZE := by
    rw [hdiff_eq] at hdiff
    exact_mod_cast hdiff
  have htake (tail : Bitstring) :
      (format_bits (START_LINE_SIZE - 1) start ++ tail).take (START_LINE_SIZE - 1) =
        format_bits (START_LINE_SIZE - 1) start := List.take_left' (length_format_bits _ _)
  have hdrop (tail : Bitstring) :
      (format_bits (START_LINE_SIZE - 1) start ++ tail).drop (START_LINE_SIZE - 1) = tail :=
    List.drop_left' (length_format_bits _ _)
  have hvalue : f.start_line = bits_value (format_bits (START_LINE_SIZE - 1) start) := by
    rw [bits_value_format_bits hstart_lt, hstart]
  rw [self.decode_vulnerability_eq_ok_iff]
  by_cases hone : f.end_line = f.start_line
  · refine ⟨id, false, format_bits (START_LINE_SIZE - 1) start ++ rest, self.types_inverted _ _ htype,
      ?_, by simp [format_bits, START_LINE_SIZE, lib.positional.digits], ?_, ?_, ?_⟩
    · simp [record, htype, lines_bits, hone, hstart]
    · rw [htake, hvalue]
    · simp [hdrop]
    · simpa using hone
  · refine ⟨id, true, format_bits (START_LINE_SIZE - 1) start ++ (format_bits END_LINE_SIZE diff ++ rest),
      self.types_inverted _ _ htype, ?_, by simp [format_bits, START_LINE_SIZE, lib.positional.digits],
      ?_, ?_, ?_⟩
    · have hflag : decide (f.end_line ≠ f.start_line) = true := decide_eq_true hone
      rw [record, htype, lines_bits, hflag, if_neg hone, hdiff_eq, hstart]
      simp
    · rw [htake, hvalue]
    · rw [if_pos rfl, ← List.drop_drop, hdrop]
      exact (List.drop_left' (length_format_bits _ _)).symm
    · rw [if_pos rfl, hdrop, List.take_left' (length_format_bits _ _), bits_value_format_bits hdiff_lt]
      exact ⟨by simp [format_bits, END_LINE_SIZE, lib.positional.digits], by omega⟩

/-- Every successful round uses up at least the identifier. -/
theorem ReportEncoder.decode_vulnerability_shortens (self : ReportEncoder) :
    Shortens self.decode_vulnerability := by
  intro bs f rest _ hread
  rw [self.decode_vulnerability_eq_ok_iff] at hread
  obtain ⟨id, flag, body, _, rfl, _, _, rfl, _⟩ := hread
  simp only [List.length_drop, List.length_append, List.length_cons]
  omega

/-- Records determine their findings. -/
theorem ReportEncoder.record_injOn (self : ReportEncoder) {f g : Finding} (hf : self.Encodable f)
    (hg : self.Encodable g) (heq : self.record f = self.record g) : f = g := by
  have hread := self.decode_vulnerability_record hf []
  rw [heq, self.decode_vulnerability_record hg []] at hread
  simpa using hread.symm

/-- Concatenated records of encodable findings decode to these findings. -/
theorem ReportEncoder.decode_vulnerabilities_records (self : ReportEncoder) {fs : List Finding}
    (hencodable : ∀ f ∈ fs, self.Encodable f) :
    self.decode_vulnerabilities (fs.flatMap self.record) = .ok fs :=
  readToEnd_flatMap self.decode_vulnerability_shortens
    (fun f hf => ⟨self.record_ne_nil f, self.decode_vulnerability_record (hencodable f hf)⟩)

/-- Duplicate records are exactly the records of duplicate findings. -/
theorem ReportEncoder.eraseDups_records (self : ReportEncoder) {fs : List Finding}
    (hencodable : ∀ f ∈ fs, self.Encodable f) :
    (fs.map self.record).eraseDups.flatten = fs.eraseDups.flatMap self.record := by
  rw [lib.ordered.eraseDups_map self.record
    (fun f hf g hg => self.record_injOn (hencodable f hf) (hencodable g hg)), List.flatMap_def]

end qsp.report_processing
