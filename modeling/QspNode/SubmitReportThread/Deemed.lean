import Mathlib.Tactic.Linarith
import QspNode.SubmitReportThread.Verdict

open lib.ordered lib.python
open qsp.report qsp.report_processing qsp.schema qsp.vulnerabilities_set

namespace qsp.submit_report_thread

/-- The auditor's pairs cover enough of the police's pairs. -/
def Similar (A P : Finset (String × Int)) : Prop := P = ∅ ∨ 3 * P.card ≤ 5 * (A ∩ P).card

/-- Two hashes are spelled by the same hexadecimal digits, be these ASCII or
    not. -/
def SameDigits (a b : String) : Prop := ∃ ds, HexDigits a.toList ds ∧ HexDigits b.toList ds

theorem threshold_le_iff {a b : Nat} (hpos : b ≠ 0) :
    SIMILARITY_THRESHOLD ≤ (a : Rat) / b ↔ 3 * b ≤ 5 * a := by
  have hb : (0 : Rat) < b := by exact_mod_cast Nat.pos_of_ne_zero hpos
  rw [SIMILARITY_THRESHOLD, le_div_iff₀ hb]
  constructor
  · intro hle
    have hscaled : (3 : Rat) * b ≤ 5 * a := by linarith
    exact_mod_cast hscaled
  · intro hle
    have hscaled : (3 : Rat) * b ≤ 5 * a := by exact_mod_cast hle
    linarith

theorem toLower_of_not_ascii {c : Char} (hnot : ¬ c.toNat < 128) : c.toLower = c := by
  apply dif_neg
  rintro ⟨_, hle⟩
  have hle : c.toNat ≤ 90 := hle
  omega

theorem is_ascii_lower {s : String} : is_ascii (lower s) ↔ is_ascii s := by
  have hchar (c : Char) : c.toLower.toNat < 128 ↔ c.toNat < 128 := by
    by_cases hascii : c.toNat < 128
    · exact iff_of_true (forall_ascii (p := fun c => c.toLower.toNat < 128) (by decide) hascii) hascii
    · rw [toLower_of_not_ascii hascii]
  simp only [is_ascii, lower, String.toList_ofList, List.forall_mem_map, hchar]

/-- Ignoring case, an ASCII text is the printed form of its digits. -/
theorem lower_hex_chars_iff {s : String} {ds : List Nat} (hascii : is_ascii s)
    (hbound : ∀ d ∈ ds, d < 16) :
    lower (String.ofList (ds.map hex_char)) = lower s ↔ HexDigits s.toList ds := by
  have hchar {c : Char} {d : Nat} (hc : c.toNat < 128) (hd : d < 16) :
      (hex_char d).toLower = c.toLower ↔ digit 16 c = some d :=
    forall_ascii (p := fun c => ∀ d < 16, (hex_char d).toLower = c.toLower ↔ digit 16 c = some d)
      (by decide +kernel) hc d hd
  rw [lower, lower, String.ofList_inj, String.toList_ofList]
  unfold is_ascii at hascii
  generalize s.toList = cs at hascii
  induction ds generalizing cs with
  | nil =>
    cases cs with
    | nil => simp [HexDigits]
    | cons c cs => simp [HexDigits]
  | cons d ds ih =>
    cases cs with
    | nil => simp [HexDigits]
    | cons c cs =>
      rw [List.forall_mem_cons] at hascii hbound
      have htail := ih hbound.2 cs hascii.2
      simp only [List.map_cons, List.cons.injEq, hchar hascii.1 hbound.1, htail, HexDigits,
        List.forall₂_cons]

theorem is_ascii_of_hash_pattern {s : String} (hpattern : hash_pattern s = true) : is_ascii s := by
  have hhex {c : Char} (hc : is_hex_digit c = true) : c.toNat < 128 := by
    simp only [is_hex_digit, Bool.or_eq_true, Bool.and_eq_true, decide_eq_true_eq, Char.le_def] at hc
    rcases hc with (⟨_, hc⟩ | ⟨_, hc⟩) | ⟨_, hc⟩
    all_goals exact Nat.lt_of_le_of_lt hc (by decide)
  rw [hash_pattern, hex_pattern] at hpattern
  simp only [Bool.and_eq_true, List.all_eq_true] at hpattern
  intro c hc
  by_cases hlast : s.toList.getLast? = some '\n'
  · rw [if_pos hlast] at hpattern
    rw [← List.dropLast_append_getLast? _ hlast, List.mem_append, List.mem_singleton] at hc
    rcases hc with hc | rfl
    · exact hhex (hpattern.2 c hc)
    · decide
  · rw [if_neg hlast] at hpattern
    exact hhex (hpattern.2 c hc)

/-- The verdict on a report that decodes and passes the schema. -/
theorem is_report_deemed_correct_of_decoded {report_encoder : ReportEncoder} {stored : List UInt8}
    {compressed hash pc : String} {decoded p : Report} {A P : Finset (String × Int)} (request_id : Int)
    (hchain : get_report_in_blockchain (some stored) = some compressed)
    (hdecode : report_encoder.decode_report compressed = .ok decoded)
    (hvalid : report_valid decoded = true) (hhash : decoded.contract_hash = some hash)
    (hne : lower hash ≠ "") (hpc : p.contract_hash = some pc)
    (hA : from_uncompressed_report (some decoded) = .ok A)
    (hP : from_uncompressed_report (some p) = .ok P) :
    is_report_deemed_correct report_encoder request_id (some stored) p = .ok true ↔
      lower hash = lower pc ∧ Similar A P := by
  simp only [is_report_deemed_correct, hchain, hdecode, validate_json, hvalid, if_true, hhash, hpc,
    Option.getD_some, hne, hA, hP, false_or, bind, Except.bind, pure, Except.pure]
  by_cases hmatch : lower hash = lower pc
  · have hpass : ¬ (lower pc = "" ∨ lower hash ≠ lower pc) := by
      rw [← hmatch]
      simp [hne]
    rw [if_neg hpass, and_iff_right hmatch]
    by_cases hempty : P.card = 0
    · rw [if_pos hempty]
      exact iff_of_true rfl (Or.inl (Finset.card_eq_zero.mp hempty))
    · rw [if_neg hempty, Except.ok.injEq, decide_eq_true_eq, threshold_le_iff hempty, Similar,
        or_iff_right (fun hP => hempty (Finset.card_eq_zero.mpr hP))]
  · rw [if_pos (Or.inr hmatch)]
    simp [hmatch]

theorem ne_empty_of_toList {s : String} (hne : s.toList ≠ []) : lower s ≠ "" := by
  intro hlower
  rw [lower, String.ofList_eq_empty_iff, List.map_eq_nil_iff] at hlower
  exact hne hlower

/-- The verdict on a compressed report: the digits of its hash, printed in
    ASCII, are compared with the police hash. -/
theorem is_report_deemed_correct_compressed {r p : Report} {h pc : String} {stored : List UInt8}
    {P : Finset (String × Int)} {major minor patch : Nat} {state_bit status_bit : Bool}
    {hash_digits : List Nat} {fs : List Finding} (request_id : Int)
    (hcompresses : Compresses report_encoder r major minor patch state_bit status_bit hash_digits fs)
    (hhex : to_hex (report_encoder.report_bits major minor patch state_bit status_bit hash_digits fs) =
      .ok h.toList)
    (hstored : hex stored = lower h) (hpc : p.contract_hash = some pc)
    (hpattern : hash_pattern pc = true) (hP : from_uncompressed_report (some p) = .ok P) :
    is_report_deemed_correct report_encoder request_id (some stored) p = .ok true ↔
      HexDigits pc.toList hash_digits ∧ Similar (fs.map pair_of).toFinset P := by
  obtain ⟨hash, _, hdigits⟩ := hcompresses.contract_hash
  have hchain : get_report_in_blockchain (some stored) = some (lower h) := by
    cases stored with
    | nil =>
      obtain ⟨ds, hds, _, _, hchars⟩ := to_hex_eq_ok_iff.mp hhex
      have hne : h.toList ≠ [] := by simpa [hchars] using hds
      exact absurd hstored.symm (ne_empty_of_toList hne)
    | cons byte bytes => exact congrArg some hstored
  have hencodable : ∀ f ∈ fs.eraseDups, report_encoder.Encodable f :=
    fun f hf => hcompresses.encodable f (mem_eraseDups.mp hf)
  have hpairs : (fs.eraseDups.map pair_of).toFinset = (fs.map pair_of).toFinset := by
    ext pair
    simp only [List.mem_toFinset, List.mem_map, mem_eraseDups]
  have hne : lower (String.ofList (hash_digits.map hex_char)) ≠ "" := by
    apply ne_empty_of_toList
    rw [String.toList_ofList, Ne, List.map_eq_nil_iff]
    rintro rfl
    cases hcompresses.hash_length
  rw [is_report_deemed_correct_of_decoded request_id hchain
    (report_encoder.decode_report_compressed hcompresses hhex (lower h) (by simp))
    (report_valid_produce_json hdigits.lt hcompresses.hash_length hencodable) rfl hne hpc
    (from_uncompressed_report_produce_json ..) hP, hpairs,
    lower_hex_chars_iff (is_ascii_of_hash_pattern hpattern) hdigits.lt]

/-- Ignoring case, the hash of a report is the police hash exactly when it is
    ASCII and has the same digits. -/
theorem lower_hash_iff {hash pc : String} {ds : List Nat} (hdigits : HexDigits hash.toList ds)
    (hpattern : hash_pattern pc = true) :
    lower hash = lower pc ↔ is_ascii hash ∧ HexDigits pc.toList ds := by
  have hpc := is_ascii_of_hash_pattern hpattern
  rw [← lower_hex_chars_iff hpc hdigits.lt]
  by_cases hascii : is_ascii hash
  · rw [(lower_hex_chars_iff hascii hdigits.lt).mpr hdigits, and_iff_right hascii]
  · refine iff_of_false ?_ (fun h => hascii h.1)
    intro hmatch
    exact hascii (is_ascii_lower.mp (hmatch ▸ is_ascii_lower.mpr hpc))

theorem Similar.of_subset {A P : Finset (String × Int)} (hsub : P ⊆ A) : Similar A P := by
  right
  rw [Finset.inter_eq_right.mpr hsub]
  omega

theorem Similar.mono {A B P : Finset (String × Int)} (hsub : A ⊆ B) (hsimilar : Similar A P) :
    Similar B P := by
  apply hsimilar.imp id
  intro hcard
  have hinter := Finset.card_le_card (Finset.inter_subset_inter_right hsub (u := P))
  omega

/-- The verdict on the compressed report is the one on the uncompressed report,
    unless the hash of the latter is the police hash in foreign digits. A report
    with all police findings always passes, and further findings never fail a
    report that passed. -/
theorem is_report_deemed_correct_iff {r p : Report} {h hash pc : String} {stored : List UInt8}
    {A P : Finset (String × Int)} (request_id : Int)
    (hcompress : report_encoder.compress_report r = .ok h) (hstored : hex stored = lower h)
    (hhash : r.contract_hash = some hash) (hpc : p.contract_hash = some pc)
    (hvalid : report_valid p = true) (hA : from_uncompressed_report (some r) = .ok A)
    (hP : from_uncompressed_report (some p) = .ok P) :
    ((is_report_deemed_correct report_encoder request_id (some stored) p = .ok true ↔
        lower hash = lower pc ∧ Similar A P) ↔
      ¬ (¬ is_ascii hash ∧ SameDigits hash pc ∧ Similar A P)) ∧
    (lower hash = lower pc → P ⊆ A →
      is_report_deemed_correct report_encoder request_id (some stored) p = .ok true) ∧
    ∀ (r' : Report) (h' : String) (stored' : List UInt8) (A' : Finset (String × Int)),
      report_encoder.compress_report r' = .ok h' → hex stored' = lower h' →
      r'.contract_hash = some hash → from_uncompressed_report (some r') = .ok A' → A ⊆ A' →
      is_report_deemed_correct report_encoder request_id (some stored) p = .ok true →
      is_report_deemed_correct report_encoder request_id (some stored') p = .ok true := by
  have hpattern : hash_pattern pc = true := by
    simp only [report_valid, hpc, Option.all_some, Bool.and_eq_true] at hvalid
    exact hvalid.1.1.1.1.2
  have hverdict {r : Report} {h : String} {stored : List UInt8} {A : Finset (String × Int)}
      (hcompress : report_encoder.compress_report r = .ok h) (hstored : hex stored = lower h)
      (hhash : r.contract_hash = some hash) (hA : from_uncompressed_report (some r) = .ok A) :
      ∃ ds, HexDigits hash.toList ds ∧
        (is_report_deemed_correct report_encoder request_id (some stored) p = .ok true ↔
          HexDigits pc.toList ds ∧ Similar A P) := by
    rw [ReportEncoder.compress_report_eq_ok_iff, ReportEncoder.compress_eq_ok_iff] at hcompress
    obtain ⟨_, _, _, _, _, ds, fs, hcompresses, hhex⟩ := hcompress
    obtain ⟨_, hhash', hdigits⟩ := hcompresses.contract_hash
    obtain rfl := Option.some.inj (hhash'.symm.trans hhash)
    rw [from_uncompressed_report_findings hA hcompresses.findings]
    exact ⟨ds, hdigits, is_report_deemed_correct_compressed request_id hcompresses hhex hstored hpc
      hpattern hP⟩
  obtain ⟨ds, hdigits, hdeemed⟩ := hverdict hcompress hstored hhash hA
  have hsame : SameDigits hash pc ↔ HexDigits pc.toList ds := by
    constructor
    · rintro ⟨es, hes, hpc⟩
      rwa [hdigits.unique hes]
    · exact fun hpc => ⟨ds, hdigits, hpc⟩
  rw [hdeemed, lower_hash_iff hdigits hpattern, hsame]
  refine ⟨?_, ?_, ?_⟩
  · by_cases hascii : is_ascii hash
    · simp [hascii]
    · simp [hascii]
  · rintro ⟨_, hmatch⟩ hsub
    exact ⟨hmatch, .of_subset hsub⟩
  · rintro r' h' stored' A' hcompress' hstored' hhash' hA' hsub ⟨hmatch, hsimilar⟩
    obtain ⟨es, hes, hdeemed'⟩ := hverdict hcompress' hstored' hhash' hA'
    obtain rfl := hdigits.unique hes
    exact hdeemed'.mpr ⟨hmatch, hsimilar.mono hsub⟩

/-- The bytes of the compressed sample report. -/
def sample_stored (byte : UInt8) : List UInt8 :=
  [0x20, 0x07] ++ List.replicate 32 byte ++ [0x11, 0x00, 0x05, 0x11, 0x80, 0x05, 0x04]

theorem is_report_deemed_correct_ascii_digits :
    (is_report_deemed_correct report_encoder 1 (some (sample_stored 0xaa))
          (sample_report (sample_hash 'A')) = .ok true ↔
        lower (sample_hash 'a') = lower (sample_hash 'A') ∧ Similar {("other", 5)} {("other", 5)}) ↔
      ¬ (¬ is_ascii (sample_hash 'a') ∧ SameDigits (sample_hash 'a') (sample_hash 'A') ∧
        Similar {("other", 5)} {("other", 5)}) :=
  (is_report_deemed_correct_iff (r := sample_report (sample_hash 'a'))
    (h := sample_compressed 'A') 1 (by decide +kernel) (by decide +kernel) rfl rfl
    (by decide +kernel) (by decide +kernel) (by decide +kernel)).1

theorem is_report_deemed_correct_arabic_digits :
    report_encoder.compress_report (sample_report (sample_hash '١')) = .ok (sample_compressed '1') ∧
      hex (sample_stored 0x11) = lower (sample_compressed '1') ∧
      report_valid (sample_report (sample_hash '1')) = true ∧
      from_uncompressed_report (some (sample_report (sample_hash '١'))) = .ok {("other", 5)} ∧
      from_uncompressed_report (some (sample_report (sample_hash '1'))) = .ok {("other", 5)} ∧
      ¬ (is_report_deemed_correct report_encoder 1 (some (sample_stored 0x11))
            (sample_report (sample_hash '1')) = .ok true ↔
          lower (sample_hash '١') = lower (sample_hash '1') ∧
            Similar {("other", 5)} {("other", 5)}) := by
  refine ⟨by decide +kernel, by decide +kernel, by decide +kernel, by decide +kernel,
    by decide +kernel, ?_⟩
  have hdeemed : is_report_deemed_correct report_encoder 1 (some (sample_stored 0x11))
      (sample_report (sample_hash '1')) = .ok true := by decide +kernel
  have hhash : lower (sample_hash '١') ≠ lower (sample_hash '1') := by decide +kernel
  exact fun hiff => hhash (hiff.mp hdeemed).1

end qsp.submit_report_thread
