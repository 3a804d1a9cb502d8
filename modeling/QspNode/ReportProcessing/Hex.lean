import QspNode.ReportProcessing.Bitstring

open lib.positional lib.python

namespace qsp.report_processing

/-- The digit values of a text read as hexadecimal, one per character. -/
def HexDigits (cs : List Char) (ds : List Nat) : Prop :=
  List.Forall₂ (fun c d => digit 16 c = some d) cs ds

theorem HexDigits.lt {cs : List Char} {ds : List Nat} (hdigits : HexDigits cs ds) :
    ∀ d ∈ ds, d < 16 := by
  intro d hd
  obtain ⟨i, hi, rfl⟩ := List.getElem_of_mem hd
  exact (digit_eq_some_iff.mp (List.Forall₂.get hdigits (hdigits.length_eq ▸ hi) hi)).2

theorem HexDigits.unique {cs : List Char} {ds es : List Nat} (hds : HexDigits cs ds)
    (hes : HexDigits cs es) : ds = es := by
  induction hds generalizing es with
  | nil =>
    cases hes
    rfl
  | cons hhead _ ih =>
    cases hes with
    | cons hother htail =>
      rw [hhead] at hother
      rw [Option.some.inj hother, ih htail]

def is_hex_digit (c : Char) : Bool :=
  ('0' ≤ c && c ≤ '9') || ('a' ≤ c && c ≤ 'f') || ('A' ≤ c && c ≤ 'F')

/-- A fact about ASCII characters is checked on their code points. -/
theorem forall_ascii {p : Char → Prop} (hall : ∀ n < 128, p (Char.ofNat n)) {c : Char}
    (hascii : c.toNat < 128) : p c := by
  have hc := hall c.toNat hascii
  rwa [Char.ofNat_toNat] at hc

theorem isSome_digit_iff {c : Char} (hascii : c.toNat < 128) :
    (digit 16 c).isSome = is_hex_digit c :=
  forall_ascii (p := fun c => (digit 16 c).isSome = is_hex_digit c) (by decide +kernel) hascii

def nibbles_to_bits (ds : List Nat) : Bitstring := ds.flatMap (format_bits 4)

@[simp]
theorem length_nibbles_to_bits (ds : List Nat) : (nibbles_to_bits ds).length = 4 * ds.length := by
  induction ds with
  | nil => rfl
  | cons d ds ih =>
    rw [nibbles_to_bits, List.flatMap_cons, List.length_append, length_format_bits, List.length_cons]
    rw [nibbles_to_bits] at ih
    omega

theorem map_toNat_nibbles_to_bits {ds : List Nat} (hbound : ∀ d ∈ ds, d < 16) :
    (nibbles_to_bits ds).map Bool.toNat = ds.flatMap (digits 2 4) := by
  induction ds with
  | nil => rfl
  | cons d ds ih =>
    have htail := ih (fun e he => hbound e (by simp [he]))
    have hhead : (format_bits 4 d).map Bool.toNat = digits 2 4 d := by
      rw [format_bits, List.map_map]
      refine (List.map_congr_left ?_).trans (List.map_id _)
      intro e he
      have hbit := lt_of_mem_digits (by decide) he
      obtain rfl | rfl : e = 0 ∨ e = 1 := by omega
      all_goals rfl
    rw [nibbles_to_bits] at htail
    rw [nibbles_to_bits, List.flatMap_cons, List.map_append, htail, hhead, List.flatMap_cons]

/-- Four bits to a digit: the binary value of the bits is the hexadecimal value
    of the digits. -/
theorem bits_value_nibbles {ds : List Nat} (hbound : ∀ d ∈ ds, d < 16) :
    bits_value (nibbles_to_bits ds) = value 16 ds := by
  rw [bits_value, map_toNat_nibbles_to_bits hbound]
  exact value_flatMap_digits (b := 2) (k := 4) hbound

theorem nibbles_to_bits_injOn {ds es : List Nat} (hds : ∀ d ∈ ds, d < 16) (hes : ∀ e ∈ es, e < 16)
    (heq : nibbles_to_bits ds = nibbles_to_bits es) : ds = es := by
  have hlength := congrArg List.length heq
  have hvalue := congrArg bits_value heq
  rw [length_nibbles_to_bits, length_nibbles_to_bits] at hlength
  rw [bits_value_nibbles hds, bits_value_nibbles hes] at hvalue
  rw [← digits_value hds, ← digits_value hes, hvalue, show ds.length = es.length by omega]

/-- Every bitstring of whole digits is spelled by digits. -/
theorem exists_nibbles {b : Bitstring} {n : Nat} (hlength : b.length = 4 * n) :
    ∃ ds : List Nat, ds.length = n ∧ (∀ d ∈ ds, d < 16) ∧ nibbles_to_bits ds = b := by
  obtain ⟨ds, hlen, hbound, hsplit⟩ := exists_flatMap_digits (b := 2) (k := 4) (n := n)
    (bits_lt_two b) (by rw [List.length_map, hlength, Nat.mul_comm])
  have hbits : nibbles_to_bits ds = b := by
    have hinjective : Function.Injective Bool.toNat := by
      intro x y hxy
      cases x <;> cases y <;> simp at hxy ⊢
    apply List.map_injective_iff.mpr hinjective
    rw [map_toNat_nibbles_to_bits hbound, hsplit]
  exact ⟨ds, hlen, hbound, hbits⟩

theorem hex_chars_to_bits_eq_ok_iff {cs : List Char} {b : Bitstring} :
    hex_chars_to_bits cs = .ok b ↔ ∃ ds, HexDigits cs ds ∧ b = nibbles_to_bits ds := by
  induction cs generalizing b with
  | nil =>
    constructor
    · intro hok
      obtain rfl : [] = b := by simpa [hex_chars_to_bits] using hok
      exact ⟨[], .nil, rfl⟩
    · rintro ⟨ds, hdigits, rfl⟩
      cases hdigits
      rfl
  | cons c cs ih =>
    rw [hex_chars_to_bits, int_singleton]
    cases hc : digit 16 c with
    | none =>
      simp only [Option.map_none, reduceCtorEq, false_iff]
      rintro ⟨ds, hdigits, _⟩
      cases hdigits with
      | cons hhead _ =>
        rw [hc] at hhead
        cases hhead
    | some d =>
      simp only [Option.map_some, Int.toNat_natCast]
      constructor
      · intro hok
        cases htail : hex_chars_to_bits cs with
        | error e => simp [htail] at hok
        | ok tail =>
          obtain ⟨ds, hdigits, rfl⟩ := ih.mp htail
          refine ⟨d :: ds, .cons hc hdigits, ?_⟩
          simpa [htail, nibbles_to_bits, HEX_BITS] using hok.symm
      · rintro ⟨ds, hdigits, rfl⟩
        cases hdigits with
        | @cons _ e _ es hhead hrest =>
          obtain rfl : d = e := Option.some.inj (hc.symm.trans hhead)
          rw [ih.mpr ⟨es, hrest, rfl⟩]
          rfl

/-- A text converts to bits exactly when it is a nonempty text of hexadecimal
    digits of the demanded length. -/
theorem hex_to_bitstring_eq_ok_iff {cs : List Char} {length : Nat} {b : Bitstring} :
    hex_to_bitstring cs length = .ok b ↔
      (length = 0 ∨ cs.length * 4 = length) ∧ cs ≠ [] ∧
        ∃ ds, HexDigits cs ds ∧ b = nibbles_to_bits ds := by
  unfold hex_to_bitstring
  by_cases hlength : length ≠ 0 ∧ cs.length * HEX_BITS ≠ length
  · rw [if_pos hlength]
    simp only [reduceCtorEq, false_iff]
    rintro ⟨hzero | hfour, _⟩
    · exact hlength.1 hzero
    · exact hlength.2 hfour
  · rw [if_neg hlength]
    have hlen : length = 0 ∨ cs.length * 4 = length := by
      by_contra hnot
      push Not at hnot
      exact hlength hnot
    by_cases hne : cs = []
    · subst hne
      simp [int, readSigned, readUnsigned, dropPrefix, readDigits]
    · constructor
      · intro hok
        cases hint : int 16 cs with
        | none => simp [hint] at hok
        | some n =>
          simp only [hint] at hok
          exact ⟨hlen, hne, hex_chars_to_bits_eq_ok_iff.mp hok⟩
      · rintro ⟨_, _, hdigits⟩
        obtain ⟨ds, hds, _⟩ := id hdigits
        rw [int_of_digits hds hne]
        exact hex_chars_to_bits_eq_ok_iff.mpr hdigits

/-- `to_hex` succeeds exactly on nonempty bitstrings of whole digits. -/
theorem to_hex_eq_ok_iff {b : Bitstring} {cs : List Char} :
    to_hex b = .ok cs ↔
      ∃ ds, ds ≠ [] ∧ (∀ d ∈ ds, d < 16) ∧ b = nibbles_to_bits ds ∧ cs = ds.map hex_char := by
  unfold to_hex
  by_cases hlength : b.length % HEX_BITS ≠ 0
  · rw [if_pos hlength]
    simp only [reduceCtorEq, false_iff]
    rintro ⟨ds, _, _, rfl, _⟩
    rw [length_nibbles_to_bits] at hlength
    exact hlength (Nat.mul_mod_right 4 ds.length)
  · rw [if_neg hlength]
    obtain ⟨ds, _, hbound, rfl⟩ := exists_nibbles (b := b) (n := b.length / 4)
      (by simp only [HEX_BITS] at hlength; omega)
    have hformat : format_hex (((nibbles_to_bits ds).length + 3) / HEX_BITS)
        (bits_value (nibbles_to_bits ds)) = ds.map hex_char := by
      have hwidth : ((nibbles_to_bits ds).length + 3) / HEX_BITS = ds.length := by
        rw [length_nibbles_to_bits, HEX_BITS]
        omega
      rw [hwidth, bits_value_nibbles hbound, format_hex, digits_value hbound]
    by_cases hnil : ds = []
    · subst hnil
      simp only [from_bitstring, nibbles_to_bits, List.flatMap_nil, if_true, reduceCtorEq, false_iff]
      rintro ⟨es, hne, _, heq, _⟩
      cases es with
      | nil => exact hne rfl
      | cons e es => simp [format_bits, digits] at heq
    · have hbits : nibbles_to_bits ds ≠ [] := by
        intro heq
        have hlen := congrArg List.length heq
        rw [length_nibbles_to_bits, List.length_nil] at hlen
        exact hnil (List.length_eq_zero_iff.mp (by omega))
      simp only [from_bitstring, hbits, if_false, hformat, Except.ok.injEq]
      constructor
      · intro heq
        exact ⟨ds, hnil, hbound, rfl, heq.symm⟩
      · rintro ⟨es, _, hes, heq, rfl⟩
        rw [nibbles_to_bits_injOn hbound hes heq]

end qsp.report_processing
