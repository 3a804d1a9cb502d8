import QspNode.Exceptions
import QspNode.Lib.PythonInt

open lib.positional

namespace qsp.report_processing

/-- A Python string of the characters `0` and `1`. -/
abbrev Bitstring := List Bool

def HEX_BITS : Nat := 4

/-- The zero-padded binary numeral that `"{0:0<width>b}".format` prints for a
    number of at most `width` bits. -/
def format_bits (width n : Nat) : Bitstring := (digits 2 width n).map (fun d => d = 1)

/-- The number `int(bitstring, 2)` of a nonempty bitstring. -/
def bits_value (b : Bitstring) : Nat := value 2 (b.map Bool.toNat)

def hex_char (d : Nat) : Char := (Nat.digitChar d).toUpper

/-- The zero-padded upper-case numeral that `'%0*X'` prints for a number of at
    most `width` hexadecimal digits. -/
def format_hex (width n : Nat) : List Char := (digits 16 width n).map hex_char

/-- `ReportEncoder.__to_bitstring` for a number. `math.log2` raises on a
    number below zero. -/
def to_bitstring (number : Int) (bitstring_length : Nat) : Except PyException Bitstring :=
  if number + 1 ≤ 0 then .error (.ValueError "math domain error")
  else if number + 1 > 2 ^ bitstring_length then
    .error (.ReportFormattingException s!"The number {number} cannot fit in {bitstring_length} bits.")
  else .ok (format_bits bitstring_length number.toNat)

/-- The loop of `__to_bitstring` over the characters of a hex string. -/
def hex_chars_to_bits : List Char → Except PyException Bitstring
  | [] => .ok []
  | c :: cs =>
    match lib.python.int 16 [c] with
    | none => .error (.ValueError "invalid literal for int() with base 16")
    | some d =>
      match hex_chars_to_bits cs with
      | .error e => .error e
      | .ok b => .ok (format_bits HEX_BITS d.toNat ++ b)

/-- `ReportEncoder.__to_bitstring` with `is_hex=True`; a length of zero skips
    the length check. -/
def hex_to_bitstring (number : List Char) (bitstring_length : Nat) : Except PyException Bitstring :=
  if bitstring_length ≠ 0 ∧ number.length * HEX_BITS ≠ bitstring_length then
    .error (.ReportFormattingException
      s!"The number {String.ofList number} cannot fit in {bitstring_length} bits.")
  else
    match lib.python.int 16 number with
    | none => .error (.ReportFormattingException
        s!"The hex string {String.ofList number} contained a non-hex character")
    | some _ => hex_chars_to_bits number

/-- `ReportEncoder.__from_bitstring`. -/
def from_bitstring (b : Bitstring) : Except PyException Nat :=
  if b = [] then .error (.ValueError "invalid literal for int() with base 2")
  else .ok (bits_value b)

def show_bits (b : Bitstring) : String :=
  String.ofList (b.map (fun bit => if bit then '1' else '0'))

/-- `ReportEncoder.__to_hex`. -/
def to_hex (b : Bitstring) : Except PyException (List Char) :=
  if b.length % HEX_BITS ≠ 0 then
    .error (.ReportFormattingException
      s!"The bitstring {show_bits b} of {b.length} bits must have a length divisible by 4.")
  else
    match from_bitstring b with
    | .error e => .error e
    | .ok n => .ok (format_hex ((b.length + 3) / HEX_BITS) n)

/-- The Python slice `b[start:stop]`, which shrinks at the end of the string. -/
def slice (b : Bitstring) (start stop : Nat) : Bitstring := (b.drop start).take (stop - start)

/-- The slice of a concatenation at the joints of its parts. -/
theorem slice_append {a b c : Bitstring} {start stop : Nat} (hstart : a.length = start)
    (hstop : b.length = stop - start) : slice (a ++ (b ++ c)) start stop = b := by
  rw [slice, ← hstart, List.drop_left, hstart, List.take_left' hstop]

@[simp]
theorem length_format_bits (width n : Nat) : (format_bits width n).length = width := by
  simp [format_bits]

theorem bits_value_format_bits {width n : Nat} (hlt : n < 2 ^ width) :
    bits_value (format_bits width n) = n := by
  have hmap : ((digits 2 width n).map (fun d => decide (d = 1))).map Bool.toNat = digits 2 width n := by
    rw [List.map_map]
    refine (List.map_congr_left ?_).trans (List.map_id _)
    intro d hd
    have hbit := lt_of_mem_digits (by decide) hd
    obtain rfl | rfl : d = 0 ∨ d = 1 := by omega
    all_goals rfl
  rw [bits_value, format_bits, hmap, value_digits_of_lt hlt]

theorem bits_lt_two (b : Bitstring) : ∀ d ∈ b.map Bool.toNat, d < 2 := by
  intro d hd
  obtain ⟨bit, _, rfl⟩ := List.mem_map.mp hd
  exact Bool.toNat_lt bit

theorem format_bits_injOn {width n m : Nat} (hn : n < 2 ^ width) (hm : m < 2 ^ width)
    (heq : format_bits width n = format_bits width m) : n = m := by
  have hvalue := congrArg bits_value heq
  rwa [bits_value_format_bits hn, bits_value_format_bits hm] at hvalue

theorem to_bitstring_eq_ok_iff {number : Int} {length : Nat} {b : Bitstring} :
    to_bitstring number length = .ok b ↔
      ∃ n : Nat, number = n ∧ n < 2 ^ length ∧ b = format_bits length n := by
  unfold to_bitstring
  split
  · simp only [reduceCtorEq, false_iff]
    rintro ⟨n, rfl, _⟩
    omega
  · split
    · rename_i hlarge
      simp only [reduceCtorEq, false_iff]
      rintro ⟨n, rfl, hlt, _⟩
      norm_cast at hlarge
      omega
    · rename_i hnonneg hlarge
      obtain ⟨n, rfl⟩ := Int.eq_ofNat_of_zero_le (a := number) (by omega)
      simp only [Int.toNat_natCast, Except.ok.injEq, Nat.cast_inj]
      norm_cast at hlarge
      constructor
      · intro heq
        exact ⟨n, rfl, by omega, heq.symm⟩
      · rintro ⟨m, rfl, _, rfl⟩
        rfl

@[simp]
theorem from_bitstring_eq_ok_iff {b : Bitstring} {n : Nat} :
    from_bitstring b = .ok n ↔ b ≠ [] ∧ n = bits_value b := by
  by_cases hb : b = []
  · simp [from_bitstring, hb]
  · simp [from_bitstring, hb, eq_comm]

end qsp.report_processing
