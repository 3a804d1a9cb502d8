import QspNode.ReportProcessing.Bitstring

namespace qsp.report_processing

def HEADER_SIZE : Nat := 16
def MAJOR_VERSION_SIZE : Nat := 4
def MINOR_VERSION_SIZE : Nat := 4
def PATCH_VERSION_SIZE : Nat := 6

def MINOR_VERSION_START : Nat := MAJOR_VERSION_SIZE
def PATCH_VERSION_START : Nat := MINOR_VERSION_START + MINOR_VERSION_SIZE
def AUDIT_STATE_INDEX : Nat := PATCH_VERSION_START + PATCH_VERSION_SIZE
def STATUS_INDEX : Nat := AUDIT_STATE_INDEX + 1

def AUDIT_STATE_SUCCESS : Int := 4
def AUDIT_STATE_ERROR : Int := 5
def AUDIT_STATUS_ERROR : String := "error"
def AUDIT_STATUS_SUCCESS : String := "success"

/-- `[int(i) for i in version.split(".")]`. -/
def version_numbers (version : String) : Option (List Int) :=
  (version.toList.splitOn '.').mapM (lib.python.int 10)

/-- `".".join([str(i) for i in numbers])`. -/
def version_text (numbers : List Int) : String :=
  String.ofList (['.'].intercalate (numbers.map lib.python.str))

def encode_audit_state (audit_state : Int) : Except PyException Bitstring :=
  if audit_state = AUDIT_STATE_SUCCESS then to_bitstring 1 1
  else if audit_state = AUDIT_STATE_ERROR then to_bitstring 0 1
  else .error (.ReportFormattingException "audit_state must be 4 or 5")

def encode_status (status : String) : Except PyException Bitstring :=
  if status = AUDIT_STATUS_SUCCESS then to_bitstring 1 1
  else if status = AUDIT_STATUS_ERROR then to_bitstring 0 1
  else .error (.ReportFormattingException "status must be success or error")

/-- `ReportEncoder.__encode_header_bytes`. -/
def encode_header_bytes (version : String) (audit_state : Int) (status : String) :
    Except PyException Bitstring := do
  match version_numbers version with
  | some [major_version, minor_version, patch_version] =>
    let b_major_version ← to_bitstring major_version MAJOR_VERSION_SIZE
    let b_minor_version ← to_bitstring minor_version MINOR_VERSION_SIZE
    let b_patch_version ← to_bitstring patch_version PATCH_VERSION_SIZE
    let b_audit_state ← encode_audit_state audit_state
    let b_status ← encode_status status
    return b_major_version ++ b_minor_version ++ b_patch_version ++ b_audit_state ++ b_status
  | _ => throw (.ValueError "version is not three numbers")

/-- The character `b[i]`, which must exist. -/
def bit_at (b : Bitstring) (i : Nat) : Except PyException Bool :=
  match b[i]? with
  | none => .error (.IndexError "string index out of range")
  | some bit => .ok bit

/-- `ReportEncoder.__decode_header_bytes`. -/
def decode_header_bytes (b_header : Bitstring) : Except PyException (String × Int × String) := do
  let major_version ← from_bitstring (b_header.take MAJOR_VERSION_SIZE)
  let minor_version ← from_bitstring
    (slice b_header MINOR_VERSION_START (MINOR_VERSION_START + MINOR_VERSION_SIZE))
  let patch_version ← from_bitstring
    (slice b_header PATCH_VERSION_START (PATCH_VERSION_START + PATCH_VERSION_SIZE))
  let version := version_text [major_version, minor_version, patch_version]
  let audit_state ← bit_at b_header AUDIT_STATE_INDEX
  let status ← bit_at b_header STATUS_INDEX
  return (version, if audit_state then AUDIT_STATE_SUCCESS else AUDIT_STATE_ERROR,
    if status then AUDIT_STATUS_SUCCESS else AUDIT_STATUS_ERROR)

theorem dot_notMem_str (n : Int) : '.' ∉ lib.python.str n := by
  have hdigits (m : Nat) : '.' ∉ Nat.toDigits 10 m := by
    intro hmem
    have hdigit := Nat.isDigit_of_mem_toDigits (by decide) (by decide) hmem
    revert hdigit
    decide
  cases n with
  | ofNat m => exact hdigits m
  | negSucc m => simpa [lib.python.str] using hdigits (m + 1)

/-- A version that is printed from its numbers reads back as these numbers. -/
theorem version_numbers_version_text {numbers : List Int} (hne : numbers ≠ []) :
    version_numbers (version_text numbers) = some numbers := by
  have hsplit : (['.'].intercalate (numbers.map lib.python.str)).splitOn '.' =
      numbers.map lib.python.str := by
    apply List.splitOn_intercalate
    · intro cs hcs
      obtain ⟨n, _, rfl⟩ := List.mem_map.mp hcs
      exact dot_notMem_str n
    · simpa using hne
  rw [version_numbers, version_text, String.toList_ofList, hsplit]
  clear hsplit hne
  induction numbers with
  | nil => rfl
  | cons n numbers ih =>
    rw [List.map_cons, List.mapM_cons, lib.python.int_str, ih]
    rfl

theorem encode_audit_state_eq_ok_iff {audit_state : Int} {b : Bitstring} :
    encode_audit_state audit_state = .ok b ↔
      ∃ bit : Bool, b = [bit] ∧
        audit_state = if bit then AUDIT_STATE_SUCCESS else AUDIT_STATE_ERROR := by
  have hone : to_bitstring 1 1 = .ok [true] := rfl
  have hzero : to_bitstring 0 1 = .ok [false] := rfl
  unfold encode_audit_state
  by_cases hsuccess : audit_state = AUDIT_STATE_SUCCESS
  · subst hsuccess
    simp [hone, AUDIT_STATE_SUCCESS, AUDIT_STATE_ERROR, eq_comm]
  · by_cases herror : audit_state = AUDIT_STATE_ERROR
    · subst herror
      simp [hzero, AUDIT_STATE_SUCCESS, AUDIT_STATE_ERROR, eq_comm]
    · simp [hsuccess, herror]

theorem encode_status_eq_ok_iff {status : String} {b : Bitstring} :
    encode_status status = .ok b ↔
      ∃ bit : Bool, b = [bit] ∧
        status = if bit then AUDIT_STATUS_SUCCESS else AUDIT_STATUS_ERROR := by
  have hone : to_bitstring 1 1 = .ok [true] := rfl
  have hzero : to_bitstring 0 1 = .ok [false] := rfl
  unfold encode_status
  by_cases hsuccess : status = AUDIT_STATUS_SUCCESS
  · subst hsuccess
    simp [hone, AUDIT_STATUS_SUCCESS, AUDIT_STATUS_ERROR, eq_comm]
  · by_cases herror : status = AUDIT_STATUS_ERROR
    · subst herror
      simp [hzero, AUDIT_STATUS_SUCCESS, AUDIT_STATUS_ERROR, eq_comm]
    · simp [hsuccess, herror]

/-- The header is written exactly for three version numbers that fit their
    fields, a known audit state and a known status. -/
theorem encode_header_bytes_eq_ok_iff {version : String} {audit_state : Int} {status : String}
    {b : Bitstring} :
    encode_header_bytes version audit_state status = .ok b ↔
      ∃ (major minor patch : Nat) (state_bit status_bit : Bool),
        version_numbers version = some [(major : Int), (minor : Int), (patch : Int)] ∧
        major < 2 ^ MAJOR_VERSION_SIZE ∧ minor < 2 ^ MINOR_VERSION_SIZE ∧
        patch < 2 ^ PATCH_VERSION_SIZE ∧
        (audit_state = if state_bit then AUDIT_STATE_SUCCESS else AUDIT_STATE_ERROR) ∧
        (status = if status_bit then AUDIT_STATUS_SUCCESS else AUDIT_STATUS_ERROR) ∧
        b = format_bits MAJOR_VERSION_SIZE major ++ format_bits MINOR_VERSION_SIZE minor ++
          format_bits PATCH_VERSION_SIZE patch ++ [state_bit] ++ [status_bit] := by
  unfold encode_header_bytes
  split
  · rename_i major minor patch hversion
    simp only [bind_eq_ok_iff, pure_eq_ok_iff, to_bitstring_eq_ok_iff, encode_audit_state_eq_ok_iff,
      encode_status_eq_ok_iff, hversion, Option.some.injEq, List.cons.injEq, and_true]
    constructor
    · rintro ⟨_, ⟨major, rfl, hmajor, rfl⟩, _, ⟨minor, rfl, hminor, rfl⟩, _,
        ⟨patch, rfl, hpatch, rfl⟩, _, ⟨state_bit, rfl, hstate⟩, _, ⟨status_bit, rfl, hstatus⟩, rfl⟩
      exact ⟨major, minor, patch, state_bit, status_bit, ⟨rfl, rfl, rfl⟩, hmajor, hminor, hpatch,
        hstate, hstatus, rfl⟩
    · rintro ⟨major, minor, patch, state_bit, status_bit, ⟨rfl, rfl, rfl⟩, hmajor, hminor, hpatch,
        hstate, hstatus, rfl⟩
      exact ⟨_, ⟨major, rfl, hmajor, rfl⟩, _, ⟨minor, rfl, hminor, rfl⟩, _,
        ⟨patch, rfl, hpatch, rfl⟩, _, ⟨state_bit, rfl, hstate⟩, _, ⟨status_bit, rfl, hstatus⟩, rfl⟩
  · rename_i hversion
    constructor
    · intro hok
      cases hok
    · rintro ⟨major, minor, patch, _, _, hnumbers, _⟩
      exact absurd hnumbers (hversion _ _ _)

theorem bit_at_append {a b : Bitstring} {bit : Bool} {i : Nat} (hlength : a.length = i) :
    bit_at (a ++ bit :: b) i = .ok bit := by
  simp [bit_at, ← hlength]

/-- A header is read off the five fields it is the concatenation of. -/
theorem decode_header_bytes_fields {b_major b_minor b_patch : Bitstring} (state_bit status_bit : Bool)
    (hmajor : b_major.length = MAJOR_VERSION_SIZE) (hminor : b_minor.length = MINOR_VERSION_SIZE)
    (hpatch : b_patch.length = PATCH_VERSION_SIZE) :
    decode_header_bytes (b_major ++ b_minor ++ b_patch ++ [state_bit] ++ [status_bit]) =
      .ok (version_text [(bits_value b_major : Int), (bits_value b_minor : Int), (bits_value b_patch : Int)],
        if state_bit then AUDIT_STATE_SUCCESS else AUDIT_STATE_ERROR,
        if status_bit then AUDIT_STATUS_SUCCESS else AUDIT_STATUS_ERROR) := by
  have hnonempty {b : Bitstring} {n : Nat} (hlength : b.length = n) (hpos : 0 < n) : b ≠ [] := by
    rintro rfl
    simp at hlength
    omega
  have htake : (b_major ++ b_minor ++ b_patch ++ [state_bit] ++ [status_bit]).take MAJOR_VERSION_SIZE =
      b_major := by
    simp only [List.append_assoc]
    exact List.take_left' hmajor
  have hslice_minor : slice (b_major ++ b_minor ++ b_patch ++ [state_bit] ++ [status_bit])
      MINOR_VERSION_START (MINOR_VERSION_START + MINOR_VERSION_SIZE) = b_minor := by
    simp only [List.append_assoc]
    exact slice_append hmajor hminor
  have hslice_patch : slice (b_major ++ b_minor ++ b_patch ++ [state_bit] ++ [status_bit])
      PATCH_VERSION_START (PATCH_VERSION_START + PATCH_VERSION_SIZE) = b_patch := by
    rw [List.append_assoc (b_major ++ b_minor ++ b_patch), List.append_assoc (b_major ++ b_minor)]
    exact slice_append (by rw [List.length_append, hmajor, hminor]; rfl) hpatch
  have hstate : bit_at (b_major ++ b_minor ++ b_patch ++ [state_bit] ++ [status_bit])
      AUDIT_STATE_INDEX = .ok state_bit := by
    rw [List.append_assoc]
    exact bit_at_append (by simp only [List.length_append, hmajor, hminor, hpatch]; rfl)
  have hstatus : bit_at (b_major ++ b_minor ++ b_patch ++ [state_bit] ++ [status_bit])
      STATUS_INDEX = .ok status_bit :=
    bit_at_append (by simp only [List.length_append, hmajor, hminor, hpatch]; rfl)
  have hb_major := from_bitstring_eq_ok_iff.mpr ⟨hnonempty hmajor (by decide), rfl⟩
  have hb_minor := from_bitstring_eq_ok_iff.mpr ⟨hnonempty hminor (by decide), rfl⟩
  have hb_patch := from_bitstring_eq_ok_iff.mpr ⟨hnonempty hpatch (by decide), rfl⟩
  simp only [decode_header_bytes, htake, hslice_minor, hslice_patch, hstate, hstatus, hb_major,
    hb_minor, hb_patch]
  rfl

/-- Reading succeeds exactly on bitstrings that reach the last header bit. -/
theorem decode_header_bytes_ok_iff {b : Bitstring} (hlength : b.length ≤ HEADER_SIZE) :
    (∃ header, decode_header_bytes b = .ok header) ↔ b.length = HEADER_SIZE := by
  constructor
  · rintro ⟨header, hok⟩
    simp only [decode_header_bytes, bind_eq_ok_iff] at hok
    obtain ⟨_, _, _, _, _, _, _, _, bit, hbit, _⟩ := hok
    have hreach : STATUS_INDEX < b.length := by
      by_contra hnot
      rw [bit_at, List.getElem?_eq_none (by omega)] at hbit
      cases hbit
    simp only [STATUS_INDEX, AUDIT_STATE_INDEX, PATCH_VERSION_START, MINOR_VERSION_START,
      MAJOR_VERSION_SIZE, MINOR_VERSION_SIZE, PATCH_VERSION_SIZE, HEADER_SIZE] at hreach hlength ⊢
    omega
  · intro hfull
    rw [HEADER_SIZE] at hfull
    obtain ⟨state_bit, status_bit, hlast⟩ : ∃ x y, b.drop 14 = [x, y] := by
      have hdrop : (b.drop 14).length = 2 := by rw [List.length_drop]; omega
      exact List.length_eq_two.mp hdrop
    have hsplit : b = b.take 4 ++ (b.drop 4).take 4 ++ (b.drop 8).take 6 ++ [state_bit] ++ [status_bit] := by
      have hrest : b = b.take 4 ++ ((b.drop 4).take 4 ++ ((b.drop 8).take 6 ++ b.drop 14)) := by
        have h8 : b.drop 8 = (b.drop 4).drop 4 := by rw [List.drop_drop]
        have h14 : b.drop 14 = (b.drop 8).drop 6 := by rw [List.drop_drop]
        rw [h14, List.take_append_drop, h8, List.take_append_drop, List.take_append_drop]
      rw [hlast] at hrest
      simpa using hrest
    rw [hsplit]
    refine ⟨_, decode_header_bytes_fields state_bit status_bit ?_ ?_ ?_⟩
    all_goals
      simp only [List.length_take, List.length_drop, MAJOR_VERSION_SIZE, MINOR_VERSION_SIZE,
        PATCH_VERSION_SIZE]
      omega

end qsp.report_processing
