import Mathlib.Data.List.DropRight
import Mathlib.Data.List.Forall2
import QspNode.Lib.Positional

open lib.positional

namespace lib.python

/-- First code points of the runs of ten decimal digits (category `Nd`) that
    Python's `int` accepts beside the ASCII ones. -/
def decimalZeros : List Nat :=
  [0x660, 0x6f0, 0x7c0, 0x966, 0x9e6, 0xa66, 0xae6, 0xb66, 0xbe6, 0xc66, 0xce6, 0xd66, 0xde6,
    0xe50, 0xed0, 0xf20, 0x1040, 0x1090, 0x17e0, 0x1810, 0x1946, 0x19d0, 0x1a80, 0x1a90, 0x1b50,
    0x1bb0, 0x1c40, 0x1c50, 0xa620, 0xa8d0, 0xa900, 0xa9d0, 0xa9f0, 0xaa50, 0xabf0, 0xff10,
    0x104a0, 0x11066, 0x110f0, 0x11136, 0x111d0, 0x112f0, 0x11450, 0x114d0, 0x11650, 0x116c0,
    0x11730, 0x118e0, 0x11c50, 0x16a60, 0x16b50, 0x1d7ce, 0x1d7d8, 0x1d7e2, 0x1d7ec, 0x1d7f6,
    0x1e950]

def decimal (c : Char) : Option Nat :=
  (decimalZeros.find? (fun start => start ≤ c.toNat && c.toNat < start + 10)).map (c.toNat - ·)

/-- White space outside ASCII, as `str.isspace` has it. -/
def unicodeSpace (c : Char) : Bool :=
  c.toNat ∈ [0x85, 0xa0, 0x1680, 0x2028, 0x2029, 0x202f, 0x205f, 0x3000] ||
    (0x2000 ≤ c.toNat && c.toNat ≤ 0x200a)

/-- `int` first rewrites its text to ASCII: a foreign digit becomes the ASCII
    digit of the same value and a foreign space a blank. -/
def toAscii (c : Char) : Char :=
  if c.toNat < 128 then c
  else if unicodeSpace c then ' '
  else (decimal c).elim '?' Nat.digitChar

def asciiSpace (c : Char) : Bool :=
  c == ' ' || (9 ≤ c.toNat && c.toNat ≤ 13)

/-- The value of an ASCII digit or letter, up to base 36. -/
def asciiDigit (c : Char) : Option Nat :=
  if 48 ≤ c.toNat ∧ c.toNat ≤ 57 then some (c.toNat - 48)
  else if 97 ≤ c.toNat ∧ c.toNat ≤ 122 then some (c.toNat - 87)
  else if 65 ≤ c.toNat ∧ c.toNat ≤ 90 then some (c.toNat - 55)
  else none

/-- Reads digits from the left; a single underscore may stand between two of
    them. The flag says that an underscore or the end may not come next. -/
def readDigits (base : Nat) : Nat → Bool → List Char → Option Nat
  | acc, needDigit, [] => if needDigit then none else some acc
  | acc, needDigit, c :: cs =>
    if c = '_' then
      if needDigit then none else readDigits base acc true cs
    else
      match asciiDigit c with
      | some d => if d < base then readDigits base (acc * base + d) false cs else none
      | none => none

/-- Drops the prefix `0x` of a hexadecimal or `0b` of a binary literal, with the
    underscore that may follow it. -/
def dropPrefix (base : Nat) : List Char → List Char
  | '0' :: c :: cs =>
    if (base = 16 ∧ (c = 'x' ∨ c = 'X')) ∨ (base = 2 ∧ (c = 'b' ∨ c = 'B')) then
      match cs with
      | '_' :: ds => ds
      | ds => ds
    else '0' :: c :: cs
  | cs => cs

def readUnsigned (base : Nat) (s : List Char) : Option Nat :=
  readDigits base 0 true (dropPrefix base s)

def readSigned (base : Nat) : List Char → Option Int
  | '-' :: cs => (readUnsigned base cs).map (fun (n : Nat) => -(n : Int))
  | '+' :: cs => (readUnsigned base cs).map (fun (n : Nat) => (n : Int))
  | cs => (readUnsigned base cs).map (fun (n : Nat) => (n : Int))

/-- Python's `int(s, base)` for the bases 2, 10 and 16; `none` is `ValueError`. -/
def int (base : Nat) (s : List Char) : Option Int :=
  readSigned base (((s.map toAscii).dropWhile asciiSpace).rdropWhile asciiSpace)

/-- Python's `str(n)`. -/
def str (n : Int) : List Char :=
  match n with
  | .ofNat m => Nat.toDigits 10 m
  | .negSucc m => '-' :: Nat.toDigits 10 (m + 1)

/-- The value of one character read as a digit of the given base. -/
def digit (base : Nat) (c : Char) : Option Nat :=
  (asciiDigit (toAscii c)).bind (fun d => if d < base then some d else none)

theorem digit_eq_some_iff {base d : Nat} {c : Char} :
    digit base c = some d ↔ asciiDigit (toAscii c) = some d ∧ d < base := by
  cases h : asciiDigit (toAscii c) with
  | none => simp [digit, h]
  | some e =>
    by_cases hlt : e < base
    · simp only [digit, h, Option.bind_some, hlt, if_true, Option.some.injEq]
      exact ⟨fun heq => ⟨heq, heq ▸ hlt⟩, fun heq => heq.1⟩
    · simp only [digit, h, Option.bind_some, hlt, if_false, Option.some.injEq, reduceCtorEq, false_iff]
      rintro ⟨rfl, hd⟩
      exact hlt hd

/-- A character with a digit value is neither blank nor a sign nor an
    underscore. -/
theorem asciiDigit_some {c : Char} {d : Nat} (hdigit : asciiDigit c = some d) :
    asciiSpace c = false ∧ c ≠ '_' ∧ c ≠ '-' ∧ c ≠ '+' := by
  have hrange : 48 ≤ c.toNat ∧ c.toNat ≤ 57 ∨ 97 ≤ c.toNat ∧ c.toNat ≤ 122 ∨
      65 ≤ c.toNat ∧ c.toNat ≤ 90 := by
    unfold asciiDigit at hdigit
    split at hdigit
    · omega
    · split at hdigit
      · omega
      · split at hdigit
        · omega
        · cases hdigit
  refine ⟨?_, ?_, ?_, ?_⟩
  · rw [asciiSpace, Bool.or_eq_false_iff]
    constructor
    · rw [beq_eq_false_iff_ne]
      rintro rfl
      simp at hrange
    · simp only [Bool.and_eq_false_iff, decide_eq_false_iff_not]
      omega
  all_goals
    rintro rfl
    simp at hrange

theorem dropPrefix_of_digits {base : Nat} {cs : List Char}
    (hdigits : ∀ c ∈ cs, ∃ d, asciiDigit c = some d ∧ d < base) : dropPrefix base cs = cs := by
  unfold dropPrefix
  split
  · rename_i c cs
    rw [if_neg]
    obtain ⟨d, hd, hlt⟩ := hdigits c (by simp)
    rintro (⟨rfl, rfl | rfl⟩ | ⟨rfl, rfl | rfl⟩) <;>
    · simp [asciiDigit] at hd
      omega
  · rfl

theorem readDigits_of_digits {base : Nat} {cs : List Char} {ds : List Nat}
    (hdigits : List.Forall₂ (fun c d => asciiDigit c = some d ∧ d < base) cs ds) (acc : Nat) :
    readDigits base acc false cs = some (acc * base ^ ds.length + value base ds) := by
  induction hdigits generalizing acc with
  | nil => simp [readDigits]
  | @cons c d cs ds hhead _ ih =>
    obtain ⟨_, hunderscore, _, _⟩ := asciiDigit_some hhead.1
    rw [readDigits, if_neg hunderscore, hhead.1]
    simp only [hhead.2, if_true]
    rw [ih, value_cons, List.length_cons, pow_succ]
    congr 1
    ring

theorem readUnsigned_of_digits {base : Nat} {cs : List Char} {ds : List Nat}
    (hdigits : List.Forall₂ (fun c d => asciiDigit c = some d ∧ d < base) cs ds) (hne : cs ≠ []) :
    readUnsigned base cs = some (value base ds) := by
  have hmem : ∀ c ∈ cs, ∃ d, asciiDigit c = some d ∧ d < base := by
    intro c hc
    obtain ⟨i, hi, rfl⟩ := List.getElem_of_mem hc
    have hlen := hdigits.length_eq
    exact ⟨ds[i], hdigits.get hi (hlen ▸ hi)⟩
  rw [readUnsigned, dropPrefix_of_digits hmem]
  cases hdigits with
  | nil => exact absurd rfl hne
  | @cons c d cs ds hhead htail =>
    obtain ⟨_, hunderscore, _, _⟩ := asciiDigit_some hhead.1
    rw [readDigits, if_neg hunderscore, hhead.1]
    simp only [hhead.2, if_true]
    rw [readDigits_of_digits htail, value_cons]
    simp

theorem readSigned_of_unsigned {base : Nat} {cs : List Char}
    (hsign : ∀ c ∈ cs, c ≠ '-' ∧ c ≠ '+') :
    readSigned base cs = (readUnsigned base cs).map (fun (n : Nat) => (n : Int)) := by
  unfold readSigned
  split
  · exact absurd rfl (hsign '-' (by simp)).1
  · exact absurd rfl (hsign '+' (by simp)).2
  · rfl

/-- A text without white space is read as it stands. -/
theorem int_of_no_space {base : Nat} {cs : List Char}
    (hspace : ∀ c ∈ cs.map toAscii, asciiSpace c = false) :
    int base cs = readSigned base (cs.map toAscii) := by
  have hleft : (cs.map toAscii).dropWhile asciiSpace = cs.map toAscii := by
    rw [List.dropWhile_eq_self_iff]
    intro hl
    simpa using hspace _ (List.getElem_mem hl)
  have hright : (cs.map toAscii).rdropWhile asciiSpace = cs.map toAscii := by
    rw [List.rdropWhile_eq_self_iff]
    intro hl
    simpa using hspace _ (List.getLast_mem hl)
  rw [int, hleft, hright]

theorem ascii_of_digits {base : Nat} {cs : List Char} {ds : List Nat}
    (hdigits : List.Forall₂ (fun c d => digit base c = some d) cs ds) :
    List.Forall₂ (fun c d => asciiDigit c = some d ∧ d < base) (cs.map toAscii) ds := by
  rw [List.forall₂_map_left_iff]
  exact hdigits.imp (fun c d h => digit_eq_some_iff.mp h)

theorem plain_of_digits {base : Nat} {cs : List Char} {ds : List Nat}
    (hdigits : List.Forall₂ (fun c d => digit base c = some d) cs ds) :
    ∀ c ∈ cs.map toAscii, asciiSpace c = false ∧ c ≠ '-' ∧ c ≠ '+' := by
  have hascii := ascii_of_digits hdigits
  intro c hc
  obtain ⟨i, hi, rfl⟩ := List.getElem_of_mem hc
  obtain ⟨hspace, _, hminus, hplus⟩ := asciiDigit_some (hascii.get hi (hascii.length_eq ▸ hi)).1
  exact ⟨hspace, hminus, hplus⟩

/-- A nonempty text of digits is read as its value in the base. -/
theorem int_of_digits {base : Nat} {cs : List Char} {ds : List Nat}
    (hdigits : List.Forall₂ (fun c d => digit base c = some d) cs ds) (hne : cs ≠ []) :
    int base cs = some (value base ds : Int) := by
  have hplain := plain_of_digits hdigits
  rw [int_of_no_space (fun c hc => (hplain c hc).1),
    readSigned_of_unsigned (fun c hc => (hplain c hc).2),
    readUnsigned_of_digits (ascii_of_digits hdigits) (by simpa using hne)]
  rfl

theorem int_neg_of_digits {base : Nat} {cs : List Char} {ds : List Nat}
    (hdigits : List.Forall₂ (fun c d => digit base c = some d) cs ds) (hne : cs ≠ []) :
    int base ('-' :: cs) = some (-(value base ds : Int)) := by
  have hminus : toAscii '-' = '-' := by decide
  have hspace : ∀ c ∈ ('-' :: cs).map toAscii, asciiSpace c = false := by
    intro c hc
    rw [List.map_cons, hminus, List.mem_cons] at hc
    obtain rfl | hc := hc
    · decide
    · exact (plain_of_digits hdigits c hc).1
  rw [int_of_no_space hspace, List.map_cons, hminus, readSigned,
    readUnsigned_of_digits (ascii_of_digits hdigits) (by simpa using hne)]
  rfl

/-- One character is a number exactly when it is a digit of the base. -/
theorem int_singleton (base : Nat) (c : Char) :
    int base [c] = (digit base c).map (fun (n : Nat) => (n : Int)) := by
  cases h : digit base c with
  | some d =>
    rw [int_of_digits (List.Forall₂.cons h .nil) (by simp)]
    simp [value]
  | none =>
    have hnone (needDigit : Bool) (hneed : needDigit = true) (acc : Nat) :
        readDigits base acc needDigit [toAscii c] = none := by
      subst hneed
      rw [readDigits]
      split
      · rfl
      · cases hd : asciiDigit (toAscii c) with
        | none => rfl
        | some d =>
          have hlt : ¬ d < base := by
            intro hlt
            rw [digit_eq_some_iff.mpr ⟨hd, hlt⟩] at h
            cases h
          simp [hlt]
    simp only [int, List.map_cons, List.map_nil]
    by_cases hspace : asciiSpace (toAscii c) = true
    · simp [hspace, readSigned, readUnsigned, dropPrefix, readDigits]
    · have hleft : [toAscii c].dropWhile asciiSpace = [toAscii c] := by simp [hspace]
      have hright : [toAscii c].rdropWhile asciiSpace = [toAscii c] := by
        rw [List.rdropWhile_eq_self_iff]
        simp [hspace]
      rw [hleft, hright]
      unfold readSigned
      split
      · rename_i cs heq
        obtain ⟨_, rfl⟩ := List.cons.inj heq
        simp [readUnsigned, dropPrefix, readDigits]
      · rename_i cs heq
        obtain ⟨_, rfl⟩ := List.cons.inj heq
        simp [readUnsigned, dropPrefix, readDigits]
      · simp [readUnsigned, dropPrefix, hnone]

theorem digit_of_isDigit {base : Nat} {c : Char} (hdigit : c.isDigit = true)
    (hbase : 10 ≤ base) : digit base c = some (c.toNat - '0'.toNat) := by
  have hrange : 48 ≤ c.toNat ∧ c.toNat ≤ 57 := by
    rw [Char.isDigit, Bool.and_eq_true, decide_eq_true_eq, decide_eq_true_eq] at hdigit
    exact hdigit
  have hascii : toAscii c = c := if_pos (by omega)
  rw [digit_eq_some_iff, hascii, asciiDigit, if_pos hrange]
  exact ⟨rfl, show c.toNat - 48 < base by omega⟩

theorem value_toDigits (n : Nat) :
    value 10 ((Nat.toDigits 10 n).map (fun c => c.toNat - '0'.toNat)) = n := by
  have hchars := Nat.ofDigitChars_ten_toDigits (n := n)
  rw [Nat.ofDigitChars_eq_foldl] at hchars
  rw [value, List.foldl_map]
  simpa only [Nat.mul_comm] using hchars

theorem digits_toDigits (n : Nat) :
    ∃ ds, List.Forall₂ (fun c d => digit 10 c = some d) (Nat.toDigits 10 n) ds ∧ value 10 ds = n := by
  refine ⟨_, ?_, value_toDigits n⟩
  rw [List.forall₂_map_right_iff, List.forall₂_same]
  intro c hc
  exact digit_of_isDigit (Nat.isDigit_of_mem_toDigits (by decide) (by decide) hc) (by decide)

/-- `int(str(n)) = n`. -/
theorem int_str (n : Int) : int 10 (str n) = some n := by
  cases n with
  | ofNat m =>
    obtain ⟨ds, hdigits, hvalue⟩ := digits_toDigits m
    rw [str, int_of_digits hdigits Nat.toDigits_ne_nil, hvalue]
    rfl
  | negSucc m =>
    obtain ⟨ds, hdigits, hvalue⟩ := digits_toDigits (m + 1)
    rw [str, int_neg_of_digits hdigits Nat.toDigits_ne_nil, hvalue]
    rfl

end lib.python
