import Mathlib.Data.List.Basic
import Mathlib.Data.List.Induction
import Mathlib.Tactic.Ring

namespace lib.positional

/-- The value of a big-endian digit list. -/
def value (base : Nat) (digits : List Nat) : Nat :=
  digits.foldl (fun acc digit => acc * base + digit) 0

/-- The `width` big-endian digits of a number, zero-padded on the left. Higher
    digits are dropped, so the numeral is exact only below `base ^ width`. -/
def digits (base : Nat) : Nat → Nat → List Nat
  | 0, _ => []
  | width + 1, n => digits base width (n / base) ++ [n % base]

@[simp]
theorem value_nil (base : Nat) : value base [] = 0 := rfl

@[simp]
theorem value_concat (base : Nat) (ds : List Nat) (d : Nat) :
    value base (ds ++ [d]) = value base ds * base + d := by
  simp [value, List.foldl_append]

theorem value_append (base : Nat) (high low : List Nat) :
    value base (high ++ low) = value base high * base ^ low.length + value base low := by
  induction low using List.reverseRecOn with
  | nil => simp
  | append_singleton low d ih =>
    rw [← List.append_assoc, value_concat, ih, value_concat, List.length_append,
      List.length_singleton, pow_succ]
    ring

theorem value_cons (base d : Nat) (ds : List Nat) :
    value base (d :: ds) = d * base ^ ds.length + value base ds := by
  have happend := value_append base [d] ds
  rwa [List.singleton_append, ← List.nil_append [d], value_concat, value_nil, Nat.zero_mul,
    Nat.zero_add] at happend

theorem value_lt {base : Nat} {ds : List Nat} (hdigits : ∀ d ∈ ds, d < base) :
    value base ds < base ^ ds.length := by
  induction ds using List.reverseRecOn with
  | nil => simp
  | append_singleton ds d ih =>
    have hlow : d < base := hdigits d (by simp)
    have hhigh := ih (fun e he => hdigits e (by simp [he]))
    rw [value_concat, List.length_append, List.length_singleton, pow_succ]
    calc value base ds * base + d < value base ds * base + base := by omega
      _ = (value base ds + 1) * base := by ring
      _ ≤ base ^ ds.length * base := Nat.mul_le_mul_right base hhigh

@[simp]
theorem digits_zero (base n : Nat) : digits base 0 n = [] := rfl

theorem digits_succ (base width n : Nat) :
    digits base (width + 1) n = digits base width (n / base) ++ [n % base] := rfl

@[simp]
theorem length_digits (base width n : Nat) : (digits base width n).length = width := by
  induction width generalizing n with
  | zero => rfl
  | succ width ih => simp [digits_succ, ih]

theorem lt_of_mem_digits {base width n d : Nat} (hbase : 0 < base)
    (hmem : d ∈ digits base width n) : d < base := by
  induction width generalizing n with
  | zero => simp at hmem
  | succ width ih =>
    rw [digits_succ, List.mem_append, List.mem_singleton] at hmem
    obtain hhigh | rfl := hmem
    · exact ih hhigh
    · exact Nat.mod_lt n hbase

theorem value_digits (base width n : Nat) : value base (digits base width n) = n % base ^ width := by
  induction width generalizing n with
  | zero => simp [Nat.mod_one]
  | succ width ih =>
    rw [digits_succ, value_concat, ih, pow_succ', Nat.mod_mul]
    ring

theorem value_digits_of_lt {base width n : Nat} (hlt : n < base ^ width) :
    value base (digits base width n) = n := by
  rw [value_digits, Nat.mod_eq_of_lt hlt]

/-- Digit lists of one length are determined by their values. -/
theorem digits_value {base : Nat} {ds : List Nat} (hdigits : ∀ d ∈ ds, d < base) :
    digits base ds.length (value base ds) = ds := by
  induction ds using List.reverseRecOn with
  | nil => rfl
  | append_singleton ds d ih =>
    have hlow : d < base := hdigits d (by simp)
    have hhigh := ih (fun e he => hdigits e (by simp [he]))
    have hdiv : (value base ds * base + d) / base = value base ds := by
      rw [Nat.add_comm, Nat.add_mul_div_right _ _ (by omega), Nat.div_eq_of_lt hlow, Nat.zero_add]
    have hmod : (value base ds * base + d) % base = d := by
      rw [Nat.add_comm, Nat.add_mul_mod_self_right, Nat.mod_eq_of_lt hlow]
    rw [List.length_append, List.length_singleton, digits_succ, value_concat, hdiv, hmod, hhigh]

/-- Splitting every digit of a numeral of base `b ^ k` into `k` digits of base
    `b` keeps its value. -/
theorem value_flatMap_digits {b k : Nat} {ds : List Nat} (hdigits : ∀ d ∈ ds, d < b ^ k) :
    value b (ds.flatMap (digits b k)) = value (b ^ k) ds := by
  induction ds using List.reverseRecOn with
  | nil => rfl
  | append_singleton ds d ih =>
    have hlow : d < b ^ k := hdigits d (by simp)
    have hhigh := ih (fun e he => hdigits e (by simp [he]))
    rw [List.flatMap_append, List.flatMap_singleton, value_append, hhigh, length_digits,
      value_digits_of_lt hlow, value_concat]

/-- A numeral of base `b` whose length is a multiple of `k` is the splitting of
    a numeral of base `b ^ k`. -/
theorem exists_flatMap_digits {b k : Nat} {ds : List Nat} (hdigits : ∀ d ∈ ds, d < b)
    {n : Nat} (hlength : ds.length = n * k) :
    ∃ es : List Nat, es.length = n ∧ (∀ e ∈ es, e < b ^ k) ∧ es.flatMap (digits b k) = ds := by
  induction n generalizing ds with
  | zero =>
    have hnil : ds = [] := List.length_eq_zero_iff.mp (by simpa using hlength)
    exact ⟨[], by simp [hnil]⟩
  | succ n ih =>
    have hk : k ≤ ds.length := by rw [hlength, Nat.succ_mul]; omega
    have hhead : ∀ d ∈ ds.take k, d < b := fun d hd => hdigits d (List.mem_of_mem_take hd)
    have htail : ∀ d ∈ ds.drop k, d < b := fun d hd => hdigits d (List.mem_of_mem_drop hd)
    obtain ⟨es, hes, hbound, hsplit⟩ := ih htail
      (by rw [List.length_drop, hlength, Nat.succ_mul]; omega)
    have hlen : (ds.take k).length = k := by rw [List.length_take]; omega
    have hfirst := digits_value hhead
    rw [hlen] at hfirst
    refine ⟨value b (ds.take k) :: es, by simp [hes], ?_, ?_⟩
    · intro e he
      obtain rfl | he := List.mem_cons.mp he
      · simpa [hlen] using value_lt hhead
      · exact hbound e he
    · rw [List.flatMap_cons, hsplit, hfirst, List.take_append_drop]

end lib.positional
