import Mathlib.Data.List.Lex
import QspNode.Lib.Positional

open lib.positional

namespace lib.numeral

/-- The symbols of kind `p` are digits of the base, in the order of their values. -/
structure Digits {α : Type} [LinearOrder α] (base : Nat) (digit : α → Nat) (p : α → Prop) : Prop where
  lt_iff : ∀ a b, p a → p b → (a < b ↔ digit a < digit b)
  bound : ∀ a, p a → digit a < base

section
variable {α : Type} [LinearOrder α] {base : Nat} {digit : α → Nat} {p : α → Prop} {xs ys zs : List α}

theorem cons_le_cons_iff {a b : α} : a :: xs ≤ b :: ys ↔ a < b ∨ a = b ∧ xs ≤ ys := by
  rw [← not_lt, ← not_lt, List.cons_lt_cons_iff, not_or, not_lt, not_and]
  constructor
  · rintro ⟨hle, hrest⟩
    rcases hle.lt_or_eq with hlt | heq
    · exact Or.inl hlt
    · exact Or.inr ⟨heq, hrest heq.symm⟩
  · rintro (hlt | ⟨rfl, hrest⟩)
    · exact ⟨hlt.le, fun heq => absurd heq hlt.ne'⟩
    · exact ⟨le_rfl, fun _ => hrest⟩

theorem nil_le : [] ≤ xs := not_lt.mp (List.not_lt_nil xs)

theorem Digits.eq_iff (hdigits : Digits base digit p) {a b : α} (ha : p a) (hb : p b) :
    a = b ↔ digit a = digit b := by
  have hlt := hdigits.lt_iff a b ha hb
  have hgt := hdigits.lt_iff b a hb ha
  constructor
  · rintro rfl
    rfl
  · intro heq
    apply le_antisymm
    · rw [← not_lt, hgt]
      omega
    · rw [← not_lt, hlt]
      omega

theorem Digits.value_lt (hdigits : Digits base digit p) (hxs : ∀ a ∈ xs, p a) :
    value base (xs.map digit) < base ^ xs.length := by
  have hlt : value base (xs.map digit) < base ^ (xs.map digit).length := by
    apply positional.value_lt
    rw [List.forall_mem_map]
    exact fun a ha => hdigits.bound a (hxs a ha)
  rwa [List.length_map] at hlt

/-- The order of a leading digit and a rest below its weight. -/
theorem lead_le_iff {d e v w b : Nat} (hv : v < b) (hw : w < b) :
    d * b + v ≤ e * b + w ↔ d < e ∨ d = e ∧ v ≤ w := by
  rcases Nat.lt_trichotomy d e with hlt | rfl | hgt
  · have hmul : (d + 1) * b ≤ e * b := Nat.mul_le_mul_right b hlt
    rw [Nat.succ_mul] at hmul
    exact iff_of_true (by omega) (Or.inl hlt)
  · omega
  · have hmul : (e + 1) * b ≤ d * b := Nat.mul_le_mul_right b hgt
    rw [Nat.succ_mul] at hmul
    exact iff_of_false (by omega) (by omega)

/-- Numerals of one length are ordered as their values. -/
theorem Digits.le_iff_of_length_eq (hdigits : Digits base digit p) (hxs : ∀ a ∈ xs, p a)
    (hys : ∀ a ∈ ys, p a) (hlength : xs.length = ys.length) :
    xs ≤ ys ↔ value base (xs.map digit) ≤ value base (ys.map digit) := by
  induction xs generalizing ys with
  | nil =>
    obtain rfl := List.length_eq_zero_iff.mp hlength.symm
    exact iff_of_true nil_le le_rfl
  | cons a xs ih =>
    cases ys with
    | nil => cases hlength
    | cons b ys =>
      rw [List.forall_mem_cons] at hxs hys
      have hlength' : xs.length = ys.length := Nat.succ.inj hlength
      have hvx := hdigits.value_lt hxs.2
      have hvy := hdigits.value_lt hys.2
      rw [cons_le_cons_iff, ih hxs.2 hys.2 hlength', hdigits.lt_iff a b hxs.1 hys.1,
        hdigits.eq_iff hxs.1 hys.1, List.map_cons, List.map_cons, value_cons, value_cons,
        List.length_map, List.length_map, ← hlength', lead_le_iff hvx (hlength' ▸ hvy)]

theorem le_append_iff (hlength : xs.length = ys.length) : xs ≤ ys ++ zs ↔ xs ≤ ys := by
  induction xs generalizing ys with
  | nil => exact iff_of_true nil_le nil_le
  | cons a xs ih =>
    cases ys with
    | nil => cases hlength
    | cons b ys =>
      rw [List.cons_append, cons_le_cons_iff, cons_le_cons_iff, ih (Nat.succ.inj hlength)]

/-- A numeral comes before a longer one exactly when its value is at most that
    of the leading digits. -/
theorem Digits.le_iff (hdigits : Digits base digit p) (hxs : ∀ a ∈ xs, p a) (hys : ∀ a ∈ ys, p a)
    (hlength : xs.length ≤ ys.length) :
    xs ≤ ys ↔
      value base (xs.map digit) ≤ value base (ys.map digit) / base ^ (ys.length - xs.length) := by
  have htake : (ys.take xs.length).length = xs.length := by
    rw [List.length_take, Nat.min_eq_left hlength]
  have hlead : ∀ a ∈ ys.take xs.length, p a := fun a ha => hys a (List.mem_of_mem_take ha)
  have hrest : ∀ a ∈ ys.drop xs.length, p a := fun a ha => hys a (List.mem_of_mem_drop ha)
  have hvalue : value base (ys.map digit) / base ^ (ys.length - xs.length) =
      value base ((ys.take xs.length).map digit) := by
    have hlt := hdigits.value_lt hrest
    rw [List.length_drop] at hlt
    have hsplit : value base (ys.map digit) =
        value base ((ys.take xs.length).map digit) * base ^ (ys.length - xs.length) +
          value base ((ys.drop xs.length).map digit) := by
      have happend := value_append base ((ys.take xs.length).map digit) ((ys.drop xs.length).map digit)
      rwa [← List.map_append, List.take_append_drop, List.length_map, List.length_drop] at happend
    rw [hsplit, Nat.add_comm, Nat.add_mul_div_right _ _ (Nat.zero_lt_of_lt hlt), Nat.div_eq_of_lt hlt,
      Nat.zero_add]
  rw [hvalue, ← hdigits.le_iff_of_length_eq hxs hlead htake.symm, ← le_append_iff htake.symm,
    List.take_append_drop]

end

end lib.numeral
