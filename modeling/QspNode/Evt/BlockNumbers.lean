import Mathlib.Data.String.Basic
import Mathlib.Order.Bounds.Defs
import QspNode.Evt.Store
import QspNode.Lib.Numeral

open lib.numeral lib.positional

namespace qsp.evt

/-- `get_latest_block_number`: the query takes the maximum of a text column, and
    its row is decoded; `none` when the text is no integer. -/
def get_latest_block_number (table : List Row) : Option Int :=
  match (table.map Evt.assigned_block_nbr).max? with
  | none => some (-1)
  | some text => int text

def get_next_block_number (table : List Row) : Option Int :=
  (get_latest_block_number table).map (fun current => if current < 0 then 0 else current + 1)

/-- The table after a sequence of insertions. -/
def added (calls : List NewEvt) : List Row :=
  calls.foldl (fun table evt => (Write.add_evt_to_be_assigned evt).exec table) []

section Numerals

theorem digits_decimal :
    Digits 10 (fun c : Char => c.toNat - '0'.toNat) (fun c : Char => c.isDigit = true) := by
  constructor
  · intro a b ha hb
    rw [Char.isDigit_iff_toNat] at ha hb
    rw [Char.lt_def, UInt32.lt_iff_toNat_lt]
    show a.toNat < b.toNat ↔ _
    omega
  · intro a ha
    rw [Char.isDigit_iff_toNat] at ha
    have hnine : '9'.toNat = '0'.toNat + 9 := rfl
    omega

theorem length_toDigits_mono {k m : Nat} (hle : k ≤ m) :
    (Nat.toDigits 10 k).length ≤ (Nat.toDigits 10 m).length := by
  have hbase : 1 < 10 := by decide
  rw [Nat.length_toDigits_le_iff hbase Nat.length_toDigits_pos]
  have hlt : m < 10 ^ (Nat.toDigits 10 m).length :=
    (Nat.length_toDigits_le_iff hbase Nat.length_toDigits_pos).mp (Nat.le_refl _)
  exact Nat.lt_of_le_of_lt hle hlt

/-- A number comes no later than a larger one in the order of their texts
    exactly when it does not exceed the leading digits of that. -/
theorem str_le_str_iff {k m : Nat} (hle : k ≤ m) :
    str k ≤ str m ↔ k ≤ m / 10 ^ ((str m).length - (str k).length) := by
  have hdigits : ∀ n : Nat, ∀ c ∈ Nat.toDigits 10 n, c.isDigit = true :=
    fun n c hc => Nat.isDigit_of_mem_toDigits (by decide) (by decide) hc
  have hstr : ∀ n : Nat, (str n).toList = Nat.toDigits 10 n := fun n => String.toList_ofList
  rw [String.le_iff_toList_le, ← String.length_toList, ← String.length_toList, hstr, hstr,
    digits_decimal.le_iff (hdigits k) (hdigits m) (length_toDigits_mono hle),
    lib.python.value_toDigits, lib.python.value_toDigits]

theorem str_le_str_iff_of_nonneg {k m : Int} (hnonneg : 0 ≤ k) (hle : k ≤ m) :
    str k ≤ str m ↔ k ≤ m / 10 ^ ((str m).length - (str k).length) := by
  obtain ⟨k, rfl⟩ := Int.eq_ofNat_of_zero_le hnonneg
  obtain ⟨m, rfl⟩ := Int.eq_ofNat_of_zero_le (Int.le_trans hnonneg hle)
  rw [str_le_str_iff (Int.ofNat_le.mp hle)]
  norm_cast

end Numerals

/-- Two calls are for the same row. -/
def NewEvt.key (evt : NewEvt) : Int × EvtType := (evt.request_id, evt.fk_type)

/-- The call is the first one for its row, which the later ones do not replace. -/
def Inserted (calls : List NewEvt) (evt : NewEvt) : Prop :=
  ∃ before after, calls = before ++ evt :: after ∧ ∀ e ∈ before, e.key ≠ evt.key

def block_numbers (calls : List NewEvt) : Set Int :=
  {n | ∃ evt ∈ calls, evt.assigned_block_nbr = n}

/-- The latest block number is the largest one of the calls, and the next one its
    successor. -/
structure LatestCorrect (calls : List NewEvt) : Prop where
  empty : calls = [] → get_latest_block_number (added calls) = some (-1) ∧
    get_next_block_number (added calls) = some 0
  greatest : ∀ m, IsGreatest (block_numbers calls) m →
    get_latest_block_number (added calls) = some m ∧ get_next_block_number (added calls) = some (m + 1)

/-- The largest block number is inserted, and none that is inserted exceeds as
    many of its leading digits as it has itself. -/
def LargestLast (calls : List NewEvt) : Prop :=
  ∀ m, IsGreatest (block_numbers calls) m →
    (∃ evt, Inserted calls evt ∧ evt.assigned_block_nbr = m) ∧
      ∀ evt, Inserted calls evt →
        evt.assigned_block_nbr ≤ m / 10 ^ ((str m).length - (str evt.assigned_block_nbr).length)

section
variable {calls : List NewEvt} {evt : NewEvt}

theorem inserted_concat_iff {e : NewEvt} :
    Inserted (calls ++ [evt]) e ↔ Inserted calls e ∨ e = evt ∧ ∀ e' ∈ calls, e'.key ≠ evt.key := by
  constructor
  · rintro ⟨before, after, hsplit, hfirst⟩
    rcases List.eq_nil_or_concat after with rfl | ⟨after, last, rfl⟩
    · obtain ⟨rfl, heq⟩ := List.append_inj' hsplit rfl
      obtain rfl := List.cons.inj heq |>.1
      exact Or.inr ⟨rfl, hfirst⟩
    · rw [List.concat_eq_append, ← List.cons_append, ← List.append_assoc] at hsplit
      obtain ⟨rfl, _⟩ := List.append_inj' hsplit rfl
      exact Or.inl ⟨before, after, rfl, hfirst⟩
  · rintro (⟨before, after, rfl, hfirst⟩ | ⟨rfl, hfirst⟩)
    · exact ⟨before, after ++ [evt], by simp, hfirst⟩
    · exact ⟨calls, [], rfl, hfirst⟩

theorem Inserted.mem (hinserted : Inserted calls evt) : evt ∈ calls := by
  obtain ⟨before, after, rfl, _⟩ := hinserted
  simp

/-- For every row that is asked for there is a first call. -/
theorem exists_inserted {key : Int × EvtType} (hasked : ∃ evt ∈ calls, evt.key = key) :
    ∃ evt, Inserted calls evt ∧ evt.key = key := by
  induction calls using List.reverseRecOn with
  | nil => simp at hasked
  | append_singleton calls last ih =>
    by_cases hearlier : ∃ evt ∈ calls, evt.key = key
    · obtain ⟨evt, hevt, hkey⟩ := ih hearlier
      exact ⟨evt, inserted_concat_iff.mpr (Or.inl hevt), hkey⟩
    · obtain ⟨evt, hevt, hkey⟩ := hasked
      rcases List.mem_append.mp hevt with hevt | hevt
      · exact absurd ⟨evt, hevt, hkey⟩ hearlier
      · obtain rfl := List.mem_singleton.mp hevt
        have hnew : ∀ e ∈ calls, e.key ≠ evt.key := by
          intro e he hsame
          exact hearlier ⟨e, he, hsame.trans hkey⟩
        exact ⟨evt, inserted_concat_iff.mpr (Or.inr ⟨rfl, hnew⟩), hkey⟩

theorem added_concat (calls : List NewEvt) (evt : NewEvt) :
    added (calls ++ [evt]) = (Write.add_evt_to_be_assigned evt).exec (added calls) := by
  rw [added, List.foldl_append, ← added]
  rfl

/-- The table holds the events of the first calls. -/
theorem mem_added_iff {row : Row} :
    row ∈ added calls ↔ ∃ evt, Inserted calls evt ∧ row = encode evt.event := by
  induction calls using List.reverseRecOn generalizing row with
  | nil => simp [added, Inserted]
  | append_singleton calls last ih =>
    have hasked : (added calls).any
        (fun row => row.request_id = last.request_id ∧ row.fk_type = last.fk_type) = true ↔
          ∃ evt ∈ calls, evt.key = last.key := by
      rw [List.any_eq_true]
      constructor
      · rintro ⟨row, hrow, hsame⟩
        obtain ⟨evt, hevt, rfl⟩ := ih.mp hrow
        obtain ⟨hid, htype⟩ := of_decide_eq_true hsame
        exact ⟨evt, hevt.mem, Prod.ext hid htype⟩
      · intro hasked
        obtain ⟨evt, hevt, hkey⟩ := exists_inserted hasked
        obtain ⟨hid, htype⟩ := Prod.mk.inj hkey
        exact ⟨encode evt.event, ih.mpr ⟨evt, hevt, rfl⟩, decide_eq_true ⟨hid, htype⟩⟩
    rw [added_concat, Write.exec]
    simp only [inserted_concat_iff]
    split
    · next hany =>
      obtain ⟨e, he, hkey⟩ := hasked.mp hany
      have hold : ¬ ∀ e' ∈ calls, e'.key ≠ last.key := fun hnew => hnew e he hkey
      simp only [hold, and_false, or_false]
      exact ih
    · next hany =>
      rw [hasked] at hany
      have hnew : ∀ e' ∈ calls, e'.key ≠ last.key := fun e he hkey => hany ⟨e, he, hkey⟩
      rw [List.mem_append, List.mem_singleton, ih]
      constructor
      · rintro (⟨evt, hevt, rfl⟩ | rfl)
        · exact ⟨evt, Or.inl hevt, rfl⟩
        · exact ⟨last, Or.inr ⟨rfl, hnew⟩, rfl⟩
      · rintro ⟨evt, hevt | ⟨rfl, _⟩, rfl⟩
        · exact Or.inl ⟨evt, hevt, rfl⟩
        · exact Or.inr rfl

theorem mem_texts_iff {text : String} :
    text ∈ (added calls).map Evt.assigned_block_nbr ↔
      ∃ evt, Inserted calls evt ∧ str evt.assigned_block_nbr = text := by
  rw [List.mem_map]
  constructor
  · rintro ⟨row, hrow, rfl⟩
    obtain ⟨evt, hevt, rfl⟩ := mem_added_iff.mp hrow
    exact ⟨evt, hevt, rfl⟩
  · rintro ⟨evt, hevt, rfl⟩
    exact ⟨encode evt.event, mem_added_iff.mpr ⟨evt, hevt, rfl⟩, rfl⟩

theorem max_texts_iff {text : String} :
    ((added calls).map Evt.assigned_block_nbr).max? = some text ↔
      (∃ evt, Inserted calls evt ∧ str evt.assigned_block_nbr = text) ∧
        ∀ evt, Inserted calls evt → str evt.assigned_block_nbr ≤ text := by
  rw [List.max?_eq_some_iff, mem_texts_iff]
  apply and_congr_right
  intro _
  constructor
  · intro hmax evt hevt
    exact hmax _ (mem_texts_iff.mpr ⟨evt, hevt, rfl⟩)
  · intro hmax other hother
    obtain ⟨evt, hevt, rfl⟩ := mem_texts_iff.mp hother
    exact hmax evt hevt

/-- The latest block number is the one whose text is the greatest. -/
theorem get_latest_block_number_added_iff {m : Int} (hcalls : calls ≠ []) :
    get_latest_block_number (added calls) = some m ↔
      (∃ evt, Inserted calls evt ∧ evt.assigned_block_nbr = m) ∧
        ∀ evt, Inserted calls evt → str evt.assigned_block_nbr ≤ str m := by
  obtain ⟨evt, hevt⟩ := List.exists_mem_of_ne_nil calls hcalls
  obtain ⟨first, hfirst, _⟩ := exists_inserted ⟨evt, hevt, rfl⟩
  unfold get_latest_block_number
  cases hmax : ((added calls).map Evt.assigned_block_nbr).max? with
  | none =>
    rw [List.max?_eq_none_iff] at hmax
    have hmem := mem_texts_iff.mpr ⟨first, hfirst, rfl⟩
    rw [hmax] at hmem
    cases hmem
  | some text =>
    obtain ⟨⟨greatest, hgreatest, rfl⟩, hall⟩ := max_texts_iff.mp hmax
    show int (str greatest.assigned_block_nbr) = some m ↔ _
    rw [int_str, Option.some.injEq]
    constructor
    · rintro rfl
      exact ⟨⟨greatest, hgreatest, rfl⟩, hall⟩
    · rintro ⟨⟨evt, hevt, rfl⟩, hall'⟩
      have heq := le_antisymm (hall' greatest hgreatest) (hall evt hevt)
      have hint := congrArg int heq
      rw [int_str, int_str] at hint
      exact Option.some.inj hint

/-- Block numbers are compared as texts: the latest one is the largest exactly
    when the order of the texts puts that last. -/
theorem latestCorrect_iff (hnonneg : ∀ evt ∈ calls, 0 ≤ evt.assigned_block_nbr) :
    LatestCorrect calls ↔ LargestLast calls := by
  have hgreatest : ∀ m, IsGreatest (block_numbers calls) m →
      (get_latest_block_number (added calls) = some m ∧
          get_next_block_number (added calls) = some (m + 1) ↔
        (∃ evt, Inserted calls evt ∧ evt.assigned_block_nbr = m) ∧
          ∀ evt, Inserted calls evt →
            evt.assigned_block_nbr ≤
              m / 10 ^ ((str m).length - (str evt.assigned_block_nbr).length)) := by
    rintro m ⟨⟨evt, hevt, rfl⟩, hbound⟩
    have hlatest := get_latest_block_number_added_iff (List.ne_nil_of_mem hevt)
      (m := evt.assigned_block_nbr)
    have hnext : get_latest_block_number (added calls) = some evt.assigned_block_nbr →
        get_next_block_number (added calls) = some (evt.assigned_block_nbr + 1) := by
      intro hlatest
      rw [get_next_block_number, hlatest, Option.map_some, if_neg (Int.not_lt.mpr (hnonneg evt hevt))]
    have horder : ∀ e, Inserted calls e →
        (str e.assigned_block_nbr ≤ str evt.assigned_block_nbr ↔
          e.assigned_block_nbr ≤ evt.assigned_block_nbr /
            10 ^ ((str evt.assigned_block_nbr).length - (str e.assigned_block_nbr).length)) := by
      intro e he
      exact str_le_str_iff_of_nonneg (hnonneg e he.mem) (hbound ⟨e, he.mem, rfl⟩)
    rw [and_iff_left_of_imp hnext, hlatest]
    apply and_congr_right
    intro _
    exact forall₂_congr horder
  constructor
  · intro hcorrect m hm
    exact (hgreatest m hm).mp (hcorrect.greatest m hm)
  · intro hlast
    refine ⟨?_, fun m hm => (hgreatest m hm).mpr (hlast m hm)⟩
    rintro rfl
    exact ⟨rfl, rfl⟩

end

def assigned_at (request_id assigned_block_nbr : Int) : NewEvt :=
  { request_id
    requestor := "0x1"
    contract_uri := "https://contract"
    evt_name := "LogAuditAssigned"
    assigned_block_nbr
    status_info := "Audit Assigned"
    fk_type := .AU
    price := 10 }

theorem latestCorrect_three_digits :
    LatestCorrect [assigned_at 1 100, assigned_at 2 101] ↔
      LargestLast [assigned_at 1 100, assigned_at 2 101] := by
  apply latestCorrect_iff
  simp [assigned_at]

/-- Between the blocks 99 and 100 the former counts as the latest one. -/
theorem latest_block_number_digits :
    get_latest_block_number (added [assigned_at 1 99, assigned_at 2 100]) = some 99 ∧
      ¬ LatestCorrect [assigned_at 1 99, assigned_at 2 100] := by
  have hlatest : get_latest_block_number (added [assigned_at 1 99, assigned_at 2 100]) = some 99 := by
    decide +kernel
  refine ⟨hlatest, ?_⟩
  intro hcorrect
  have hgreatest : IsGreatest (block_numbers [assigned_at 1 99, assigned_at 2 100]) 100 := by
    constructor
    · exact ⟨assigned_at 2 100, by simp, rfl⟩
    · rintro n ⟨evt, hevt, rfl⟩
      simp only [List.mem_cons, List.not_mem_nil, or_false] at hevt
      rcases hevt with rfl | rfl <;> decide
  have hwrong := (hcorrect.greatest 100 hgreatest).1
  rw [hlatest] at hwrong
  cases hwrong

end qsp.evt
