import QspNode.Config.Validation
import QspNode.Lib.PythonInt

open qsp.config

namespace qsp.compute_gas_price_thread

/-- Python's `min(a, b)`. -/
def min (order : String → Value → Value → Except PyException Bool) (a b : Value) :
    Except PyException Value := do
  if ← lt order b a then return b else return a

/-- The part of a number before the point. -/
def trunc (q : ℚ) : Int := q.num.tdiv q.den

/-- Python's `int(v)`. -/
def int : Value → Except PyException Int
  | .bool b => .ok (if b then 1 else 0)
  | .int n => .ok n
  | .float none => .error (.ValueError "cannot convert float NaN to integer")
  | .float (some (some (some q))) => .ok (trunc q)
  | .float (some _) => .error (.Exception "cannot convert float infinity to integer")
  | .str s =>
    match lib.python.int 10 s.toList with
    | none => .error (.ValueError ("invalid literal for int() with base 10: '" ++ s ++ "'"))
    | some n => .ok n
  | v =>
    .error (.TypeError
      ("int() argument must be a string, a bytes-like object or a number, not '" ++ v.type_name ++ "'"))

/-- Queries the provider to set a baseline gas price, or uses the default static
    gas price. -/
def compute_gas_price (order : String → Value → Value → Except PyException Bool)
    (config : qsp.config.Config) (get_gas_price : Except PyException Int) :
    Except PyException qsp.config.Config := do
  let gas_price ←
    if config.gas_price_strategy.is_str "static" then pure config.default_gas_price_wei
    else get_gas_price.map .int
  let gas_price ← int (← min order gas_price config.max_gas_price_wei)
  return { config with gas_price_wei := .int gas_price }

/-- The price that the strategy of the configuration starts from. -/
def base_price (config : qsp.config.Config) (reported : Int) : Value :=
  if config.gas_price_strategy.is_str "static" then config.default_gas_price_wei else .int reported

/-- A price under a cap, which counts when it is positive. -/
def capped (price cap : Number) : Number :=
  match price, cap with
  | some x, some y => if WithBot.some (WithTop.some 0) < y then some (Min.min x y) else some x
  | price, _ => price

/-- The gas price set is the base price under the cap, as an integer, and not
    negative unless the base price is. -/
structure CapApplied (config config' : qsp.config.Config) (reported : Int) : Prop where
  price : ∃ x y q, (base_price config reported).number = some x ∧
    config.max_gas_price_wei.number = some y ∧ capped x y = Number.of q ∧
    config'.gas_price_wei = .int (trunc q)
  nonneg : le (.int 0) (base_price config reported) = true → le (.int 0) config'.gas_price_wei = true

/-- The base price is a number, and the cap is set or does not lower it. -/
structure CapHarmless (config : qsp.config.Config) (reported : Int) : Prop where
  base : ∃ q, (base_price config reported).number = some (Number.of q)
  cap : config.max_gas_price_wei.positive = true ∨ config.max_gas_price_wei.is_nan = true ∨
    le (base_price config reported) config.max_gas_price_wei = true ∨
    ∃ p q, config.max_gas_price_wei.number = some (Number.of p) ∧
      (base_price config reported).number = some (Number.of q) ∧ trunc p = trunc q

section
variable {order : String → Value → Value → Except PyException Bool} {config : qsp.config.Config}
  {reported : Int}

theorem trunc_nonneg {q : ℚ} (hq : 0 ≤ q) : 0 ≤ trunc q :=
  Int.tdiv_nonneg (Rat.num_nonneg.mpr hq) (Int.natCast_nonneg q.den)

theorem trunc_intCast (n : Int) : trunc n = n := by
  simp [trunc]

theorem of_inj {p q : ℚ} : Number.of p = Number.of q ↔ p = q := by
  simp [Number.of]

/-- The integer of a number is its part before the point. -/
theorem int_eq_ok_iff {v : Value} {x : Number} {n : Int} (hx : v.number = some x) :
    int v = .ok n ↔ ∃ q, x = Number.of q ∧ n = trunc q := by
  cases v with
  | bool b =>
    obtain rfl := Option.some.inj hx
    simp only [int, of_inj, Except.ok.injEq, exists_eq_left']
    cases b <;> simp [trunc, eq_comm]
  | int m =>
    obtain rfl := Option.some.inj hx
    simp only [int, of_inj, Except.ok.injEq, exists_eq_left', trunc_intCast]
    exact eq_comm
  | float y =>
    obtain rfl : y = x := Option.some.inj hx
    match y with
    | none => exact iff_of_false (by simp [int]) (by rintro ⟨q, heq, _⟩; cases heq)
    | some none => exact iff_of_false (by simp [int]) (by rintro ⟨q, heq, _⟩; cases heq)
    | some (some none) => exact iff_of_false (by simp [int]) (by rintro ⟨q, heq, _⟩; cases heq)
    | some (some (some q)) =>
      have hof : (some (some (some q)) : Number) = Number.of q := rfl
      simp only [int, hof, of_inj, Except.ok.injEq, exists_eq_left']
      exact eq_comm
  | _ => cases hx

theorem min_number {a b : Value} {x y : Number} (hx : a.number = some x) (hy : b.number = some y) :
    min order a b = .ok (if y.lt x then b else a) := by
  simp only [min, lt, config.compare, hx, hy, bind, Except.bind]
  split <;> rfl

theorem compute_gas_price_eq_ok_iff {config' : qsp.config.Config} :
    compute_gas_price order config (.ok reported) = .ok config' ↔
      ∃ v n, min order (base_price config reported) config.max_gas_price_wei = .ok v ∧ int v = .ok n ∧
        { config with gas_price_wei := .int n } = config' := by
  cases hstatic : config.gas_price_strategy.is_str "static" <;>
    simp only [compute_gas_price, base_price, hstatic, if_true, if_false, Bool.false_eq_true,
      bind_eq_ok_iff, pure_eq_ok_iff, Except.map, Except.ok.injEq, exists_eq_left', exists_and_left]

theorem of_le_iff {p q : ℚ} : (Number.of p).le (Number.of q) = true ↔ p ≤ q := by
  simp only [Number.le, Number.of, decide_eq_true_eq, WithBot.coe_le_coe, WithTop.coe_le_coe]

theorem of_lt_iff {p q : ℚ} : (Number.of p).lt (Number.of q) = true ↔ p < q := by
  simp only [Number.lt, Number.of, decide_eq_true_eq, WithBot.coe_lt_coe, WithTop.coe_lt_coe]

theorem zero_le_value {v : Value} {x : Number} (hx : v.number = some x) :
    le (.int 0) v = (Number.of 0).le x := by
  have hzero : (Value.int 0).number = some (Number.of 0) := by simp [Value.number]
  simp only [le, hzero, hx]

theorem le_int_iff {n : Int} : le (.int 0) (.int n) = true ↔ 0 ≤ n := by
  rw [zero_le_value rfl, of_le_iff]
  exact_mod_cast Iff.rfl

/-- The outcome in terms of the two numbers. -/
theorem exists_capApplied_iff {x y : Number} (hx : (base_price config reported).number = some x)
    (hy : config.max_gas_price_wei.number = some y) :
    (∃ config', compute_gas_price order config (.ok reported) = .ok config' ∧
        CapApplied config config' reported) ↔
      ∃ p q, (if y.lt x then y else x) = Number.of p ∧ capped x y = Number.of q ∧ trunc p = trunc q ∧
        ((Number.of 0).le x = true → 0 ≤ trunc q) := by
  have hnumber : (if y.lt x then config.max_gas_price_wei else base_price config reported).number =
      some (if y.lt x then y else x) := by
    split
    · exact hy
    · exact hx
  have hle := zero_le_value hx
  constructor
  · rintro ⟨config', hcompute, ⟨x', y', q, hx', hy', hcapped, hprice⟩, hnonneg⟩
    obtain ⟨v, n, hmin, hint, rfl⟩ := compute_gas_price_eq_ok_iff.mp hcompute
    rw [min_number hx hy] at hmin
    obtain rfl := Except.ok.inj hmin
    obtain ⟨p, hp, rfl⟩ := (int_eq_ok_iff hnumber).mp hint
    obtain rfl : x = x' := Option.some.inj (hx.symm.trans hx')
    obtain rfl : y = y' := Option.some.inj (hy.symm.trans hy')
    obtain hpq : trunc p = trunc q := Value.int.inj hprice
    rw [hle, le_int_iff, hpq] at hnonneg
    exact ⟨p, q, hp, hcapped, hpq, hnonneg⟩
  · rintro ⟨p, q, hp, hcapped, hpq, hnonneg⟩
    refine ⟨{ config with gas_price_wei := .int (trunc q) }, ?_, ⟨x, y, q, hx, hy, hcapped, rfl⟩, ?_⟩
    · rw [compute_gas_price_eq_ok_iff]
      exact ⟨_, trunc q, min_number hx hy, (int_eq_ok_iff hnumber).mpr ⟨p, hp, hpq.symm⟩, rfl⟩
    · rw [hle]
      exact fun h => le_int_iff.mpr (hnonneg h)

/-- A cap that is set. -/
theorem capped_of_positive {x y : Number} (hpositive : (Number.of 0).lt y = true) :
    capped x y = if y.lt x then y else x := by
  cases x with
  | none => simp [capped, Number.lt]
  | some x =>
    cases y with
    | none => cases hpositive
    | some y =>
      have hset : WithBot.some (WithTop.some 0) < y := of_decide_eq_true hpositive
      simp only [capped, if_pos hset, Number.lt, decide_eq_true_eq]
      by_cases hlt : y < x
      · rw [if_pos hlt, min_eq_right (le_of_lt hlt)]
      · rw [if_neg hlt, min_eq_left (not_lt.mp hlt)]

/-- A cap that is not set. -/
theorem capped_of_not_positive {x y : Number} (hpositive : (Number.of 0).lt y = false) :
    capped x y = x := by
  cases x with
  | none => rfl
  | some x =>
    cases y with
    | none => rfl
    | some y =>
      have hset : ¬ WithBot.some (WithTop.some 0) < y := of_decide_eq_false hpositive
      simp only [capped, if_neg hset]

theorem not_le_of_lt {x y : Number} (hlt : y.lt x = true) : ¬ x.le y = true := by
  match x, y with
  | none, none => cases hlt
  | none, some y => cases hlt
  | some x, none => cases hlt
  | some x, some y =>
    have hlt' : y < x := of_decide_eq_true hlt
    intro hle
    exact absurd (of_decide_eq_true hle) (not_le_of_gt hlt')

theorem finite_of_lt {y : Number} {p q : ℚ} (hp : (Number.of p).lt y = true)
    (hq : y.lt (Number.of q) = true) : ∃ r, y = Number.of r := by
  match y with
  | none => cases hp
  | some none =>
    have hlt : WithBot.some (WithTop.some p) < ⊥ := of_decide_eq_true hp
    exact absurd hlt not_lt_bot
  | some (some none) =>
    have hlt : WithBot.some (⊤ : WithTop ℚ) < WithBot.some (WithTop.some q) := of_decide_eq_true hq
    exact absurd (WithBot.coe_lt_coe.mp hlt) not_top_lt
  | some (some (some r)) => exact ⟨r, rfl⟩

theorem positive_eq {y : Number} (hy : config.max_gas_price_wei.number = some y) :
    config.max_gas_price_wei.positive = (Number.of 0).lt y := by
  rw [Value.positive, hy, Option.any_some]

/-- A static base price above the cap is not accepted. -/
theorem finite_of_exceeds {env : Environment} {u : Unit} {x y : Number}
    (hcheck : check_configuration_settings env config = .ok u)
    (hx : (base_price config reported).number = some x) (hy : config.max_gas_price_wei.number = some y)
    (hpositive : (Number.of 0).lt y = true) (hexceeds : y.lt x = true) : ∃ q, x = Number.of q := by
  obtain ⟨_, _, _, _, _, _, hchecked⟩ := check_configuration_settings_ok hcheck
  unfold base_price at hx
  split at hx
  · rcases hchecked.gas_price with hunset | ⟨_, hgt⟩
    · have hfalse := eq_of_gt_zero hunset
      rw [positive_eq hy, hpositive] at hfalse
      cases hfalse
    · simp only [gt, qsp.config.compare, hx, hy, Except.ok.injEq, hexceeds] at hgt
      cases hgt
  · exact ⟨reported, (Option.some.inj hx).symm⟩

theorem capped_finite_iff {x y : Number} (hpositive : (Number.of 0).lt y = true)
    (hfinite : y.lt x = true → ∃ q, x = Number.of q) :
    (∃ p, (if y.lt x then y else x) = Number.of p ∧ ((Number.of 0).le x = true → 0 ≤ trunc p)) ↔
      ∃ q, x = Number.of q := by
  by_cases hexceeds : y.lt x = true
  · obtain ⟨q, rfl⟩ := hfinite hexceeds
    obtain ⟨p, rfl⟩ := finite_of_lt hpositive hexceeds
    have hp : 0 ≤ trunc p := trunc_nonneg (le_of_lt (of_lt_iff.mp hpositive))
    exact iff_of_true ⟨p, if_pos hexceeds, fun _ => hp⟩ ⟨q, rfl⟩
  · rw [if_neg hexceeds]
    constructor
    · rintro ⟨p, hp, _⟩
      exact ⟨p, hp⟩
    · rintro ⟨q, rfl⟩
      exact ⟨q, rfl, fun hnonneg => trunc_nonneg (of_le_iff.mp hnonneg)⟩

/-- Without a cap the smaller of the two numbers has the integer part of the base
    price exactly when it is that price or happens to have that part. -/
theorem uncapped_iff {x y : Number} :
    (∃ p q, (if y.lt x then y else x) = Number.of p ∧ x = Number.of q ∧ trunc p = trunc q ∧
        ((Number.of 0).le x = true → 0 ≤ trunc q)) ↔
      (∃ q, x = Number.of q) ∧
        (y = none ∨ x.le y = true ∨ ∃ p q, y = Number.of p ∧ x = Number.of q ∧ trunc p = trunc q) := by
  constructor
  · rintro ⟨p, q, hp, rfl, hpq, _⟩
    refine ⟨⟨q, rfl⟩, ?_⟩
    cases hlt : y.lt (Number.of q) with
    | true =>
      rw [if_pos hlt] at hp
      exact Or.inr (Or.inr ⟨p, q, hp, rfl, hpq⟩)
    | false =>
      by_cases hy : y = none
      · exact Or.inl hy
      · exact Or.inr (Or.inl ((Number.le_iff_of_lt hlt).mpr ⟨by simp [Number.of], hy⟩))
  · rintro ⟨⟨q, rfl⟩, hcases⟩
    have hnonneg : (Number.of 0).le (Number.of q) = true → 0 ≤ trunc q :=
      fun hle => trunc_nonneg (of_le_iff.mp hle)
    cases hlt : y.lt (Number.of q) with
    | false => exact ⟨q, q, by simp, rfl, rfl, hnonneg⟩
    | true =>
      rcases hcases with rfl | hle | ⟨p, q', rfl, hq, hpq⟩
      · cases hlt
      · exact absurd hle (not_le_of_lt hlt)
      · obtain rfl := of_inj.mp hq
        exact ⟨p, q, by simp, rfl, hpq, hnonneg⟩

theorem capApplied_of_set_iff {env : Environment} {u : Unit} {x y : Number}
    (hcheck : check_configuration_settings env config = .ok u)
    (hx : (base_price config reported).number = some x) (hy : config.max_gas_price_wei.number = some y)
    (hset : (Number.of 0).lt y = true) :
    (∃ config', compute_gas_price order config (.ok reported) = .ok config' ∧
        CapApplied config config' reported) ↔ CapHarmless config reported := by
  have hfinite := capped_finite_iff hset (finite_of_exceeds hcheck hx hy hset)
  rw [exists_capApplied_iff hx hy, capped_of_positive hset]
  constructor
  · rintro ⟨p, q, hp, hq, _, hnonneg⟩
    obtain ⟨q', hq'⟩ := hfinite.mp ⟨q, hq, hnonneg⟩
    exact ⟨⟨q', by rw [hx, hq']⟩, Or.inl ((positive_eq hy).trans hset)⟩
  · rintro ⟨⟨q, hq⟩, _⟩
    obtain ⟨p, hp, hnonneg⟩ := hfinite.mpr ⟨q, Option.some.inj (hx.symm.trans hq)⟩
    exact ⟨p, p, hp, hp, rfl, hnonneg⟩

theorem capApplied_of_unset_iff {x y : Number} (hx : (base_price config reported).number = some x)
    (hy : config.max_gas_price_wei.number = some y) (hset : (Number.of 0).lt y = false) :
    (∃ config', compute_gas_price order config (.ok reported) = .ok config' ∧
        CapApplied config config' reported) ↔ CapHarmless config reported := by
  have hle : le (base_price config reported) config.max_gas_price_wei = x.le y := by
    simp only [le, hx, hy]
  have hnan : config.max_gas_price_wei.is_nan = true ↔ y = none := by
    simp [Value.is_nan, hy]
  rw [exists_capApplied_iff hx hy, capped_of_not_positive hset, uncapped_iff]
  constructor
  · rintro ⟨⟨q, hq⟩, hcases⟩
    refine ⟨⟨q, by rw [hx, hq]⟩, Or.inr ?_⟩
    rw [hle, hnan, hx, hy]
    simpa only [Option.some.injEq] using hcases
  · rintro ⟨⟨q, hq⟩, hcases⟩
    rw [positive_eq hy, hset, hle, hnan, hx, hy] at hcases
    simp only [Bool.false_eq_true, false_or, Option.some.injEq] at hcases
    exact ⟨⟨q, Option.some.inj (hx.symm.trans hq)⟩, hcases⟩

/-- Of the configurations that pass the sanity checks those get the right gas
    price whose cap is set, or does not lower the base price. -/
theorem compute_gas_price_capped_iff {env : Environment} {u : Unit}
    (hcheck : check_configuration_settings env config = .ok u) (reported : Int) :
    (∃ config', compute_gas_price env.order config (.ok reported) = .ok config' ∧
        CapApplied config config' reported) ↔ CapHarmless config reported := by
  obtain ⟨_, _, _, _, _, _, hchecked⟩ := check_configuration_settings_ok hcheck
  have hsome : config.max_gas_price_wei.number.isSome := by
    rcases hchecked.gas_price with hgt | ⟨hgt, _⟩
    · exact number_of_compare hgt rfl
    · exact number_of_compare hgt rfl
  obtain ⟨y, hy⟩ := Option.isSome_iff_exists.mp hsome
  cases hx : (base_price config reported).number with
  | none =>
    apply iff_of_false
    · rintro ⟨_, _, ⟨x, _, _, hx', _⟩, _⟩
      rw [hx] at hx'
      cases hx'
    · rintro ⟨⟨q, hq⟩, _⟩
      rw [hx] at hq
      cases hq
  | some x =>
    cases hset : (Number.of 0).lt y with
    | true => exact capApplied_of_set_iff hcheck hx hy hset
    | false => exact capApplied_of_unset_iff hx hy hset

end

/-- A configuration with the dynamic strategy and the given cap. -/
def dynamic_config (max_gas_price_wei : Int) : qsp.config.Config :=
  { audit_contract := some { getAuditTimeoutInBlocks := .ok 25, getMaxAssignedRequests := .ok 5 }
    max_assigned_requests := .int 1
    max_gas_price_wei := .int max_gas_price_wei }

theorem compute_gas_price_capped_dynamic :
    ∃ config', compute_gas_price sample_environment.order (dynamic_config 10) (.ok 20) = .ok config' ∧
      CapApplied (dynamic_config 10) config' 20 := by
  have hcheck : check_configuration_settings sample_environment (dynamic_config 10) = .ok () := rfl
  refine (compute_gas_price_capped_iff hcheck 20).mpr ⟨⟨20, rfl⟩, Or.inl ?_⟩
  decide +kernel

/-- Without a cap, which is the default, the gas price is -1. -/
theorem compute_gas_price_negative :
    check_configuration_settings sample_environment (dynamic_config (-1)) = .ok () ∧
      ¬ ∃ config', compute_gas_price sample_environment.order (dynamic_config (-1)) (.ok 20) =
          .ok config' ∧ CapApplied (dynamic_config (-1)) config' 20 := by
  have hcompute : compute_gas_price sample_environment.order (dynamic_config (-1)) (.ok 20) =
      .ok { dynamic_config (-1) with gas_price_wei := .int (-1) } :=
    rfl
  refine ⟨rfl, ?_⟩
  rintro ⟨config', hconfig, happlied⟩
  obtain rfl := Except.ok.inj (hcompute.symm.trans hconfig)
  have hnonneg := happlied.nonneg (by decide +kernel)
  exact absurd hnonneg (by decide +kernel)

end qsp.compute_gas_price_thread
