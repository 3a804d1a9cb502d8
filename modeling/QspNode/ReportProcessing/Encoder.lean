import QspNode.ReportProcessing.Bitstring
import Mathlib.Logic.Function.Basic

namespace qsp.report_processing

def VULNERABILITY_TYPE_SIZE : Nat := 8

/-- The two dictionaries of `ReportEncoder`, from type names to bitstrings and
    back. Every identifier fills its field and leads back to its name. -/
structure ReportEncoder where
  vulnerability_types : String → Option Bitstring
  vulnerability_types_inverted : Bitstring → Option String
  types_inverted : ∀ name b, vulnerability_types name = some b →
    vulnerability_types_inverted b = some name
  inverted_size : ∀ b name, vulnerability_types_inverted b = some name →
    b.length = VULNERABILITY_TYPE_SIZE

theorem ReportEncoder.types_size (self : ReportEncoder) {name : String} {b : Bitstring}
    (htype : self.vulnerability_types name = some b) : b.length = VULNERABILITY_TYPE_SIZE :=
  self.inverted_size b name (self.types_inverted name b htype)

/-- The loop of `__initialize_vulnerability_types`, from the counter on. -/
def initialize_loop (vulnerability_types : String → Option Bitstring)
    (vulnerability_types_inverted : Bitstring → Option String) (vulnerability_count : Nat) :
    List String →
      Except PyException ((String → Option Bitstring) × (Bitstring → Option String))
  | [] => .ok (vulnerability_types, vulnerability_types_inverted)
  | vulnerability_type :: types_list =>
    match to_bitstring vulnerability_count VULNERABILITY_TYPE_SIZE with
    | .error e => .error e
    | .ok bitstring =>
      initialize_loop (Function.update vulnerability_types vulnerability_type (some bitstring))
        (Function.update vulnerability_types_inverted bitstring (some vulnerability_type))
        (vulnerability_count + 1) types_list

def initialize_vulnerability_types (types_list : List String) :
    Except PyException ((String → Option Bitstring) × (Bitstring → Option String)) :=
  initialize_loop (fun _ => none) (fun _ => none) 0 types_list

/-- What the loop keeps: identifiers below the counter lead back to their
    names, and the inverted dictionary holds such identifiers only. -/
structure TablesBelow (types : String → Option Bitstring) (inverted : Bitstring → Option String)
    (count : Nat) : Prop where
  types_inverted : ∀ name b, types name = some b → inverted b = some name
  inverted_below : ∀ b name, inverted b = some name →
    ∃ i < count, i < 2 ^ VULNERABILITY_TYPE_SIZE ∧ b = format_bits VULNERABILITY_TYPE_SIZE i

theorem TablesBelow.update {types : String → Option Bitstring}
    {inverted : Bitstring → Option String} {count : Nat} (htables : TablesBelow types inverted count)
    (name : String) (hcount : count < 2 ^ VULNERABILITY_TYPE_SIZE) :
    TablesBelow
      (Function.update types name (some (format_bits VULNERABILITY_TYPE_SIZE count)))
      (Function.update inverted (format_bits VULNERABILITY_TYPE_SIZE count) (some name))
      (count + 1) := by
  constructor
  · intro other b hother
    by_cases heq : other = name
    · subst heq
      rw [Function.update_self, Option.some.injEq] at hother
      rw [← hother, Function.update_self]
    · rw [Function.update_of_ne heq] at hother
      have hinverted := htables.types_inverted other b hother
      obtain ⟨i, hi, hsize, rfl⟩ := htables.inverted_below b other hinverted
      rw [Function.update_of_ne, hinverted]
      intro hbits
      have hcounter := format_bits_injOn hsize hcount hbits
      omega
  · intro b other hother
    by_cases heq : b = format_bits VULNERABILITY_TYPE_SIZE count
    · exact ⟨count, by omega, hcount, heq⟩
    · rw [Function.update_of_ne heq] at hother
      obtain ⟨i, hi, hsize, hb⟩ := htables.inverted_below b other hother
      exact ⟨i, by omega, hsize, hb⟩

theorem initialize_loop_tables {types : String → Option Bitstring}
    {inverted : Bitstring → Option String} {count : Nat} (htables : TablesBelow types inverted count)
    {types_list : List String} {result : (String → Option Bitstring) × (Bitstring → Option String)}
    (hloop : initialize_loop types inverted count types_list = .ok result) :
    ∃ total, TablesBelow result.1 result.2 total := by
  induction types_list generalizing types inverted count with
  | nil =>
    obtain rfl : (types, inverted) = result := by simpa [initialize_loop] using hloop
    exact ⟨count, htables⟩
  | cons name types_list ih =>
    rw [initialize_loop] at hloop
    cases hbits : to_bitstring count VULNERABILITY_TYPE_SIZE with
    | error e => simp [hbits] at hloop
    | ok b =>
      obtain ⟨n, hn, hlt, rfl⟩ := to_bitstring_eq_ok_iff.mp hbits
      obtain rfl : count = n := by exact_mod_cast hn
      simp only [hbits] at hloop
      exact ih (htables.update name hlt) hloop

theorem initialize_vulnerability_types_tables {types_list : List String}
    {result : (String → Option Bitstring) × (Bitstring → Option String)}
    (hinit : initialize_vulnerability_types types_list = .ok result) :
    ∃ total, TablesBelow result.1 result.2 total := by
  refine initialize_loop_tables ⟨?_, ?_⟩ hinit
  · intro name b h
    cases h
  · intro b name h
    cases h

/-- `ReportEncoder.__init__` for the type names listed in the types file. -/
def ReportEncoder.init (types_list : List String) : Except PyException ReportEncoder :=
  match hinit : initialize_vulnerability_types types_list with
  | .error e => .error e
  | .ok result =>
    have htables := initialize_vulnerability_types_tables hinit
    .ok
      { vulnerability_types := result.1
        vulnerability_types_inverted := result.2
        types_inverted := htables.elim (fun _ h => h.types_inverted)
        inverted_size := fun b name h => htables.elim (fun _ ht => by
          obtain ⟨i, _, _, rfl⟩ := ht.inverted_below b name h
          exact length_format_bits _ i) }

/-- The names of the dictionaries are the listed ones. -/
theorem initialize_loop_names {types : String → Option Bitstring}
    {inverted : Bitstring → Option String} {count : Nat} {types_list names : List String}
    (hnames : ∀ b name, inverted b = some name → name ∈ names) (hsub : ∀ name ∈ types_list, name ∈ names)
    {result : (String → Option Bitstring) × (Bitstring → Option String)}
    (hloop : initialize_loop types inverted count types_list = .ok result) :
    ∀ b name, result.2 b = some name → name ∈ names := by
  induction types_list generalizing types inverted count with
  | nil =>
    obtain rfl : (types, inverted) = result := by simpa [initialize_loop] using hloop
    exact hnames
  | cons head types_list ih =>
    rw [initialize_loop] at hloop
    cases hbits : to_bitstring count VULNERABILITY_TYPE_SIZE with
    | error e => simp [hbits] at hloop
    | ok bitstring =>
      simp only [hbits] at hloop
      refine ih ?_ (fun name hname => hsub name (by simp [hname])) hloop
      intro b name hentry
      by_cases heq : b = bitstring
      · subst heq
        rw [Function.update_self, Option.some.injEq] at hentry
        exact hentry ▸ hsub head (by simp)
      · rw [Function.update_of_ne heq] at hentry
        exact hnames b name hentry

theorem ReportEncoder.init_names {types_list : List String} {self : ReportEncoder}
    (hinit : ReportEncoder.init types_list = .ok self) {b : Bitstring} {name : String}
    (hentry : self.vulnerability_types_inverted b = some name) : name ∈ types_list := by
  unfold ReportEncoder.init at hinit
  split at hinit
  · cases hinit
  · rename_i result hloop
    obtain rfl := Except.ok.inj hinit
    refine initialize_loop_names ?_ (fun _ h => h) hloop b name hentry
    intro _ _ h
    cases h

/-- The list of `plugins/analyzers/vulnerability_types.json`. -/
def vulnerability_types_json : List String :=
  ["integer_underflow", "integer_overflow", "callstack", "transaction_order_dependency",
    "time_dependency", "reentrancy", "parity_multisig_bug", "exception_state",
    "dependence_on_environment_variable", "delegate_call_to_untrusted_contract", "tx_origin_usage",
    "unprotected_ether_withdrawal", "call_to_external_contract", "multiple_calls",
    "unprotected_self_destruct", "unchecked_call_return_value",
    "unchecked_call_return_value_true_positive", "other", "missing_input_validation",
    "locked_ether", "unprotected_state_manipulation", "missing_input_validation_true_positive",
    "locked_ether_true_positive", "unprotected_state_manipulation_true_positive",
    "unprotected_ether_withdrawal_true_positive", "reentrancy_true_positive",
    "transaction_order_dependency_true_positive", "securify_bug"]

/-- The encoder of the node's configuration. -/
def report_encoder : ReportEncoder :=
  (ReportEncoder.init vulnerability_types_json).toOption.get (by decide)

theorem init_report_encoder : ReportEncoder.init vulnerability_types_json = .ok report_encoder := by
  have hget {result : Except PyException ReportEncoder} (hsome : result.toOption.isSome) :
      result = .ok (result.toOption.get hsome) := by
    cases result with
    | error e => cases hsome
    | ok self => rfl
  exact hget _

end qsp.report_processing
