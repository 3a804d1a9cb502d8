namespace qsp

/-- The exceptions the modelled code raises or tells apart, with their texts
    where the code builds them. -/
inductive PyException where
  | ReportFormattingException (message : String)
  | ValueError (message : String)
  | KeyError (key : String)
  | IndexError (message : String)
  | TypeError (message : String)
  | AttributeError (message : String)
  | ConfigurationException (message : String)
  | Timeout
  | TimeoutExpired
  | DeduplicationException (message : String)
  | TransactionNotConfirmedException
  | Exception (message : String)
  deriving DecidableEq, Repr

/-- The subscript `dictionary[key]`. -/
def subscript {α : Type} (key : String) : Option α → Except PyException α
  | none => .error (.KeyError key)
  | some value => .ok value

theorem subscript_eq_ok_iff {α : Type} {key : String} {entry : Option α} {value : α} :
    subscript key entry = .ok value ↔ entry = some value := by
  cases entry <;> simp [subscript]

theorem bind_eq_ok_iff {ε α β : Type} {x : Except ε α} {f : α → Except ε β} {y : β} :
    (x >>= f) = .ok y ↔ ∃ a, x = .ok a ∧ f a = .ok y := by
  cases x <;> simp [bind, Except.bind]

theorem pure_eq_ok_iff {ε α : Type} {x y : α} :
    (pure x : Except ε α) = .ok y ↔ x = y := by
  simp [pure, Except.pure]

end qsp
