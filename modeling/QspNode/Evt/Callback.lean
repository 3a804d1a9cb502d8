import QspNode.Evt.LifeCycle
import QspNode.Exceptions

namespace qsp.evt

/-- What follows in a callback when the queue has no room for its statement in
    time: the exception leaves the callback, is logged only, or makes it try
    another statement, whose own failure leaves the callback. -/
inductive Recovery where
  | raise
  | ignore
  | put (w : Write)
  deriving DecidableEq, Repr

/-- The effect of a callback on the database. -/
inductive Action where
  | skip
  | put (w : Write) (full : Recovery)
  deriving DecidableEq, Repr

def Action.writes : Action → List Write
  | .skip => []
  | .put w _ => [w]

def Recovery.Respects (max_attempts : Nat) (row : Row) (recovery : Recovery) : Prop :=
  ∀ w, recovery = .put w → Issues max_attempts row w

/-- The callback touches no row but its own, and advances that. -/
def Action.Respects (max_attempts : Nat) (row : Row) : Action → Prop
  | .skip => True
  | .put w full => Issues max_attempts row w ∧ full.Respects max_attempts row

section
variable {max_attempts : Nat} {row : Row} {w : Write}

theorem respects_raise : Recovery.raise.Respects max_attempts row := by
  intro w heq
  cases heq

theorem respects_ignore : Recovery.ignore.Respects max_attempts row := by
  intro w heq
  cases heq

theorem respects_put (hissues : Issues max_attempts row w) :
    (Recovery.put w).Respects max_attempts row := by
  intro v heq
  obtain rfl : w = v := Recovery.put.inj heq
  exact hissues

end

end qsp.evt
