import Mathlib.Data.List.Basic

namespace lib.transaction

/-- A connection to a database: its committed content and that of the open
    transaction. -/
structure Connection (d : Type) where
  database : d
  working : Option d

/-- How a command ends. An error leaves its transaction behind, unless that has
    been rolled back as well. -/
inductive Answer (d : Type) where
  | ok
  | error (left : Option d)

def Answer.left {d : Type} : Answer d → Option (Option d)
  | .ok => none
  | .error left => some left

/-- A statement: what it makes of the content, and how it ends. -/
structure Statement (d : Type) where
  apply : d → d
  answer : Answer d

/-- The content that a reader on the connection sees. -/
def Connection.view {d : Type} (c : Connection d) : d := c.working.getD c.database

/-- Opens a transaction, unless that fails or one is open already. -/
def Connection.begin {d : Type} (fails : Bool) (c : Connection d) :
    Except (Connection d) (Connection d) :=
  if fails || c.working.isSome then .error c
  else .ok { c with working := some c.database }

/-- Outside of a transaction a statement takes effect at once. -/
def Connection.execute {d : Type} (c : Connection d) (statement : Statement d) :
    Except (Connection d) (Connection d) :=
  match statement.answer, c.working with
  | .error left, some _ => .error { c with working := left }
  | .error _, none => .error c
  | .ok, some content => .ok { c with working := some (statement.apply content) }
  | .ok, none => .ok { c with database := statement.apply c.database }

def Connection.commit {d : Type} (answer : Answer d) (c : Connection d) :
    Except (Connection d) (Connection d) :=
  match answer, c.working with
  | .error left, some _ => .error { c with working := left }
  | _, none => .error c
  | .ok, some content => .ok { database := content, working := none }

/-- Without an open transaction there is nothing to roll back, which is an error. -/
def Connection.rollback {d : Type} (c : Connection d) : Except (Connection d) (Connection d) :=
  match c.working with
  | none => .error c
  | some _ => .ok { c with working := none }

/-- Statements in a transaction of their own. -/
structure Script (d : Type) where
  begin_fails : Bool
  statements : List (Statement d)
  commit : Answer d

/-- What the statements make of the content. -/
def Script.apply {d : Type} (script : Script d) (content : d) : d :=
  script.statements.foldl (fun content statement => statement.apply content) content

/-- What the first error after the beginning leaves of the transaction. -/
def Script.left {d : Type} (script : Script d) : Option (Option d) :=
  (script.statements.map Statement.answer ++ [script.commit]).findSome? Answer.left

def Connection.run {d : Type} (c : Connection d) (script : Script d) :
    Except (Connection d) (Connection d) := do
  let c ← c.begin script.begin_fails
  let c ← script.statements.foldlM Connection.execute c
  c.commit script.commit

section
variable {d : Type} {c : Connection d} {script : Script d}

theorem run_statements (database content : d) (statements : List (Statement d)) (commit : Answer d) :
    (do
      let c ← statements.foldlM Connection.execute { database, working := some content }
      c.commit commit) =
      match (statements.map Statement.answer ++ [commit]).findSome? Answer.left with
      | none =>
        .ok
          { database := statements.foldl (fun content statement => statement.apply content) content
            working := none }
      | some left => .error { database, working := left } := by
  induction statements generalizing content with
  | nil => cases commit <;> rfl
  | cons statement statements ih =>
    rw [List.foldlM_cons, List.map_cons, List.cons_append]
    cases hanswer : statement.answer with
    | ok =>
      have hexecute : Connection.execute { database, working := some content } statement =
          .ok { database, working := some (statement.apply content) } := by
        simp only [Connection.execute, hanswer]
      rw [hexecute]
      exact ih (statement.apply content)
    | error left =>
      have hexecute : Connection.execute { database, working := some content } statement =
          .error { database, working := left } := by
        simp only [Connection.execute, hanswer]
      rw [hexecute]
      rfl

/-- A script that cannot begin changes nothing. -/
theorem run_of_begin_fails (hfails : script.begin_fails = true) : c.run script = .error c := by
  simp [Connection.run, Connection.begin, hfails, bind, Except.bind]

/-- A script that begins takes effect as a whole or not at all. -/
theorem run_of_begins (hfails : script.begin_fails = false) (hclosed : c.working = none) :
    c.run script =
      match script.left with
      | none => .ok { database := script.apply c.database, working := none }
      | some left => .error { c with working := left } := by
  have hbegin : c.begin script.begin_fails = .ok { c with working := some c.database } := by
    simp [Connection.begin, hfails, hclosed]
  rw [Connection.run, hbegin]
  exact run_statements c.database c.database script.statements script.commit

end

end lib.transaction
