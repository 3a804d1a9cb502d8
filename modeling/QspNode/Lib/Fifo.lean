import Mathlib.Data.List.Basic

namespace lib.fifo

/-- What a client asks of a queued service: to write, without waiting for it,
    or to read, blocking until it is served. -/
inductive Request (w r : Type) where
  | write (statement : w)
  | read (query : r)
  deriving DecidableEq, Repr

/-- The requests that a client has in the queue, oldest first. -/
def requests {c w r : Type} [DecidableEq c] (client : c) (queue : List (c × Request w r)) :
    List (Request w r) :=
  (queue.filter (fun job => job.1 = client)).map Prod.snd

def Request.statement {w r : Type} : Request w r → Option w
  | .write statement => some statement
  | .read _ => none

/-- The writes that a client has in the queue, oldest first. -/
def writes {c w r : Type} [DecidableEq c] (client : c) (queue : List (c × Request w r)) : List w :=
  (requests client queue).filterMap Request.statement

/-- A client queues reads one at a time, and nothing behind the read it waits
    for. -/
def Lined {c w r : Type} [DecidableEq c] (client : c) (awaited : Option r)
    (queue : List (c × Request w r)) : Prop :=
  requests client queue = (writes client queue).map .write ++ awaited.toList.map .read

section
variable {c w r : Type} [DecidableEq c] {client other : c} {awaited : Option r} {query : r}
  {statement : w} {request : Request w r} {queue : List (c × Request w r)}

theorem requests_append (jobs : List (c × Request w r)) :
    requests client (queue ++ jobs) = requests client queue ++ requests client jobs := by
  simp [requests]

@[simp]
theorem requests_cons_self :
    requests client ((client, request) :: queue) = request :: requests client queue := by
  simp [requests]

theorem requests_cons_of_ne (hne : other ≠ client) :
    requests client ((other, request) :: queue) = requests client queue := by
  simp [requests, hne]

@[simp]
theorem writes_nil : writes client ([] : List (c × Request w r)) = [] := rfl

theorem writes_append (jobs : List (c × Request w r)) :
    writes client (queue ++ jobs) = writes client queue ++ writes client jobs := by
  simp [writes, requests_append]

@[simp]
theorem writes_cons_write :
    writes client ((client, .write statement) :: queue) = statement :: writes client queue := by
  simp [writes, Request.statement]

@[simp]
theorem writes_cons_read : writes client ((client, .read query) :: queue) = writes client queue := by
  rw [writes, requests_cons_self, List.filterMap_cons_none (by rfl), writes]

theorem writes_cons_of_ne (hne : other ≠ client) :
    writes client ((other, request) :: queue) = writes client queue := by
  rw [writes, requests_cons_of_ne hne, writes]

theorem writes_enqueue_write :
    writes client (queue ++ [(client, .write statement)]) = writes client queue ++ [statement] := by
  rw [writes_append, writes_cons_write, writes_nil]

theorem writes_enqueue_read :
    writes client (queue ++ [(client, .read query)]) = writes client queue := by
  rw [writes_append, writes_cons_read, writes_nil, List.append_nil]

theorem writes_enqueue_other (hne : other ≠ client) :
    writes client (queue ++ [(other, request)]) = writes client queue := by
  rw [writes_append, writes_cons_of_ne hne, writes_nil, List.append_nil]

theorem mem_of_mem_writes (hmem : statement ∈ writes client queue) :
    (client, .write statement) ∈ queue := by
  obtain ⟨request, hrequest, hstatement⟩ := List.mem_filterMap.mp hmem
  obtain ⟨⟨owner, _⟩, hfiltered, rfl⟩ := List.mem_map.mp hrequest
  obtain ⟨hjob, howner⟩ := List.mem_filter.mp hfiltered
  obtain rfl : owner = client := of_decide_eq_true howner
  cases ‹Request w r› with
  | write statement' =>
    obtain rfl : statement' = statement := Option.some.inj hstatement
    exact hjob
  | read query => cases hstatement

theorem writes_eq_nil (hnone : ∀ job ∈ queue, job.1 ≠ client) : writes client queue = [] := by
  apply List.eq_nil_iff_forall_not_mem.mpr
  intro statement hmem
  exact hnone _ (mem_of_mem_writes hmem) rfl

theorem Lined.enqueue_write (hlined : Lined client none queue) :
    Lined client none (queue ++ [(client, .write statement)]) := by
  unfold Lined at hlined ⊢
  rw [requests_append, writes_append, hlined]
  simp [requests]

theorem Lined.enqueue_read (hlined : Lined client none queue) :
    Lined client (some query) (queue ++ [(client, .read query)]) := by
  unfold Lined at hlined ⊢
  rw [requests_append, writes_append, hlined]
  simp [requests]

theorem Lined.enqueue_other (hlined : Lined client awaited queue) (hne : other ≠ client) :
    Lined client awaited (queue ++ [(other, request)]) := by
  unfold Lined at hlined ⊢
  rw [requests_append, writes_append, hlined, requests_cons_of_ne hne, writes_cons_of_ne hne]
  simp [requests]

theorem Lined.dequeue_write (hlined : Lined client awaited ((client, .write statement) :: queue)) :
    Lined client awaited queue := by
  simpa [Lined] using hlined

theorem Lined.dequeue_other (hlined : Lined client awaited ((other, request) :: queue))
    (hne : other ≠ client) : Lined client awaited queue := by
  unfold Lined at hlined ⊢
  rwa [requests_cons_of_ne hne, writes_cons_of_ne hne] at hlined

/-- When a read is served, it is the one its client waits for, and all that the
    client wrote before has been served. -/
theorem Lined.dequeue_read (hlined : Lined client awaited ((client, .read query) :: queue)) :
    awaited = some query ∧ requests client queue = [] := by
  unfold Lined at hlined
  rw [requests_cons_self, writes_cons_read] at hlined
  cases hwrites : writes client queue with
  | nil =>
    rw [hwrites] at hlined
    cases awaited with
    | none => simp at hlined
    | some expected =>
      simp only [List.map_nil, List.nil_append, Option.toList_some, List.map_cons, List.cons.injEq,
        Request.read.injEq] at hlined
      exact ⟨congrArg some hlined.1.symm, hlined.2⟩
  | cons statement statements => simp [hwrites] at hlined

theorem writes_eq_nil_of_requests (hnone : requests client queue = []) : writes client queue = [] := by
  rw [writes, hnone]
  rfl

theorem lined_of_requests_eq_nil (hnone : requests client queue = []) : Lined client none queue := by
  rw [Lined, writes_eq_nil_of_requests hnone, hnone]
  rfl

end

end lib.fifo
