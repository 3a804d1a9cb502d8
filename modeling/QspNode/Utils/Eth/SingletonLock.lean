import QspNode.Lib.Transition

open lib.transition

namespace qsp.singleton

/-- A `threading.RLock`. -/
structure RLock where
  owner : Option Nat
  count : Nat
  deriving DecidableEq, Repr

def RLock.new : RLock := { owner := none, count := 0 }

/-- `acquire` by a thread, `none` while it has to wait. -/
def RLock.acquire (i : Nat) (lock : RLock) : Option RLock :=
  match lock.owner with
  | none => some { owner := some i, count := 1 }
  | some j => if j = i then some { lock with count := lock.count + 1 } else none

/-- `release` by a thread. One that is not the owner gets a `RuntimeError`, which
    the callers only log. -/
def RLock.release (i : Nat) (lock : RLock) : RLock :=
  if lock.owner = some i then
    if lock.count = 1 then RLock.new else { lock with count := lock.count - 1 }
  else lock

/-- How the `try` block of a call ended: its request to the chain has returned or
    raised, or there was no lock to acquire. -/
inductive Outcome where
  | requested (raised : Bool)
  | no_lock
  deriving DecidableEq, Repr

/-- What a call asks `instance` for: the lock to acquire, or the one to release in
    its `finally` block. -/
inductive Purpose where
  | acquire
  | release (outcome : Outcome)
  deriving DecidableEq, Repr

/-- Where a thread is: outside of any call, at a statement of `instance`, at the
    attribute `lock` of what it returned, at `acquire`, or in the request that the
    lock protects. -/
inductive Pc where
  | idle
  | first_test (purpose : Purpose)
  | entering (purpose : Purpose)
  | second_test (purpose : Purpose)
  | creating (purpose : Purpose)
  | setting_lock (purpose : Purpose)
  | leaving (purpose : Purpose)
  | reading_lock (purpose : Purpose)
  | acquiring (lock : Nat)
  | inside
  | done (outcome : Outcome)
  deriving DecidableEq, Repr

/-- The class attributes of `SingletonLock`, all locks that `RLock()` has made, and
    the threads that call the chain. The attribute `lock` holds the index of one. -/
structure State where
  singleton_lock : Option Nat
  singleton_instance : Bool
  lock : Option Nat
  rlocks : List RLock
  threads : List Pc
  deriving DecidableEq, Repr

def init (threads : Nat) : State :=
  { singleton_lock := none
    singleton_instance := false
    lock := none
    rlocks := []
    threads := List.replicate threads .idle }

def State.goto (s : State) (i : Nat) (pc : Pc) : State :=
  { s with threads := s.threads.set i pc }

section
variable {s : State} {i : Nat} {pc : Pc}

@[simp] theorem goto_singleton_lock : (s.goto i pc).singleton_lock = s.singleton_lock := rfl

@[simp] theorem goto_singleton_instance :
    (s.goto i pc).singleton_instance = s.singleton_instance := rfl

@[simp] theorem goto_lock : (s.goto i pc).lock = s.lock := rfl

@[simp] theorem goto_rlocks : (s.goto i pc).rlocks = s.rlocks := rfl

end

/-- The next step of a call of `mk_read_only_call`, `get_gas_price` or
    `send_signed_transaction`. -/
def thread_step (s : State) (i : Nat) (raises : Bool) : Pc → Option State
  | .idle | .done _ => none
  | .first_test purpose =>
    some (s.goto i (if s.singleton_instance then .reading_lock purpose else .entering purpose))
  | .entering purpose =>
    match s.singleton_lock with
    | none => some { s.goto i (.second_test purpose) with singleton_lock := some i }
    | some _ => none
  | .second_test purpose =>
    some (s.goto i (if s.singleton_instance then .leaving purpose else .creating purpose))
  | .creating purpose => some { s.goto i (.setting_lock purpose) with singleton_instance := true }
  | .setting_lock purpose =>
    some { s.goto i (.leaving purpose) with
      lock := some s.rlocks.length
      rlocks := s.rlocks ++ [RLock.new] }
  | .leaving purpose => some { s.goto i (.reading_lock purpose) with singleton_lock := none }
  | .reading_lock .acquire =>
    match s.lock with
    | none => some (s.goto i (.first_test (.release .no_lock)))
    | some lock => some (s.goto i (.acquiring lock))
  | .reading_lock (.release outcome) =>
    match s.lock with
    | none => some (s.goto i (.done outcome))
    | some lock => some { s.goto i (.done outcome) with rlocks := s.rlocks.modify lock (RLock.release i) }
  | .acquiring lock =>
    match s.rlocks[lock]?.bind (RLock.acquire i) with
    | none => none
    | some acquired => some { s.goto i .inside with rlocks := s.rlocks.set lock acquired }
  | .inside => some (s.goto i (.first_test (.release (.requested raises))))

inductive Label where
  | call (i : Nat)
  | thread (i : Nat) (raises : Bool)
  deriving DecidableEq, Repr

def Pc.returned : Pc → Bool
  | .idle | .done _ => true
  | _ => false

def step (s : State) : Label → Option State
  | .call i =>
    match s.threads[i]? with
    | some pc => if pc.returned then some (s.goto i (.first_test .acquire)) else none
    | none => none
  | .thread i raises =>
    match s.threads[i]? with
    | some pc => thread_step s i raises pc
    | none => none

/-- The thread holds the lock of `instance`. -/
def Pc.locked : Pc → Bool
  | .second_test _ | .creating _ | .setting_lock _ | .leaving _ => true
  | .idle | .first_test _ | .entering _ | .reading_lock _ | .acquiring _ | .inside | .done _ => false

/-- A call that has come to its `finally` block. -/
def Purpose.ending : Purpose → Bool
  | .acquire => false
  | .release _ => true

/-- A call that has the lock to release. -/
def Purpose.holding : Purpose → Bool
  | .release (.requested _) => true
  | .release .no_lock | .acquire => false

theorem Purpose.ending_of_holding {purpose : Purpose} (hholding : purpose.holding = true) :
    purpose.ending = true := by
  cases purpose with
  | acquire => cases hholding
  | release outcome => rfl

/-- The thread has seen the instance. -/
def Pc.seen : Pc → Bool
  | .setting_lock _ | .leaving _ | .reading_lock _ | .acquiring _ | .inside => true
  | .first_test purpose => purpose.ending
  | .idle | .entering _ | .second_test _ | .creating _ | .done _ => false

/-- The thread holds the lock of the chain. -/
def Pc.holding : Pc → Bool
  | .inside => true
  | .first_test purpose | .reading_lock purpose => purpose.holding
  | .idle | .entering _ | .second_test _ | .creating _ | .setting_lock _ | .leaving _ | .acquiring _
  | .done _ => false

/-- The thread waits for the lock of `instance`, or holds it. -/
def Pc.slow : Pc → Option Purpose
  | .entering purpose | .second_test purpose | .creating purpose | .setting_lock purpose
  | .leaving purpose => some purpose
  | .idle | .first_test _ | .reading_lock _ | .acquiring _ | .inside | .done _ => none

theorem Pc.locked_of_returned {pc : Pc} (hreturned : pc.returned = true) :
    pc.locked = false ∧ pc.holding = false := by
  cases pc with
  | idle | done outcome => exact ⟨rfl, rfl⟩
  | _ => cases hreturned

/-- What a thread at a statement knows of the class attributes. -/
structure Knows (s : State) (i : Nat) (pc : Pc) : Prop where
  locked : pc.locked = true ↔ s.singleton_lock = some i
  seen : pc.seen = true → s.singleton_instance = true
  creating : ∀ purpose, pc = .creating purpose → s.singleton_instance = false
  setting_lock : ∀ purpose, pc = .setting_lock purpose → s.lock = none
  acquiring : ∀ lock, pc = .acquiring lock → s.lock = some lock
  holding : pc.holding = true → s.rlocks = [{ owner := some i, count := 1 }]
  slow : ∀ purpose, pc.slow = some purpose → purpose.ending = false

/-- At most one instance and one lock are ever made. -/
structure Inv (s : State) : Prop where
  threads : ∀ i pc, s.threads[i]? = some pc → Knows s i pc
  singleton_lock : ∀ i, s.singleton_lock = some i → ∃ pc, s.threads[i]? = some pc
  unset : s.lock = none → s.rlocks = []
  missing : s.lock = none → s.singleton_instance = true →
    ∃ (i : Nat) (purpose : Purpose), s.threads[i]? = some (.setting_lock purpose)
  set : ∀ lock, s.lock = some lock →
    lock = 0 ∧ s.singleton_instance = true ∧ ∃ rlock, s.rlocks = [rlock]
  owner : ∀ i count, s.rlocks = [{ owner := some i, count }] →
    ∃ pc, s.threads[i]? = some pc ∧ pc.holding = true

theorem init_inv (threads : Nat) : Inv (init threads) where
  threads := by
    intro i pc hpc
    obtain rfl : pc = .idle := List.eq_of_mem_replicate (List.mem_of_getElem? hpc)
    refine ⟨?_, ?_, ?_, ?_, ?_, ?_, ?_⟩ <;> simp [init, Pc.locked, Pc.seen, Pc.holding, Pc.slow]
  singleton_lock := by simp [init]
  unset := by simp [init]
  missing := by simp [init]
  set := by simp [init]
  owner := by simp [init]

section
variable {s t : State} {i : Nat} {raises : Bool}

theorem getElem?_goto (hlt : i < s.threads.length) (pc : Pc) (j : Nat) :
    (s.goto i pc).threads[j]? = if j = i then some pc else s.threads[j]? := by
  by_cases hindex : j = i
  · subst hindex
    rw [State.goto, List.getElem?_set_self hlt, if_pos rfl]
  · rw [State.goto, List.getElem?_set_ne (Ne.symm hindex), if_neg hindex]

/-- What a step of one thread may do to the class attributes. -/
structure Moves (s t : State) (i : Nat) (pc next : Pc) : Prop where
  threads : t.threads = (s.goto i next).threads
  self : Knows t i next
  others : ∀ j other, j ≠ i → s.threads[j]? = some other → Knows s j other → Knows t j other
  singleton_lock : ∀ j, t.singleton_lock = some j → j = i ∨ s.singleton_lock = some j
  unset : t.lock = none → t.rlocks = []
  missing : t.lock = none → t.singleton_instance = true →
    (∃ purpose, next = .setting_lock purpose) ∨
      (s.lock = none ∧ s.singleton_instance = true ∧ ∀ purpose, pc ≠ .setting_lock purpose)
  set : ∀ lock, t.lock = some lock →
    lock = 0 ∧ t.singleton_instance = true ∧ ∃ rlock, t.rlocks = [rlock]
  owner : ∀ j count, t.rlocks = [{ owner := some j, count }] →
    if j = i then next.holding = true else s.rlocks = [{ owner := some j, count }]

theorem moves_inv {pc next : Pc} (hinv : Inv s) (hpc : s.threads[i]? = some pc)
    (hmoves : Moves s t i pc next) : Inv t := by
  have hlt : i < s.threads.length := (List.getElem?_eq_some_iff.mp hpc).1
  have hget (j : Nat) : t.threads[j]? = if j = i then some next else s.threads[j]? := by
    rw [hmoves.threads, getElem?_goto hlt]
  constructor
  · intro j other hother
    rw [hget] at hother
    split at hother
    · next hindex =>
      obtain rfl := Option.some.inj hother
      exact hindex ▸ hmoves.self
    · next hindex => exact hmoves.others j other hindex hother (hinv.threads j other hother)
  · intro j hj
    rw [hget]
    split
    · exact ⟨next, rfl⟩
    · next hindex => exact hinv.singleton_lock j ((hmoves.singleton_lock j hj).resolve_left hindex)
  · exact hmoves.unset
  · intro hlock hinstance
    rcases hmoves.missing hlock hinstance with ⟨purpose, rfl⟩ | ⟨hlock, hinstance, hother⟩
    · exact ⟨i, purpose, by rw [hget, if_pos rfl]⟩
    · obtain ⟨j, purpose, hj⟩ := hinv.missing hlock hinstance
      refine ⟨j, purpose, ?_⟩
      rw [hget, if_neg, hj]
      rintro rfl
      exact hother purpose (Option.some.inj (hpc.symm.trans hj))
  · exact hmoves.set
  · intro j count hrlocks
    have howner := hmoves.owner j count hrlocks
    rw [hget]
    split at howner
    · next hindex =>
      rw [if_pos hindex]
      exact ⟨next, rfl, howner⟩
    · next hindex =>
      rw [if_neg hindex]
      exact hinv.owner j count howner

theorem owner_kept {pc next : Pc} (hinv : Inv s) (hpc : s.threads[i]? = some pc)
    (hholding : pc.holding = true → next.holding = true) (j count : Nat)
    (hrlocks : s.rlocks = [{ owner := some j, count }]) :
    if j = i then next.holding = true else s.rlocks = [{ owner := some j, count }] := by
  split
  · next hindex =>
    subst hindex
    obtain ⟨other, hother, hholds⟩ := hinv.owner j count hrlocks
    obtain rfl := Option.some.inj (hpc.symm.trans hother)
    exact hholding hholds
  · exact hrlocks

/-- A step that only moves a thread on. -/
theorem moves_goto {pc next : Pc} (hinv : Inv s) (hpc : s.threads[i]? = some pc) (hnext : Knows s i next)
    (hsetting : ∀ purpose, pc ≠ .setting_lock purpose)
    (hholding : pc.holding = true → next.holding = true) : Moves s (s.goto i next) i pc next where
  threads := rfl
  self := ⟨hnext.locked, hnext.seen, hnext.creating, hnext.setting_lock, hnext.acquiring, hnext.holding,
    hnext.slow⟩
  others := fun _ _ _ _ hknows => ⟨hknows.locked, hknows.seen, hknows.creating, hknows.setting_lock,
    hknows.acquiring, hknows.holding, hknows.slow⟩
  singleton_lock := fun _ hj => Or.inr hj
  unset := hinv.unset
  missing := fun hlock hinstance => Or.inr ⟨hlock, hinstance, hsetting⟩
  set := hinv.set
  owner := fun j count hrlocks => owner_kept hinv hpc hholding j count hrlocks

theorem owner_holding {pc : Pc} (hinv : Inv s) (hpc : s.threads[i]? = some pc) {rlock : RLock}
    (hrlocks : s.rlocks = [rlock]) (howner : rlock.owner = some i) : pc.holding = true := by
  obtain ⟨other, hother, hholds⟩ := hinv.owner i rlock.count (by rw [hrlocks, ← howner])
  obtain rfl := Option.some.inj (hpc.symm.trans hother)
  exact hholds

theorem Knows.not_holding {j : Nat} {pc : Pc} (hknows : Knows s j pc) {rlock : RLock}
    (hrlocks : s.rlocks = [rlock]) (howner : rlock.owner ≠ some j) : pc.holding ≠ true := by
  intro hholding
  rw [hknows.holding hholding, List.singleton_inj] at hrlocks
  exact howner (by rw [← hrlocks])

theorem Knows.not_locked {j : Nat} {pc : Pc} (hknows : Knows s j pc) (howner : s.singleton_lock = some i)
    (hne : j ≠ i) : pc.locked ≠ true := by
  intro hlocked
  rw [hknows.locked.mp hlocked] at howner
  exact hne (Option.some.inj howner)

theorem Knows.unlocked {pc : Pc} (hknows : Knows s i pc) (hlocked : pc.locked = false) :
    s.singleton_lock ≠ some i := by
  intro howner
  rw [hknows.locked.mpr howner] at hlocked
  cases hlocked

/-- Only the thread that has acquired the lock can release it. -/
theorem release_inv {outcome : Outcome} {lock : Nat} (hinv : Inv s)
    (hpc : s.threads[i]? = some (.reading_lock (.release outcome))) (hlock : s.lock = some lock) :
    Inv { s.goto i (.done outcome) with rlocks := s.rlocks.modify lock (RLock.release i) } := by
  have hknows := hinv.threads i _ hpc
  have hunlocked := hknows.unlocked rfl
  obtain ⟨rfl, hinstance, rlock, hrlocks⟩ := hinv.set lock hlock
  apply moves_inv hinv hpc
  by_cases howner : rlock.owner = some i
  · obtain rfl : rlock = { owner := some i, count := 1 } := by
      have hrlock := hknows.holding (owner_holding hinv hpc hrlocks howner)
      rw [hrlocks] at hrlock
      exact List.singleton_inj.mp hrlock
    exact {
      threads := rfl
      self := by constructor <;> simp [Pc.locked, Pc.seen, Pc.holding, Pc.slow, hunlocked]
      others := fun j other hindex _ hother =>
        have hnot := hother.not_holding hrlocks (fun howner => hindex (Option.some.inj howner).symm)
        ⟨hother.locked, hother.seen, hother.creating, hother.setting_lock, hother.acquiring,
          fun hholding => absurd hholding hnot, hother.slow⟩
      singleton_lock := fun j hj => Or.inr hj
      unset := fun hnone => by simp [hlock] at hnone
      missing := fun hnone => by simp [hlock] at hnone
      set := fun other hother => by
        obtain rfl := Option.some.inj (hlock.symm.trans hother)
        exact ⟨rfl, hinstance, _, by rw [hrlocks]; rfl⟩
      owner := fun j count hrlocks' => by simp [hrlocks, RLock.release, RLock.new] at hrlocks' }
  · have hkept : s.rlocks.modify 0 (RLock.release i) = s.rlocks := by
      rw [hrlocks, List.modify_zero_cons, RLock.release, if_neg howner]
    rw [hkept]
    apply moves_goto hinv hpc
    · constructor <;> simp [Pc.locked, Pc.seen, Pc.holding, Pc.slow, hunlocked]
    · simp
    · exact fun hholding => absurd hholding (hknows.not_holding hrlocks howner)

theorem acquire_inv {lock : Nat} {acquired : RLock} (hinv : Inv s)
    (hpc : s.threads[i]? = some (.acquiring lock))
    (hacquired : s.rlocks[lock]?.bind (RLock.acquire i) = some acquired) :
    Inv { s.goto i .inside with rlocks := s.rlocks.set lock acquired } := by
  have hknows := hinv.threads i _ hpc
  have hunlocked := hknows.unlocked rfl
  have hlock := hknows.acquiring lock rfl
  obtain ⟨rfl, hinstance, rlock, hrlocks⟩ := hinv.set lock hlock
  have hfree : rlock.owner = none ∧ acquired = { owner := some i, count := 1 } := by
    rw [hrlocks] at hacquired
    simp only [List.getElem?_cons_zero, Option.bind_some, RLock.acquire] at hacquired
    split at hacquired
    · next hfree => exact ⟨hfree, (Option.some.inj hacquired).symm⟩
    · next j howner =>
      split at hacquired
      · next hindex =>
        subst hindex
        exact absurd (owner_holding hinv hpc hrlocks howner) (by simp [Pc.holding])
      · cases hacquired
  obtain ⟨howner, rfl⟩ := hfree
  apply moves_inv hinv hpc
  exact {
    threads := rfl
    self := by
      constructor <;> simp [Pc.locked, Pc.seen, Pc.holding, Pc.slow, hunlocked, hinstance, hrlocks]
    others := fun j other _ _ hother =>
      have hnot := hother.not_holding hrlocks (by simp [howner])
      ⟨hother.locked, hother.seen, hother.creating, hother.setting_lock, hother.acquiring,
        fun hholding => absurd hholding hnot, hother.slow⟩
    singleton_lock := fun j hj => Or.inr hj
    unset := fun hnone => by simp [hlock] at hnone
    missing := fun hnone => by simp [hlock] at hnone
    set := fun other hother => by
      obtain rfl := Option.some.inj (hlock.symm.trans hother)
      exact ⟨rfl, hinstance, _, by rw [hrlocks]; rfl⟩
    owner := fun j count hrlocks' => by
      rw [hrlocks] at hrlocks'
      simp only [List.set_cons_zero, List.cons.injEq, RLock.mk.injEq, Option.some.injEq, and_true] at hrlocks'
      rw [if_pos hrlocks'.1.symm]
      rfl }

theorem thread_step_inv {pc : Pc} (hinv : Inv s) (hpc : s.threads[i]? = some pc)
    (hstep : thread_step s i raises pc = some t) : Inv t := by
  have hknows := hinv.threads i pc hpc
  cases pc with
  | idle | done outcome => cases hstep
  | first_test purpose =>
    obtain rfl := Option.some.inj hstep
    have hunlocked := hknows.unlocked rfl
    cases hinstance : s.singleton_instance with
    | true =>
      apply moves_inv hinv hpc
      apply moves_goto hinv hpc
      · constructor <;> simp [Pc.locked, Pc.seen, Pc.holding, Pc.slow, hunlocked, hinstance]
        exact hknows.holding
      · simp
      · exact id
    | false =>
      have hnot : purpose.ending ≠ true := fun hending => by
        rw [hknows.seen hending] at hinstance
        cases hinstance
      apply moves_inv hinv hpc
      apply moves_goto hinv hpc
      · constructor <;> simp [Pc.locked, Pc.seen, Pc.holding, Pc.slow, hunlocked, hnot]
      · simp
      · exact fun hholding => absurd (Purpose.ending_of_holding hholding) hnot
  | entering purpose =>
    simp only [thread_step] at hstep
    split at hstep
    · next hfree =>
      obtain rfl := Option.some.inj hstep
      have hacquire := hknows.slow purpose rfl
      apply moves_inv hinv hpc
      exact {
        threads := rfl
        self := by constructor <;> simp [Pc.locked, Pc.seen, Pc.holding, Pc.slow, hacquire]
        others := fun j other hindex _ hother =>
          have hlocked := by rw [hother.locked, hfree]; simp [Ne.symm hindex]
          ⟨hlocked, hother.seen, hother.creating, hother.setting_lock, hother.acquiring, hother.holding,
            hother.slow⟩
        singleton_lock := fun j hj => Or.inl (Option.some.inj hj).symm
        unset := hinv.unset
        missing := fun hlock hinstance => Or.inr ⟨hlock, hinstance, by simp⟩
        set := hinv.set
        owner := fun j count hrlocks => owner_kept hinv hpc (by simp [Pc.holding]) j count hrlocks }
    · cases hstep
  | second_test purpose =>
    obtain rfl := Option.some.inj hstep
    have howner := hknows.locked.mp rfl
    have hacquire := hknows.slow purpose rfl
    apply moves_inv hinv hpc
    apply moves_goto hinv hpc
    · cases hinstance : s.singleton_instance <;>
        constructor <;> simp [Pc.locked, Pc.seen, Pc.holding, Pc.slow, howner, hacquire, hinstance]
    · simp
    · simp [Pc.holding]
  | creating purpose =>
    obtain rfl := Option.some.inj hstep
    have howner := hknows.locked.mp rfl
    have hacquire := hknows.slow purpose rfl
    have hunset : s.lock = none := by
      cases hlock : s.lock with
      | none => rfl
      | some lock =>
        have hinstance := (hinv.set lock hlock).2.1
        rw [hknows.creating purpose rfl] at hinstance
        cases hinstance
    apply moves_inv hinv hpc
    exact {
      threads := rfl
      self := by constructor <;> simp [Pc.locked, Pc.seen, Pc.holding, Pc.slow, howner, hacquire, hunset]
      others := fun j other hindex _ hother =>
        have hnot := hother.not_locked howner hindex
        ⟨hother.locked, fun _ => rfl, fun _ hcreating => absurd (by rw [hcreating]; rfl) hnot,
          hother.setting_lock, hother.acquiring, hother.holding, hother.slow⟩
      singleton_lock := fun j hj => Or.inr hj
      unset := hinv.unset
      missing := fun _ _ => Or.inl ⟨purpose, rfl⟩
      set := fun lock hlock => by simp [hunset] at hlock
      owner := fun j count hrlocks => owner_kept hinv hpc (by simp [Pc.holding]) j count hrlocks }
  | setting_lock purpose =>
    obtain rfl := Option.some.inj hstep
    have howner := hknows.locked.mp rfl
    have hacquire := hknows.slow purpose rfl
    have hinstance := hknows.seen rfl
    have hunset := hknows.setting_lock purpose rfl
    have hempty := hinv.unset hunset
    apply moves_inv hinv hpc
    exact {
      threads := rfl
      self := by
        constructor <;> simp [Pc.locked, Pc.seen, Pc.holding, Pc.slow, howner, hacquire, hinstance]
      others := fun j other hindex _ hother =>
        have hnot := hother.not_locked howner hindex
        ⟨hother.locked, hother.seen, hother.creating,
          fun _ hsetting => absurd (by rw [hsetting]; rfl) hnot,
          fun lock hacquiring => absurd ((hother.acquiring lock hacquiring).symm.trans hunset) (by simp),
          fun hholding => absurd ((hother.holding hholding).symm.trans hempty) (by simp),
          hother.slow⟩
      singleton_lock := fun j hj => Or.inr hj
      unset := fun hlock => by simp at hlock
      missing := fun hlock => by simp at hlock
      set := fun lock hlock => by
        obtain rfl := Option.some.inj hlock
        exact ⟨by simp [hempty], hinstance, RLock.new, by simp [hempty]⟩
      owner := fun j count hrlocks => by simp [hempty, RLock.new] at hrlocks }
  | leaving purpose =>
    obtain rfl := Option.some.inj hstep
    have howner := hknows.locked.mp rfl
    have hinstance := hknows.seen rfl
    have hnot : purpose.holding ≠ true := fun hholding => by
      have hending := Purpose.ending_of_holding hholding
      rw [hknows.slow purpose rfl] at hending
      cases hending
    apply moves_inv hinv hpc
    exact {
      threads := rfl
      self := by constructor <;> simp [Pc.locked, Pc.seen, Pc.holding, Pc.slow, hinstance, hnot]
      others := fun j other hindex _ hother =>
        have hlocked := by rw [hother.locked, howner]; simp [Ne.symm hindex]
        ⟨hlocked, hother.seen, hother.creating, hother.setting_lock, hother.acquiring, hother.holding,
          hother.slow⟩
      singleton_lock := fun j hj => by simp at hj
      unset := hinv.unset
      missing := fun hlock hinstance => Or.inr ⟨hlock, hinstance, by simp⟩
      set := hinv.set
      owner := fun j count hrlocks => owner_kept hinv hpc (by simp [Pc.holding]) j count hrlocks }
  | reading_lock purpose =>
    have hunlocked := hknows.unlocked rfl
    have hinstance := hknows.seen rfl
    cases purpose with
    | acquire =>
      simp only [thread_step] at hstep
      split at hstep
      · obtain rfl := Option.some.inj hstep
        apply moves_inv hinv hpc
        apply moves_goto hinv hpc
        · constructor <;>
            simp [Pc.locked, Pc.seen, Pc.holding, Pc.slow, Purpose.holding, hunlocked, hinstance]
        · simp
        · simp [Pc.holding, Purpose.holding]
      · next lock hlock =>
        obtain rfl := Option.some.inj hstep
        apply moves_inv hinv hpc
        apply moves_goto hinv hpc
        · constructor <;> simp [Pc.locked, Pc.seen, Pc.holding, Pc.slow, hunlocked, hinstance, hlock]
        · simp
        · simp [Pc.holding, Purpose.holding]
    | release outcome =>
      simp only [thread_step] at hstep
      split at hstep
      · next hlock =>
        obtain rfl := Option.some.inj hstep
        apply moves_inv hinv hpc
        apply moves_goto hinv hpc
        · constructor <;> simp [Pc.locked, Pc.seen, Pc.holding, Pc.slow, hunlocked]
        · simp
        · intro hholding
          have hempty := hinv.unset hlock
          rw [hknows.holding hholding] at hempty
          cases hempty
      · next lock hlock =>
        obtain rfl := Option.some.inj hstep
        exact release_inv hinv hpc hlock
  | acquiring lock =>
    simp only [thread_step] at hstep
    split at hstep
    · cases hstep
    · next acquired hacquired =>
      obtain rfl := Option.some.inj hstep
      exact acquire_inv hinv hpc hacquired
  | inside =>
    obtain rfl := Option.some.inj hstep
    have hunlocked := hknows.unlocked rfl
    have hinstance := hknows.seen rfl
    have hacquired := hknows.holding rfl
    apply moves_inv hinv hpc
    apply moves_goto hinv hpc
    · constructor <;> simp [Pc.locked, Pc.seen, Pc.holding, Pc.slow, hunlocked, hinstance, hacquired]
    · simp
    · simp [Pc.holding, Purpose.holding]

theorem step_inv {label : Label} (hinv : Inv s) (hstep : step s label = some t) : Inv t := by
  cases label with
  | call i =>
    simp only [step] at hstep
    split at hstep
    · next pc hpc =>
      split at hstep
      · next hreturned =>
        obtain ⟨hunlocked, hholding⟩ := Pc.locked_of_returned hreturned
        obtain rfl := Option.some.inj hstep
        apply moves_inv hinv hpc
        apply moves_goto hinv hpc
        · have hunlocked := (hinv.threads i pc hpc).unlocked hunlocked
          constructor <;>
            simp [Pc.locked, Pc.seen, Pc.holding, Pc.slow, Purpose.ending, Purpose.holding, hunlocked]
        · rintro purpose rfl
          cases hreturned
        · intro hholds
          rw [hholding] at hholds
          cases hholds
      · cases hstep
    · cases hstep
  | thread i raises =>
    simp only [step] at hstep
    split at hstep
    · next pc hpc => exact thread_step_inv hinv hpc hstep
    · cases hstep

theorem run_inv {threads : Nat} {labels : List Label} (hrun : run step (init threads) labels = some s) :
    Inv s :=
  run_invariant (fun _ _ _ hinv hstep => step_inv hinv hstep) (init_inv threads) hrun

end

/-- The requests to the chain exclude each other, even when several threads are
    the first to ask for the lock. -/
theorem requests_exclusive {threads : Nat} {labels : List Label} {s : State}
    (hrun : run step (init threads) labels = some s) {i j : Nat} (hne : i ≠ j)
    (hi : s.threads[i]? = some .inside) : s.threads[j]? ≠ some .inside := by
  intro hj
  have hinv := run_inv hrun
  have hlock := (hinv.threads i _ hi).holding rfl
  rw [(hinv.threads j _ hj).holding rfl] at hlock
  simp only [List.cons.injEq, RLock.mk.injEq, Option.some.injEq, and_true] at hlock
  exact hne hlock.symm

/-- One of two threads acquires the lock, and the other one waits for it. -/
def queued_labels : List Label :=
  [.call 0, .call 1] ++ List.replicate 8 (.thread 0 false) ++ List.replicate 2 (.thread 1 false)

def queued : State := (run step (init 2) queued_labels).get (by decide)

theorem run_queued : run step (init 2) queued_labels = some queued := (Option.some_get _).symm

theorem requests_exclusive_queued : queued.threads[1]? ≠ some .inside :=
  requests_exclusive run_queued (by decide) (show queued.threads[0]? = some .inside by decide)

section
variable {threads : Nat} {labels : List Label} {s t : State} {i : Nat} {raises : Bool}

/-- Where a thread can stand between the creation of the instance and that of its
    lock. -/
theorem missing_iff (hinv : Inv s) (hinstance : s.singleton_instance = true) :
    s.lock = none ↔ ∃ (j : Nat) (purpose : Purpose), s.threads[j]? = some (.setting_lock purpose) := by
  constructor
  · exact fun hlock => hinv.missing hlock hinstance
  · rintro ⟨j, purpose, hj⟩
    exact (hinv.threads j _ hj).setting_lock purpose rfl

theorem lock_step {label : Label} {lock : Nat} (hinv : Inv s) (hlock : s.lock = some lock)
    (hstep : step s label = some t) : t.lock = some lock := by
  have hset (i : Nat) (purpose : Purpose) : s.threads[i]? ≠ some (.setting_lock purpose) := by
    intro hpc
    rw [(hinv.threads i _ hpc).setting_lock purpose rfl] at hlock
    cases hlock
  cases label with
  | call i =>
    simp only [step] at hstep
    split at hstep
    · split at hstep
      · obtain rfl := Option.some.inj hstep
        exact hlock
      · cases hstep
    · cases hstep
  | thread i raises =>
    simp only [step] at hstep
    split at hstep
    · next pc hpc =>
      cases pc with
      | idle | done outcome => cases hstep
      | setting_lock purpose => exact absurd hpc (hset i purpose)
      | first_test purpose | second_test purpose | creating purpose | leaving purpose | inside =>
        obtain rfl := Option.some.inj hstep
        exact hlock
      | reading_lock purpose =>
        cases purpose <;>
          (simp only [thread_step, hlock] at hstep
           obtain rfl := Option.some.inj hstep
           exact hlock)
      | entering purpose | acquiring lock =>
        simp only [thread_step] at hstep
        split at hstep <;> cases hstep
        exact hlock
    · cases hstep

/-- A call fails for want of a lock exactly when it gets the instance while
    another thread has created it and not yet made its lock; once made, the lock is
    never replaced. -/
theorem lock_missing_iff (hrun : run step (init threads) labels = some s)
    (hpc : s.threads[i]? = some (.reading_lock .acquire))
    (hstep : step s (.thread i raises) = some t) :
    (t.threads[i]? = some (.first_test (.release .no_lock)) ↔
      ∃ (j : Nat) (purpose : Purpose), s.threads[j]? = some (.setting_lock purpose)) ∧
    ∀ lock, s.lock = some lock → ∀ further u, run step s further = some u → u.lock = some lock := by
  have hinv := run_inv hrun
  have hlt : i < s.threads.length := (List.getElem?_eq_some_iff.mp hpc).1
  refine ⟨?_, ?_⟩
  · rw [← missing_iff hinv ((hinv.threads i _ hpc).seen rfl)]
    simp only [step, hpc, thread_step] at hstep
    cases hlock : s.lock with
    | none =>
      rw [hlock] at hstep
      obtain rfl := Option.some.inj hstep
      simp [getElem?_goto hlt]
    | some lock =>
      rw [hlock] at hstep
      obtain rfl := Option.some.inj hstep
      simp [getElem?_goto hlt]
  · intro lock hlock further u hfurther
    exact (run_invariant (motive := fun u => Inv u ∧ u.lock = some lock)
      (fun _ _ _ hkept hnext => ⟨step_inv hkept.1 hnext, lock_step hkept.1 hkept.2 hnext⟩)
      ⟨hinv, hlock⟩ hfurther).2

/-- A second thread gets the instance before the first one has made its lock. -/
def raced_labels : List Label :=
  [.call 0, .call 1] ++ List.replicate 4 (.thread 0 false) ++ [.thread 1 false]

def raced : State := (run step (init 2) raced_labels).get (by decide)

theorem run_raced : run step (init 2) raced_labels = some raced := (Option.some_get _).symm

theorem lock_missing_raced :
    (raced.goto 1 (.first_test (.release .no_lock))).threads[1]? =
      some (.first_test (.release .no_lock)) :=
  (lock_missing_iff (t := raced.goto 1 (.first_test (.release .no_lock))) run_raced (by decide)
    (show step raced (.thread 1 false) = _ by decide)).1.mpr ⟨0, .acquire, by decide⟩

/-- The steps that a call takes at most before it returns. -/
def Pc.rank : Pc → Nat
  | .idle | .done _ => 0
  | .reading_lock (.release _) => 1
  | .leaving (.release _) => 2
  | .setting_lock (.release _) => 3
  | .creating (.release _) => 4
  | .second_test (.release _) => 5
  | .entering (.release _) => 6
  | .first_test (.release _) => 7
  | .inside => 8
  | .acquiring _ => 9
  | .reading_lock .acquire => 10
  | .leaving .acquire => 11
  | .setting_lock .acquire => 12
  | .creating .acquire => 13
  | .second_test .acquire => 14
  | .entering .acquire => 15
  | .first_test .acquire => 16

def Label.is_thread : Label → Bool
  | .thread _ _ => true
  | .call _ => false

def Label.is_call : Label → Bool
  | .call _ => true
  | .thread _ _ => false

theorem thread_step_rank {pc : Pc} (hstep : thread_step s i raises pc = some t) :
    ∃ next, t.threads = s.threads.set i next ∧ next.rank < pc.rank := by
  cases pc with
  | idle | done outcome => cases hstep
  | first_test purpose =>
    obtain rfl := Option.some.inj hstep
    refine ⟨_, rfl, ?_⟩
    cases purpose <;> cases s.singleton_instance <;> simp [Pc.rank]
  | second_test purpose =>
    obtain rfl := Option.some.inj hstep
    refine ⟨_, rfl, ?_⟩
    cases purpose <;> cases s.singleton_instance <;> simp [Pc.rank]
  | entering purpose =>
    simp only [thread_step] at hstep
    split at hstep
    · obtain rfl := Option.some.inj hstep
      exact ⟨_, rfl, by cases purpose <;> simp [Pc.rank]⟩
    · cases hstep
  | creating purpose | setting_lock purpose | leaving purpose =>
    obtain rfl := Option.some.inj hstep
    exact ⟨_, rfl, by cases purpose <;> simp [Pc.rank]⟩
  | reading_lock purpose =>
    cases purpose with
    | acquire =>
      simp only [thread_step] at hstep
      split at hstep
      · obtain rfl := Option.some.inj hstep
        exact ⟨_, rfl, by simp [Pc.rank]⟩
      · obtain rfl := Option.some.inj hstep
        exact ⟨_, rfl, by simp [Pc.rank]⟩
    | release outcome =>
      simp only [thread_step] at hstep
      split at hstep
      · obtain rfl := Option.some.inj hstep
        exact ⟨_, rfl, by simp [Pc.rank]⟩
      · obtain rfl := Option.some.inj hstep
        exact ⟨_, rfl, by simp [Pc.rank]⟩
  | acquiring lock =>
    simp only [thread_step] at hstep
    split at hstep
    · cases hstep
    · obtain rfl := Option.some.inj hstep
      exact ⟨_, rfl, by simp [Pc.rank]⟩
  | inside =>
    obtain rfl := Option.some.inj hstep
    exact ⟨_, rfl, by simp [Pc.rank]⟩

theorem step_total {label : Label} (hstep : step s label = some t) :
    total Pc.rank t.threads + (if label.is_thread then 1 else 0) ≤
      total Pc.rank s.threads + if label.is_call then 16 else 0 := by
  cases label with
  | call i =>
    simp only [step] at hstep
    split at hstep
    · next pc hpc =>
      split at hstep
      · obtain rfl := Option.some.inj hstep
        have htotal := total_set Pc.rank hpc (.first_test .acquire)
        have hrank : (Pc.first_test .acquire).rank = 16 := rfl
        simp only [State.goto, Label.is_thread, Label.is_call, if_true, Bool.false_eq_true, if_false]
        omega
      · cases hstep
    · cases hstep
  | thread i raises =>
    simp only [step] at hstep
    split at hstep
    · next pc hpc =>
      obtain ⟨next, hthreads, hless⟩ := thread_step_rank hstep
      have htotal := total_set Pc.rank hpc next
      rw [hthreads]
      simp only [Label.is_thread, Label.is_call, if_true, Bool.false_eq_true, if_false]
      omega
    · cases hstep

/-- A thread that holds a lock, or waits for none, can go on. -/
theorem exists_step {pc : Pc} (hpc : s.threads[i]? = some pc) (hactive : pc.returned = false)
    (hentering : ∀ purpose, pc ≠ .entering purpose) (hacquiring : ∀ lock, pc ≠ .acquiring lock) :
    ∃ t, step s (.thread i raises) = some t := by
  cases pc with
  | idle | done outcome => cases hactive
  | entering purpose => exact absurd rfl (hentering purpose)
  | acquiring lock => exact absurd rfl (hacquiring lock)
  | reading_lock purpose =>
    cases purpose <;> cases hlock : s.lock <;> simp [step, hpc, thread_step, hlock]
  | _ => simp [step, hpc, thread_step]

/-- Every call returns: threads that take no further calls take at most 16 steps
    for each one, and can always go on while one has not returned. -/
theorem calls_return (hrun : run step (init threads) labels = some s) :
    labels.countP Label.is_thread ≤ 16 * labels.countP Label.is_call ∧
      ((∀ i raises, step s (.thread i raises) = none) →
        ∀ (i : Nat) (pc : Pc), s.threads[i]? = some pc → pc.returned = true) := by
  have hinv := run_inv hrun
  constructor
  · have hbudget := run_budget (p := Label.is_thread) (q := Label.is_call)
      (fun _ _ _ hstep => step_total hstep) hrun
    have hinit : total Pc.rank (init threads).threads = 0 := total_replicate Pc.rank threads .idle
    omega
  · intro hstuck
    -- A thread that waits for no lock would go on.
    have hblocked : ∀ (j : Nat) (pc : Pc), s.threads[j]? = some pc → pc.returned = true ∨
        (∃ purpose, pc = .entering purpose) ∨ ∃ lock, pc = .acquiring lock := by
      intro j pc hpc
      cases pc with
      | idle | done outcome => exact Or.inl rfl
      | entering purpose => exact Or.inr (Or.inl ⟨purpose, rfl⟩)
      | acquiring lock => exact Or.inr (Or.inr ⟨lock, rfl⟩)
      | _ =>
        obtain ⟨t, hstep⟩ := @exists_step s j false _ hpc rfl (by simp) (by simp)
        rw [hstuck j false] at hstep
        cases hstep
    intro i pc hpc
    rcases hblocked i pc hpc with hreturned | ⟨purpose, rfl⟩ | ⟨lock, rfl⟩
    · exact hreturned
    · have hwaits := hstuck i false
      simp only [step, hpc, thread_step] at hwaits
      cases hholder : s.singleton_lock with
      | none => simp [hholder] at hwaits
      | some j =>
        obtain ⟨other, hother⟩ := hinv.singleton_lock j hholder
        have hlocked := (hinv.threads j other hother).locked.mpr hholder
        rcases hblocked j other hother with hreturned | ⟨_, rfl⟩ | ⟨_, rfl⟩
        · rw [(Pc.locked_of_returned hreturned).1] at hlocked
          cases hlocked
        · cases hlocked
        · cases hlocked
    · have hwaits := hstuck i false
      obtain ⟨rfl, _, rlock, hrlocks⟩ := hinv.set lock ((hinv.threads i _ hpc).acquiring lock rfl)
      simp only [step, hpc, thread_step, hrlocks, List.getElem?_cons_zero, Option.bind_some] at hwaits
      obtain ⟨owner, count⟩ := rlock
      cases owner with
      | none => simp [RLock.acquire] at hwaits
      | some j =>
        obtain ⟨other, hother, hholds⟩ := hinv.owner j count hrlocks
        rcases hblocked j other hother with hreturned | ⟨_, rfl⟩ | ⟨_, rfl⟩
        · rw [(Pc.locked_of_returned hreturned).2] at hholds
          cases hholds
        · cases hholds
        · cases hholds

end

theorem calls_return_queued : queued_labels.countP Label.is_thread ≤ 32 :=
  (calls_return run_queued).1

end qsp.singleton
