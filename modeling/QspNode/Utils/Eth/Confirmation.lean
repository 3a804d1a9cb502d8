import QspNode.Utils.Eth.Tx

namespace qsp.tx

/-- What a provider that never fails answers during the confirmation wait: the
    heights of its successive block number queries, the one before the loop and
    the initial one included, and the block of the receipt in each round. -/
structure Chain where
  heights : Nat → Int
  receipts : Nat → Option Int
  non_decreasing : ∀ i j, i ≤ j → heights i ≤ heights j

namespace Chain

def round (chain : Chain) (i : Nat) : Except PyException Int × Except PyException (Option Int) :=
  (.ok (chain.heights (i + 2)), .ok (chain.receipts i))

/-- The `rounds` answers from round `i` on. -/
def answers_from (chain : Chain) : (i rounds : Nat) →
    List (Except PyException Int × Except PyException (Option Int))
  | _, 0 => []
  | i, rounds + 1 => chain.round i :: chain.answers_from (i + 1) rounds

/-- The wait after `rounds` rounds of its loop; `none` while it goes on. -/
def wait (chain : Chain) (config : Config) (answers : Answers) (rounds : Nat) :
    Option (Except PyException Unit) :=
  wait_for_confirmed_transaction_receipt config
    { answers with
      start_block := .ok (chain.heights 0)
      current_block := .ok (chain.heights 1)
      rounds := chain.answers_from 0 rounds }

/-- The loop condition before round `i`. -/
def Guard (chain : Chain) (n_blocks_confirmation : Int) (i : Nat) : Prop :=
  chain.heights (i + 1) - chain.heights 0 ≤ n_blocks_confirmation * 3

/-- Round `i` finds a receipt that is deep enough below the height it reads. -/
def Confirmed (chain : Chain) (n_blocks_confirmation : Int) (i : Nat) : Prop :=
  ∃ tx_block_number, chain.receipts i = some tx_block_number ∧
    n_blocks_confirmation ≤ chain.heights (i + 2) - tx_block_number

def ReturnsIn (chain : Chain) (config : Config) (answers : Answers) (i : Nat) : Prop :=
  chain.wait config answers i = none ∧ chain.wait config answers (i + 1) = some (.ok ())

def Raises (chain : Chain) (config : Config) (answers : Answers) : Prop :=
  ∃ rounds e, chain.wait config answers rounds = some (.error e)

/-- The transaction stays in one block, mined early enough, of a growing chain. -/
structure Stable (chain : Chain) (n_blocks_confirmation : Int) : Prop where
  receipt : ∃ b, (∀ i, chain.receipts i = some b) ∧
    b ≤ chain.heights 0 + 2 * n_blocks_confirmation + 1
  growing : ∀ height, ∃ i, height ≤ chain.heights i

/-- The loop from round `i` on. -/
def loop (chain : Chain) (n_blocks_confirmation : Int) (i rounds : Nat) :
    Option (Except PyException Unit) :=
  confirmation_loop n_blocks_confirmation (chain.heights 0) (chain.heights (i + 1))
    (chain.answers_from i rounds)

section Loop

variable {chain : Chain} {n : Int} {i : Nat}

theorem loop_zero_of_guard (hguard : chain.Guard n i) : chain.loop n i 0 = none :=
  if_pos hguard

theorem loop_of_not_guard (hguard : ¬ chain.Guard n i) (rounds : Nat) :
    chain.loop n i rounds = some (.error .TransactionNotConfirmedException) := by
  cases rounds <;> exact if_neg hguard

theorem loop_succ_of_confirmed (hguard : chain.Guard n i) (hconfirmed : chain.Confirmed n i)
    (rounds : Nat) : chain.loop n i (rounds + 1) = some (.ok ()) := by
  obtain ⟨tx_block_number, hreceipt, hdeep⟩ := hconfirmed
  rw [loop, answers_from, round, hreceipt, confirmation_loop]
  exact (if_pos hguard).trans (if_pos hdeep)

theorem loop_succ_of_not_confirmed (hguard : chain.Guard n i) (hconfirmed : ¬ chain.Confirmed n i)
    (rounds : Nat) : chain.loop n i (rounds + 1) = chain.loop n (i + 1) rounds := by
  rw [loop, answers_from, round, loop]
  cases hreceipt : chain.receipts i with
  | none =>
    rw [confirmation_loop]
    exact if_pos hguard
  | some tx_block_number =>
    have hdeep : ¬ n ≤ chain.heights (i + 2) - tx_block_number := by
      intro hdeep
      exact hconfirmed ⟨tx_block_number, hreceipt, hdeep⟩
    rw [confirmation_loop]
    exact (if_pos hguard).trans (if_neg hdeep)

/-- The round in which the loop returns has a receipt at the required depth. -/
theorem confirmed_of_loop {rounds : Nat} (hwaits : chain.loop n i rounds = none)
    (hreturns : chain.loop n i (rounds + 1) = some (.ok ())) : chain.Confirmed n (i + rounds) := by
  induction rounds generalizing i with
  | zero =>
    by_cases hguard : chain.Guard n i
    · by_contra hconfirmed
      have hnext := loop_succ_of_not_confirmed hguard hconfirmed 0
      rw [hreturns, loop, answers_from, confirmation_loop] at hnext
      split at hnext <;> simp at hnext
    · rw [loop_of_not_guard hguard] at hwaits
      simp at hwaits
  | succ rounds ih =>
    have hguard : chain.Guard n i := by
      by_contra hguard
      rw [loop_of_not_guard hguard] at hwaits
      simp at hwaits
    have hconfirmed : ¬ chain.Confirmed n i := by
      intro hconfirmed
      rw [loop_succ_of_confirmed hguard hconfirmed] at hwaits
      simp at hwaits
    rw [loop_succ_of_not_confirmed hguard hconfirmed] at hwaits hreturns
    have hlast := ih hwaits hreturns
    rwa [Nat.add_right_comm] at hlast

/-- While the receipt is too close to the head, the loop goes on. -/
theorem Stable.guard_succ (hstable : chain.Stable n) (hconfirmed : ¬ chain.Confirmed n i) :
    chain.Guard n (i + 1) := by
  obtain ⟨b, hreceipts, hbound⟩ := hstable.receipt
  have hshallow : ¬ n ≤ chain.heights (i + 2) - b := by
    intro hdeep
    exact hconfirmed ⟨b, hreceipts i, hdeep⟩
  show chain.heights (i + 2) - chain.heights 0 ≤ n * 3
  omega

theorem Stable.loop_ne_error (hstable : chain.Stable n) (hguard : chain.Guard n i) (rounds : Nat)
    (e : PyException) : chain.loop n i rounds ≠ some (.error e) := by
  induction rounds generalizing i with
  | zero => simp [loop_zero_of_guard hguard]
  | succ rounds ih =>
    by_cases hconfirmed : chain.Confirmed n i
    · simp [loop_succ_of_confirmed hguard hconfirmed]
    · rw [loop_succ_of_not_confirmed hguard hconfirmed]
      exact ih (hstable.guard_succ hconfirmed)

theorem Stable.exists_confirmed (hstable : chain.Stable n) : ∃ i, chain.Confirmed n i := by
  obtain ⟨b, hreceipts, _⟩ := hstable.receipt
  obtain ⟨i, hheight⟩ := hstable.growing (b + n)
  have hread : chain.heights i ≤ chain.heights (i + 2) :=
    chain.non_decreasing i (i + 2) (Nat.le_add_right i 2)
  refine ⟨i, b, hreceipts i, ?_⟩
  omega

theorem Stable.loop_returns (hstable : chain.Stable n) {d : Nat} (hguard : chain.Guard n i)
    (hconfirmed : chain.Confirmed n (i + d)) :
    ∃ rounds, chain.loop n i rounds = none ∧ chain.loop n i (rounds + 1) = some (.ok ()) := by
  induction d generalizing i with
  | zero => exact ⟨0, loop_zero_of_guard hguard, loop_succ_of_confirmed hguard hconfirmed 0⟩
  | succ d ih =>
    by_cases hnow : chain.Confirmed n i
    · exact ⟨0, loop_zero_of_guard hguard, loop_succ_of_confirmed hguard hnow 0⟩
    · have hlater : chain.Confirmed n (i + 1 + d) := by rwa [Nat.add_right_comm]
      obtain ⟨rounds, hwaits, hreturns⟩ := ih (hstable.guard_succ hnow) hlater
      refine ⟨rounds + 1, ?_, ?_⟩
      · rw [loop_succ_of_not_confirmed hguard hnow, hwaits]
      · rw [loop_succ_of_not_confirmed hguard hnow, hreturns]

end Loop

/-- A return comes from a receipt at the required depth in that very round, and
    the wait for a stable transaction returns without an exception. -/
structure WaitCorrect (chain : Chain) (config : Config) (answers : Answers) : Prop where
  sound : ∀ i, chain.ReturnsIn config answers i →
    ∃ tx_block_number, chain.receipts i = some tx_block_number ∧
      tx_block_number + config.n_blocks_confirmation ≤ chain.heights (i + 2)
  complete : chain.Stable config.n_blocks_confirmation →
    (∃ i, chain.ReturnsIn config answers i) ∧ ¬ chain.Raises config answers

theorem wait_sound (config : Config) (answers : Answers) (chain : Chain) {i : Nat}
    (hreturns : chain.ReturnsIn config answers i) :
    ∃ tx_block_number, chain.receipts i = some tx_block_number ∧
      tx_block_number + config.n_blocks_confirmation ≤ chain.heights (i + 2) := by
  have hloop : chain.Confirmed config.n_blocks_confirmation (0 + i) :=
    confirmed_of_loop hreturns.1 hreturns.2
  rw [Nat.zero_add] at hloop
  obtain ⟨tx_block_number, hreceipt, hdeep⟩ := hloop
  refine ⟨tx_block_number, hreceipt, ?_⟩
  omega

theorem Stable.wait_returns {chain : Chain} {config : Config}
    (hstable : chain.Stable config.n_blocks_confirmation)
    (hguard : chain.Guard config.n_blocks_confirmation 0) (answers : Answers) :
    (∃ i, chain.ReturnsIn config answers i) ∧ ¬ chain.Raises config answers := by
  constructor
  · obtain ⟨i, hconfirmed⟩ := hstable.exists_confirmed
    rw [← Nat.zero_add i] at hconfirmed
    exact hstable.loop_returns hguard hconfirmed
  · rintro ⟨rounds, e, herror⟩
    exact hstable.loop_ne_error hguard rounds e herror

theorem raises_of_not_guard {chain : Chain} {config : Config}
    (hguard : ¬ chain.Guard config.n_blocks_confirmation 0) (answers : Answers) :
    chain.Raises config answers :=
  ⟨0, .TransactionNotConfirmedException, loop_of_not_guard hguard 0⟩

/-- The wait gives up on a stable transaction exactly when the height read just
    before the loop is out of range of the one before it. -/
theorem waitCorrect_iff (config : Config) (answers : Answers) (chain : Chain) :
    chain.WaitCorrect config answers ↔
      (chain.Stable config.n_blocks_confirmation →
        chain.heights 1 ≤ chain.heights 0 + 3 * config.n_blocks_confirmation) := by
  have hguard : chain.Guard config.n_blocks_confirmation 0 ↔
      chain.heights 1 ≤ chain.heights 0 + 3 * config.n_blocks_confirmation := by
    show chain.heights 1 - chain.heights 0 ≤ config.n_blocks_confirmation * 3 ↔ _
    omega
  rw [← hguard]
  constructor
  · intro hcorrect hstable
    by_contra hlate
    exact (hcorrect.complete hstable).2 (raises_of_not_guard hlate answers)
  · intro hrange
    exact ⟨fun i => wait_sound config answers chain,
      fun hstable => hstable.wait_returns (hrange hstable) answers⟩

/-- A chain that grows by a block a query from `second` on, with a receipt in block 101. -/
def growing_from (second : Int) (hsecond : 100 ≤ second) : Chain where
  heights i := if i = 0 then 100 else second + i
  receipts _ := some 101
  non_decreasing i j hle := by
    split <;> split <;> omega

theorem growing_from_stable {second : Int} (hsecond : 100 ≤ second) :
    (growing_from second hsecond).Stable 1 := by
  refine ⟨⟨101, fun _ => rfl, by simp [growing_from]⟩, fun height => ⟨height.toNat + 1, ?_⟩⟩
  simp only [growing_from, Nat.succ_ne_zero, if_false]
  omega

def one_block_config : Config :=
  { n_blocks_confirmation := 1
    submission_timeout_limit_blocks := 10
    block_discard_on_restart := 1
    max_assigned_requests := 1
    enable_police_audit_polling := false
    audit_contract_address := "0x0" }

def no_answers : Answers :=
  { buildTransaction := .ok ()
    sendRawTransaction := .ok "0xc0ffee"
    waitForTransactionReceipt := .ok ()
    start_block := .ok 0
    current_block := .ok 0
    rounds := []
    getTransactionCount := .ok 0 }

theorem waitCorrect_growing_from_100 :
    (growing_from 100 (by decide)).WaitCorrect one_block_config no_answers :=
  (waitCorrect_iff one_block_config no_answers _).mpr (fun _ => by decide)

/-- Four blocks between the two height reads: the receipt is never asked for. -/
theorem not_waitCorrect_growing_from_103 :
    ¬ (growing_from 103 (by decide)).WaitCorrect one_block_config no_answers := by
  intro hcorrect
  have hstable : (growing_from 103 (by decide)).Stable 1 := growing_from_stable (by decide)
  exact (hcorrect.complete hstable).2 ⟨0, .TransactionNotConfirmedException, rfl⟩

end Chain

end qsp.tx
