import QspNode.Config.Loading

namespace qsp.config

/-- The settings pass every comparison of the sanity checks. -/
structure Checked (env : Environment) (config : Config) (timeout max_requests : Int) : Prop where
  start : gt env.order config.start_n_blocks_in_the_past config.submission_timeout_limit_blocks = .ok false
  submission : gt env.order config.submission_timeout_limit_blocks (.int timeout) = .ok false
  analyzers : ∀ analyzer ∈ config.analyzers,
    gt env.order analyzer.timeout_sec (.int (timeout * APPROXIMATE_BLOCK_LENGTH_IN_SECONDS)) = .ok false
  requests : gt env.order config.max_assigned_requests (.int max_requests) = .ok false
  gas_price : gt env.order config.max_gas_price_wei (.int 0) = .ok false ∨
    gt env.order config.max_gas_price_wei (.int 0) = .ok true ∧
      gt env.order config.default_gas_price_wei config.max_gas_price_wei = .ok false
  strategy : config.gas_price_strategy.is_str "dynamic" = true ∨
    config.gas_price_strategy.is_str "static" = true
  confirmation_le : gt env.order config.n_blocks_confirmation (.int AUDIT_TIMEOUT_IN_BLOCKS) = .ok false
  confirmation_ge : lt env.order config.n_blocks_confirmation (.int 0) = .ok false

def Value.positive (v : Value) : Bool := v.number.any (fun x => (Number.of 0).lt x)

/-- The rules of the sanity checks. -/
structure Rules (config : Config) (timeout max_requests : Int) : Prop where
  start : le config.start_n_blocks_in_the_past config.submission_timeout_limit_blocks = true
  submission : le config.submission_timeout_limit_blocks (.int timeout) = true
  analyzers : ∀ analyzer ∈ config.analyzers,
    le analyzer.timeout_sec (.int (timeout * APPROXIMATE_BLOCK_LENGTH_IN_SECONDS)) = true
  requests : le config.max_assigned_requests (.int max_requests) = true
  gas_price : config.max_gas_price_wei.positive = true →
    le config.default_gas_price_wei config.max_gas_price_wei = true
  strategy : config.gas_price_strategy.is_str "dynamic" = true ∨
    config.gas_price_strategy.is_str "static" = true
  confirmation : le (.int 0) config.n_blocks_confirmation = true ∧
    le config.n_blocks_confirmation (.int AUDIT_TIMEOUT_IN_BLOCKS) = true

section
variable {env : Environment} {cfg : Value} {config : Config} {timeout max_requests : Int}

@[simp]
theorem raise_err_eq_ok_iff {cond : Bool} {msg : String} {u : Unit} :
    raise_err cond msg = .ok u ↔ cond = false := by
  cases cond <;> simp [raise_err]

theorem check_analyzers_eq_ok_iff {analyzers : List Analyzer} {u : Unit} :
    check_analyzers env timeout analyzers = .ok u ↔ ∀ analyzer ∈ analyzers,
      gt env.order analyzer.timeout_sec (.int (timeout * APPROXIMATE_BLOCK_LENGTH_IN_SECONDS)) =
        .ok false := by
  induction analyzers with
  | nil => simp [check_analyzers]
  | cons analyzer analyzers ih =>
    simp only [check_analyzers, bind_eq_ok_iff, raise_err_eq_ok_iff, ih, List.forall_mem_cons]
    constructor
    · rintro ⟨exceeds, hgt, _, rfl, hrest⟩
      exact ⟨hgt, hrest⟩
    · rintro ⟨hgt, hrest⟩
      exact ⟨false, hgt, (), rfl, hrest⟩

theorem check_gas_price_ok {u : Unit} (hcheck : check_gas_price env config = .ok u) :
    gt env.order config.max_gas_price_wei (.int 0) = .ok false ∨
      gt env.order config.max_gas_price_wei (.int 0) = .ok true ∧
        gt env.order config.default_gas_price_wei config.max_gas_price_wei = .ok false := by
  obtain ⟨is_set, hset, hrest⟩ := bind_eq_ok_iff.mp hcheck
  cases is_set with
  | false => exact Or.inl hset
  | true =>
    obtain ⟨exceeds, hgt, hraise⟩ := bind_eq_ok_iff.mp hrest
    obtain rfl := raise_err_eq_ok_iff.mp hraise
    exact Or.inr ⟨hset, hgt⟩

theorem check_configuration_settings_ok {u : Unit}
    (hcheck : check_configuration_settings env config = .ok u) :
    ∃ contract timeout max_requests, config.audit_contract = some contract ∧
      contract.getAuditTimeoutInBlocks = .ok timeout ∧
      contract.getMaxAssignedRequests = .ok max_requests ∧ Checked env config timeout max_requests := by
  simp only [check_configuration_settings, bind_eq_ok_iff, raise_err_eq_ok_iff] at hcheck
  obtain ⟨contract, hcontract, timeout, htimeout, max_requests, hmax, hcheck⟩ := hcheck
  obtain ⟨_, hstart, _, rfl, _, hsubmission, _, rfl, _, hanalyzers, hcheck⟩ := hcheck
  obtain ⟨_, hrequests, _, rfl, _, hgas, _, hstrategy, _, hle, _, rfl, _, hge, rfl⟩ := hcheck
  have hsome : config.audit_contract = some contract := by
    cases hfound : config.audit_contract with
    | none => simp [hfound, functions] at hcontract
    | some found => simpa [hfound, functions] using hcontract
  refine ⟨contract, timeout, max_requests, hsome, htimeout, hmax, ?_⟩
  exact
    { start := hstart
      submission := hsubmission
      analyzers := check_analyzers_eq_ok_iff.mp hanalyzers
      requests := hrequests
      gas_price := check_gas_price_ok hgas
      strategy := by simpa only [Bool.not_eq_false', Bool.or_eq_true] using hstrategy
      confirmation_le := hle
      confirmation_ge := hge }

theorem eq_of_gt_zero {v : Value} {b : Bool} (hgt : gt env.order v (.int 0) = .ok b) :
    v.positive = b := by
  obtain ⟨x, hx⟩ := Option.isSome_iff_exists.mp (number_of_compare hgt rfl)
  have hzero : (Value.int 0).number = some (Number.of 0) := by simp [Value.number]
  simp only [gt, compare, hx, hzero, Except.ok.injEq] at hgt
  rw [Value.positive, hx, Option.any_some, hgt]

theorem is_nan_int (n : Int) : (Value.int n).is_nan = false := rfl

/-- Settings that were checked satisfy the rules, unless one of the compared
    values is not a number. -/
theorem Checked.rules_iff (hchecked : Checked env config timeout max_requests) :
    Rules config timeout max_requests ↔
      config.start_n_blocks_in_the_past.is_nan = false ∧
      config.submission_timeout_limit_blocks.is_nan = false ∧
      (∀ analyzer ∈ config.analyzers, analyzer.timeout_sec.is_nan = false) ∧
      config.max_assigned_requests.is_nan = false ∧
      (config.max_gas_price_wei.positive = true → config.default_gas_price_wei.is_nan = false) ∧
      config.n_blocks_confirmation.is_nan = false := by
  have hnumber := number_of_compare hchecked.submission rfl
  have hstart := le_iff_of_gt hchecked.start hnumber
  have hsubmission := le_iff_of_gt hchecked.submission rfl
  have hrequests := le_iff_of_gt hchecked.requests rfl
  have hle := le_iff_of_gt hchecked.confirmation_le rfl
  have hge := le_iff_of_lt hchecked.confirmation_ge rfl
  simp only [is_nan_int, and_true, true_and] at hsubmission hrequests hle hge
  have hanalyzers : (∀ analyzer ∈ config.analyzers,
      le analyzer.timeout_sec (.int (timeout * APPROXIMATE_BLOCK_LENGTH_IN_SECONDS)) = true) ↔
        ∀ analyzer ∈ config.analyzers, analyzer.timeout_sec.is_nan = false := by
    apply forall₂_congr
    intro analyzer hanalyzer
    simpa [is_nan_int] using le_iff_of_gt (hchecked.analyzers analyzer hanalyzer) rfl
  have hgas : (config.max_gas_price_wei.positive = true →
      le config.default_gas_price_wei config.max_gas_price_wei = true) ↔
        (config.max_gas_price_wei.positive = true → config.default_gas_price_wei.is_nan = false) := by
    rcases hchecked.gas_price with hunset | ⟨hset, hgt⟩
    · simp [eq_of_gt_zero hunset]
    · have hpositive := eq_of_gt_zero hset
      obtain ⟨x, hx⟩ := Option.isSome_iff_exists.mp (number_of_compare hset rfl)
      have hmax : config.max_gas_price_wei.is_nan = false := by
        cases x with
        | none => simp [Value.positive, hx, Number.lt, Number.of] at hpositive
        | some x => simp [Value.is_nan, hx]
      simp [hpositive, le_iff_of_gt hgt (by simp [hx]), hmax]
  constructor
  · intro hrules
    exact ⟨(hstart.mp hrules.start).1, hsubmission.mp hrules.submission, hanalyzers.mp hrules.analyzers,
      hrequests.mp hrules.requests, hgas.mp hrules.gas_price, hle.mp hrules.confirmation.2⟩
  · rintro ⟨hstart', hsubmission', hanalyzers', hrequests', hgas', hconfirmation⟩
    exact
      { start := hstart.mpr ⟨hstart', hsubmission'⟩
        submission := hsubmission.mpr hsubmission'
        analyzers := hanalyzers.mpr hanalyzers'
        requests := hrequests.mpr hrequests'
        gas_price := hgas.mpr hgas'
        strategy := hchecked.strategy
        confirmation := ⟨hge.mpr hconfirmation, hle.mpr hconfirmation⟩ }

/-- The timeouts that the configuration of the analyzers asks for. -/
def analyzer_timeout : Value → Value
  | .dict ((_, .dict analyzer_config) :: _) =>
    (Value.lookup "timeout_sec" analyzer_config).getD default_timeout_sec
  | _ => default_timeout_sec

def configured_timeouts : Value → List Value
  | .list analyzers_config => analyzers_config.map analyzer_timeout
  | _ => []

theorem get_eq_ok_iff {v default value : Value} {key : String} :
    v.get key default = .ok value ↔
      ∃ entries, v = .dict entries ∧ (Value.lookup key entries).getD default = value := by
  cases v <;> simp [Value.get]

theorem create_analyzer_timeout {default_storage analyzer_config_dict : Value} {analyzer : Analyzer}
    (hcreate : create_analyzer env default_storage analyzer_config_dict = .ok analyzer) :
    analyzer.timeout_sec = analyzer_timeout analyzer_config_dict := by
  simp only [create_analyzer, bind_eq_ok_iff, pure_eq_ok_iff] at hcreate
  obtain ⟨⟨name, settings⟩, hentry, args, _, storage_dir, _, timeout_sec, htimeout, _, _, rfl⟩ := hcreate
  obtain ⟨entries, rfl, rfl⟩ := get_eq_ok_iff.mp htimeout
  unfold analyzer_entry at hentry
  split at hentry
  · cases hentry
  · obtain rfl := Except.ok.inj hentry
    rfl
  · cases hentry

theorem create_analyzers_loop_timeouts {default_storage : Value} {analyzers_config : List Value}
    {analyzers : List Analyzer}
    (hcreate : create_analyzers_loop env default_storage analyzers_config = .ok analyzers) :
    analyzers.map Analyzer.timeout_sec = analyzers_config.map analyzer_timeout := by
  induction analyzers_config generalizing default_storage analyzers with
  | nil =>
    obtain rfl := Except.ok.inj hcreate
    rfl
  | cons analyzer_config_dict analyzers_config ih =>
    simp only [create_analyzers_loop, bind_eq_ok_iff, pure_eq_ok_iff] at hcreate
    obtain ⟨analyzer, hanalyzer, rest, hrest, rfl⟩ := hcreate
    rw [List.map_cons, List.map_cons, create_analyzer_timeout hanalyzer, ih hrest]

theorem create_analyzers_timeouts {analyzers_config : Value} {analyzers : List Analyzer}
    (hcreate : create_analyzers env analyzers_config = .ok analyzers) :
    analyzers.map Analyzer.timeout_sec = configured_timeouts analyzers_config := by
  unfold create_analyzers at hcreate
  split at hcreate
  · exact create_analyzers_loop_timeouts hcreate
  · obtain rfl := Except.ok.inj hcreate
    rfl
  · obtain rfl := Except.ok.inj hcreate
    rfl
  all_goals cases hcreate

/-- A setting as it is read. -/
theorem config_value_eq_ok {path : String} {default value : Value} {accept_none : Bool}
    (hvalue : config_value env cfg path default accept_none = .ok value) :
    env.get cfg path = .ok value ∨ ((∀ v, env.get cfg path ≠ .ok v) ∧ value = default ∧
      (default = .None → accept_none = true)) := by
  unfold config_value at hvalue
  split at hvalue
  · next key hget =>
    right
    rw [hget]
    refine ⟨by simp, ?_⟩
    split at hvalue
    · split at hvalue
      · next haccept => exact ⟨(Except.ok.inj hvalue).symm, fun _ => haccept⟩
      · cases hvalue
    · next hdefault =>
      exact ⟨(Except.ok.inj hvalue).symm, fun heq => absurd heq hdefault⟩
  · exact Or.inl hvalue

/-- The settings that the sanity checks look at, as they are read. -/
structure Read (env : Environment) (cfg : Value) (config : Config) : Prop where
  analyzers : config_value env cfg "/analyzers" .None false = .ok config.analyzers_config
  requests : config_value env cfg "/max_assigned_requests" .None false = .ok config.max_assigned_requests
  submission : config_value env cfg "/submission_timeout_limit_blocks" (.int 10) true =
    .ok config.submission_timeout_limit_blocks
  start : config_value env cfg "/start_n_blocks_in_the_past" (.int 0) true =
    .ok config.start_n_blocks_in_the_past
  confirmation : config_value env cfg "/n_blocks_confirmation" (.int 6) true =
    .ok config.n_blocks_confirmation
  default_gas_price : config_value env cfg "/gas_price/default_gas_price_wei" (.int 0) true =
    .ok config.default_gas_price_wei
  max_gas_price : config_value env cfg "/gas_price/max_gas_price_wei" (.int (-1)) true =
    .ok config.max_gas_price_wei

theorem setup_values_ok {config' : Config} (hsetup : setup_values env cfg config = .ok config') :
    config'.analyzers = [] ∧ Read env cfg config' := by
  simp only [setup_values, bind_eq_ok_iff, pure_eq_ok_iff] at hsetup
  obtain ⟨_, _, _, _, _, _, _, _, hsetup⟩ := hsetup
  obtain ⟨_, _, _, _, _, _, _, _, _, _, _, _, _, _, _, _, hsetup⟩ := hsetup
  obtain ⟨_, hrequests, _, _, _, _, _, hanalyzers, _, _, _, _, _, _, hsetup⟩ := hsetup
  obtain ⟨_, hsubmission, _, hstart, _, hconfirmation, _, _, _, hdefault, _, hmax, hsetup⟩ := hsetup
  obtain ⟨_, _, _, _, _, _, _, _, _, _, _, _, _, _, rfl⟩ := hsetup
  exact ⟨rfl, hanalyzers, hrequests, hsubmission, hstart, hconfirmation, hdefault, hmax⟩

/-- When the sanity checks run, the analyzers are not there yet. -/
theorem create_components_ok {config' : Config}
    (hcreate : create_components env true config = .ok config') :
    ∃ account account_private_key audit_contract_address audit_contract analyzers,
      config' =
        { config with account, account_private_key, audit_contract_address, audit_contract, analyzers } ∧
      check_configuration_settings env
        { config with account, account_private_key, audit_contract_address, audit_contract } = .ok () ∧
      create_analyzers env config.analyzers_config = .ok analyzers := by
  simp only [create_components, bind_eq_ok_iff, pure_eq_ok_iff, if_true] at hcreate
  obtain ⟨_, _, ⟨_, account_private_key⟩, _, _, _, hcreate⟩ := hcreate
  obtain ⟨audit_contract_address, _, account, _, audit_contract, _, _, hcheck, hcreate⟩ := hcreate
  obtain ⟨analyzers, hanalyzers, _, _, _, _, rfl⟩ := hcreate
  exact ⟨account, account_private_key, audit_contract_address, audit_contract, analyzers, rfl, hcheck,
    hanalyzers⟩

theorem rules_analyzers_iff (config : Config) (analyzers : List Analyzer) (timeout max_requests : Int)
    (hnone : config.analyzers = []) :
    Rules { config with analyzers } timeout max_requests ↔
      Rules config timeout max_requests ∧ ∀ analyzer ∈ analyzers,
        le analyzer.timeout_sec (.int (timeout * APPROXIMATE_BLOCK_LENGTH_IN_SECONDS)) = true := by
  constructor
  · rintro ⟨hstart, hsubmission, hanalyzers, hrequests, hgas, hstrategy, hconfirmation⟩
    exact ⟨⟨hstart, hsubmission, by simp [hnone], hrequests, hgas, hstrategy, hconfirmation⟩, hanalyzers⟩
  · rintro ⟨⟨hstart, hsubmission, _, hrequests, hgas, hstrategy, hconfirmation⟩, hanalyzers⟩
    exact ⟨hstart, hsubmission, hanalyzers, hrequests, hgas, hstrategy, hconfirmation⟩

/-- No default is the float that is not a number. -/
theorem is_nan_read_iff {path : String} {default value : Value} {accept_none : Bool}
    (hvalue : config_value env cfg path default accept_none = .ok value)
    (hdefault : default.is_nan = false) :
    value.is_nan = false ↔ ∀ v, env.get cfg path = .ok v → v.is_nan = false := by
  rcases config_value_eq_ok hvalue with hget | ⟨hnone, rfl, _⟩
  · simp [hget]
  · simp [hnone, hdefault]

theorem gas_price_read_iff (hread : Read env cfg config) :
    (config.max_gas_price_wei.positive = true → config.default_gas_price_wei.is_nan = false) ↔
      ∀ v max_gas_price_wei, env.get cfg "/gas_price/default_gas_price_wei" = .ok v →
        env.get cfg "/gas_price/max_gas_price_wei" = .ok max_gas_price_wei →
          max_gas_price_wei.positive = true → v.is_nan = false := by
  rcases config_value_eq_ok hread.max_gas_price with hmax | ⟨hnone, hdefault, _⟩
  · rw [is_nan_read_iff hread.default_gas_price rfl]
    constructor
    · intro hnan v max_gas_price_wei hget hmax' hpositive
      obtain rfl := Except.ok.inj (hmax.symm.trans hmax')
      exact hnan hpositive v hget
    · intro hnan hpositive v hget
      exact hnan v config.max_gas_price_wei hget hmax hpositive
  · have hunset : config.max_gas_price_wei.positive = false := by
      rw [hdefault]
      decide +kernel
    simp [hunset, hnone]

/-- What the checks leave to the configuration dictionary: the timeouts of the
    analyzers are not compared at all, and a float that is not a number passes
    every comparison. -/
structure Sensible (env : Environment) (cfg : Value) (timeout : Int) : Prop where
  timeouts : ∀ analyzers_config, env.get cfg "/analyzers" = .ok analyzers_config →
    ∀ timeout_sec ∈ configured_timeouts analyzers_config,
      le timeout_sec (.int (timeout * APPROXIMATE_BLOCK_LENGTH_IN_SECONDS)) = true
  numbers : ∀ path ∈ ["/start_n_blocks_in_the_past", "/submission_timeout_limit_blocks",
    "/max_assigned_requests", "/n_blocks_confirmation"],
      ∀ v, env.get cfg path = .ok v → v.is_nan = false
  gas_price : ∀ v max_gas_price_wei, env.get cfg "/gas_price/default_gas_price_wei" = .ok v →
    env.get cfg "/gas_price/max_gas_price_wei" = .ok max_gas_price_wei →
      max_gas_price_wei.positive = true → v.is_nan = false

/-- A configuration that loads with its contract settings validated satisfies the
    rules of the sanity checks, exactly when the timeouts of its analyzers do and
    no compared setting is the float that is not a number. -/
theorem load_dictionary_rules_iff {name account_passwd : String} {auth_token : Option String}
    (hload : load_dictionary env cfg name account_passwd auth_token true = .ok config) :
    ∃ contract timeout max_requests, config.audit_contract = some contract ∧
      contract.getAuditTimeoutInBlocks = .ok timeout ∧
      contract.getMaxAssignedRequests = .ok max_requests ∧
      (Rules config timeout max_requests ↔ Sensible env cfg timeout) := by
  obtain ⟨values, hsetup, hcreate⟩ := bind_eq_ok_iff.mp hload
  obtain ⟨hnone, hread⟩ := setup_values_ok hsetup
  obtain ⟨account, account_private_key, audit_contract_address, audit_contract, analyzers, rfl, hcheck,
    hanalyzers⟩ := create_components_ok hcreate
  obtain ⟨contract, timeout, max_requests, hcontract, htimeout, hmax, hchecked⟩ :=
    check_configuration_settings_ok hcheck
  refine ⟨contract, timeout, max_requests, hcontract, htimeout, hmax, ?_⟩
  have htimeouts : (∀ analyzer ∈ analyzers,
      le analyzer.timeout_sec (.int (timeout * APPROXIMATE_BLOCK_LENGTH_IN_SECONDS)) = true) ↔
        ∀ timeout_sec ∈ configured_timeouts values.analyzers_config,
          le timeout_sec (.int (timeout * APPROXIMATE_BLOCK_LENGTH_IN_SECONDS)) = true := by
    rw [← create_analyzers_timeouts hanalyzers, List.forall_mem_map]
  have hget : env.get cfg "/analyzers" = .ok values.analyzers_config := by
    rcases config_value_eq_ok hread.analyzers with hget | ⟨_, _, haccept⟩
    · exact hget
    · exact absurd (haccept rfl) Bool.false_ne_true
  have hstart := is_nan_read_iff hread.start rfl
  have hsubmission := is_nan_read_iff hread.submission rfl
  have hrequests := is_nan_read_iff hread.requests rfl
  have hconfirmation := is_nan_read_iff hread.confirmation rfl
  have hgas := gas_price_read_iff hread
  rw [rules_analyzers_iff { values with account, account_private_key, audit_contract_address, audit_contract }
    analyzers timeout max_requests hnone, htimeouts, hchecked.rules_iff]
  constructor
  · rintro ⟨⟨hstart', hsubmission', _, hrequests', hgas', hconfirmation'⟩, hbounded⟩
    refine ⟨?_, ?_, hgas.mp hgas'⟩
    · intro analyzers_config hconfig
      obtain rfl := Except.ok.inj (hget.symm.trans hconfig)
      exact hbounded
    · simp only [List.forall_mem_cons, List.not_mem_nil, false_implies, implies_true, and_true]
      exact ⟨hstart.mp hstart', hsubmission.mp hsubmission', hrequests.mp hrequests',
        hconfirmation.mp hconfirmation'⟩
  · rintro ⟨hbounded, hnumbers, hgas'⟩
    simp only [List.forall_mem_cons, List.not_mem_nil, false_implies, implies_true, and_true] at hnumbers
    obtain ⟨hstart', hsubmission', hrequests', hconfirmation'⟩ := hnumbers
    exact ⟨⟨hstart.mpr hstart', hsubmission.mpr hsubmission', by simp [hnone], hrequests.mpr hrequests',
      hgas.mpr hgas', hconfirmation.mpr hconfirmation'⟩, hbounded values.analyzers_config hget⟩

end

/-- An entry of nested dictionaries. -/
def entry_at (path : String) : Value → List String → Except PyException Value
  | v, [] => .ok v
  | .dict entries, key :: keys =>
    match Value.lookup key entries with
    | some v => entry_at path v keys
    | none => .error (.KeyError path)
  | _, _ :: _ => .error (.KeyError path)

def sample_environment : Environment :=
  { get := fun cfg path => entry_at path cfg (((path.toList.splitOn '/').drop 1).map String.ofList)
    order := fun _ _ _ => .error (.TypeError "")
    str := fun _ => ""
    home := "/root"
    gettempdir := "/tmp"
    load_json := fun _ =>
      .ok (.dict
        [(.str "contractName", .str "QuantstampAudit"), (.str "contractAddress", .str "0xc0"),
          (.str "version", .str "2.0.0")])
    provider := fun _ _ => .ok ()
    web3_client := fun _ _ => .ok (.str "0xa0", .None)
    is_address := fun _ => true
    is_checksum_address := fun _ => true
    to_checksum_address := fun address => address
    contract := fun _ _ => .ok { getAuditTimeoutInBlocks := .ok 25, getMaxAssignedRequests := .ok 5 }
    wrapper := fun _ _ _ _ => .ok ()
    EventPoolManager := fun _ => .ok ()
    S3Provider := fun _ _ => .ok () }

def sample_dictionary (timeout_sec : Int) : Value :=
  .dict
    [(.str "eth_node", .dict [(.str "provider", .str "EthereumTesterProvider")]),
      (.str "audit_contract_abi",
        .dict [(.str "uri", .str "QuantstampAudit.abi.json"), (.str "metadata", .str "metadata.json")]),
      (.str "min_price_in_qsp", .int 5), (.str "tx_timeout_seconds", .int 300),
      (.str "gas_price",
        .dict [(.str "strategy", .str "dynamic"), (.str "max_gas_price_wei", .int 20000000000)]),
      (.str "max_assigned_requests", .int 1), (.str "evt_polling_sec", .int 5),
      (.str "block_mined_polling_interval_sec", .int 5),
      (.str "analyzers",
        .list [.dict [(.str "mythril", .dict [(.str "timeout_sec", .int timeout_sec)])]]),
      (.str "start_n_blocks_in_the_past", .int 5), (.str "n_blocks_confirmation", .int 0)]

/-- The sample loads with every timeout of its analyzer. -/
theorem load_sample_dictionary (timeout_sec : Int) :
    ∃ config contract,
      load_dictionary sample_environment (sample_dictionary timeout_sec) "dev" "" (some "") true = .ok config ∧
      config.analyzers.map Analyzer.timeout_sec = [.int timeout_sec] ∧
      config.audit_contract = some contract ∧ contract.getAuditTimeoutInBlocks = .ok 25 ∧
      contract.getMaxAssignedRequests = .ok 5 := by
  have hloaded : (load_dictionary sample_environment (sample_dictionary timeout_sec) "dev" "" (some "")
      true).toOption.map (fun config => (config.analyzers.map Analyzer.timeout_sec, config.audit_contract)) =
        some ([.int timeout_sec],
          some { getAuditTimeoutInBlocks := .ok 25, getMaxAssignedRequests := .ok 5 }) :=
    rfl
  cases hload : load_dictionary sample_environment (sample_dictionary timeout_sec) "dev" "" (some "") true with
  | error e => simp [hload, Except.toOption] at hloaded
  | ok config =>
    simp only [hload, Except.toOption, Option.map_some, Option.some.injEq, Prod.mk.injEq] at hloaded
    obtain ⟨hanalyzers, hcontract⟩ := hloaded
    exact ⟨config, _, rfl, hanalyzers, hcontract, rfl, rfl⟩

theorem load_dictionary_rules_sample :
    ∃ config, load_dictionary sample_environment (sample_dictionary 300) "dev" "" (some "") true =
        .ok config ∧
      ∃ contract timeout max_requests, config.audit_contract = some contract ∧
        contract.getAuditTimeoutInBlocks = .ok timeout ∧
        contract.getMaxAssignedRequests = .ok max_requests ∧
        (Rules config timeout max_requests ↔
          Sensible sample_environment (sample_dictionary 300) timeout) := by
  obtain ⟨config, _, hload, _⟩ := load_sample_dictionary 300
  exact ⟨config, hload, load_dictionary_rules_iff hload⟩

/-- An analyzer may run for longer than the contract gives the whole audit. -/
theorem load_dictionary_rules_long_timeout :
    ∃ config contract, load_dictionary sample_environment (sample_dictionary 123456) "dev" "" (some "")
        true = .ok config ∧ config.audit_contract = some contract ∧
      contract.getAuditTimeoutInBlocks = .ok 25 ∧ contract.getMaxAssignedRequests = .ok 5 ∧
      ¬ Rules config 25 5 := by
  obtain ⟨config, contract, hload, hanalyzers, hcontract, htimeout, hmax⟩ := load_sample_dictionary 123456
  refine ⟨config, contract, hload, hcontract, htimeout, hmax, ?_⟩
  intro hrules
  obtain ⟨analyzer, hanalyzer, hlong⟩ := List.mem_map.mp (hanalyzers ▸ List.mem_cons_self)
  have hle := hrules.analyzers analyzer hanalyzer
  rw [hlong] at hle
  exact absurd hle (by decide +kernel)

end qsp.config
