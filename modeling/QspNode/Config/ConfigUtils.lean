import QspNode.Config.Value

namespace qsp.config

/-- What the read-only calls of the audit contract answer. -/
structure Contract where
  getAuditTimeoutInBlocks : Except PyException Int
  getMaxAssignedRequests : Except PyException Int

/-- The world outside the node while a configuration is loaded: the packages it
    uses, its files and the Ethereum node. -/
structure Environment where
  get : Value → String → Except PyException Value
  order : String → Value → Value → Except PyException Bool
  str : Value → String
  home : String
  gettempdir : String
  load_json : Value → Except PyException Value
  provider : String → Value → Except PyException Unit
  web3_client : (account_passwd : Option String) → (keystore_file : Value) → Except PyException (Value × Value)
  is_address : Value → Bool
  is_checksum_address : Value → Bool
  to_checksum_address : Value → Value
  contract : (contract_abi_uri contract_address : Value) → Except PyException Contract
  wrapper : (analyzer_name args storage_dir timeout_sec : Value) → Except PyException Unit
  EventPoolManager : Value → Except PyException Unit
  S3Provider : (account args : Value) → Except PyException Unit

/-- An analyzer and what its wrapper was made of. -/
structure Analyzer where
  analyzer_name : Value
  args : Value
  storage_dir : Value
  timeout_sec : Value

/-- The fields of a configuration, with what the constructor puts there. -/
structure Config where
  node_version : String := "2.0.4"
  analyzers : List Analyzer := []
  analyzers_config : Value := .list []
  audit_contract_name : Value := .None
  audit_contract_address : Value := .None
  audit_contract_abi_uri : Value := .None
  audit_contract : Option Contract := none
  account : Value := .None
  account_keystore_file : Value := .None
  account_private_key : Value := .None
  account_passwd : Option String := none
  auth_token : Option String := none
  gas_limit : Value := .int 0
  evt_db_path : Value := .None
  evt_polling_sec : Value := .int 0
  block_mined_polling_interval_sec : Value := .None
  env : Option String := none
  eth_provider_name : Value := .None
  eth_provider_args : Value := .None
  gas_price_strategy : Value := .str "dynamic"
  default_gas_price_wei : Value := .int 0
  gas_price_wei : Value := .int 0
  max_gas_price_wei : Value := .int (-1)
  min_price_in_qsp : Value := .int 0
  tx_timeout_seconds : Value := .int 300
  max_assigned_requests : Value := .None
  metric_collection_is_enabled : Value := .bool true
  metric_collection_interval_seconds : Value := .int 30
  metric_collection_destination_endpoint : Value := .None
  upload_provider_is_enabled : Value := .bool false
  upload_provider_name : Value := .None
  upload_provider_args : Value := .None
  start_n_blocks_in_the_past : Value := .int 0
  n_blocks_confirmation : Value := .int 6
  submission_timeout_limit_blocks : Value := .int 10
  block_discard_on_restart : Value := .int 0
  contract_version : Value := .None
  enable_police_audit_polling : Value := .bool false

def has_audit_contract_abi (config : Config) : Bool := config.audit_contract_abi_uri.truthy

/-- Raises an exception if the given condition holds. -/
def raise_err (cond : Bool) (msg : String) : Except PyException Unit :=
  if cond then .error (.ConfigurationException ("Cannot initialize QSP node. " ++ msg)) else .ok ()

def APPROXIMATE_BLOCK_LENGTH_IN_SECONDS : Int := 12

def AUDIT_TIMEOUT_IN_BLOCKS : Int := 50

def resolve_version (config : Config) (version : Value) : Except PyException Value :=
  match version with
  | .None => .ok .None
  | version =>
    version.replace "\x7bmajor-version\x7d"
      (String.ofList (config.node_version.toList.takeWhile (fun c => c ≠ '.')))

def create_eth_provider (env : Environment) (provider args : Value) : Except PyException Unit :=
  if provider.is_str "HTTPProvider" then env.provider "HTTPProvider" args
  else if provider.is_str "IPCProvider" then env.provider "IPCProvider" args
  else if provider.is_str "EthereumTesterProvider" then
    env.provider "EthereumTesterProvider" (.dict [])
  else raise_err true ("Unknown/Unsupported provider: " ++ env.str provider)

def create_upload_provider (env : Environment) (config : Config) : Except PyException Unit :=
  if !config.upload_provider_is_enabled.truthy then .ok ()
  else if config.upload_provider_name.is_str "S3Provider" then
    match config.account with
    | .None =>
      .error (.ConfigurationException "account is None, the upload will not be possible")
    | account => env.S3Provider account config.upload_provider_args
  else
    .error (.ConfigurationException
      ("Unknown/Unsupported provider: " ++ env.str config.upload_provider_name))

/-- The loop over the timeouts of the analyzers. -/
def check_analyzers (env : Environment) (contract_audit_timeout_in_blocks : Int) :
    List Analyzer → Except PyException Unit
  | [] => .ok ()
  | analyzer :: analyzers => do
    let exceeds ← gt env.order analyzer.timeout_sec
      (.int (contract_audit_timeout_in_blocks * APPROXIMATE_BLOCK_LENGTH_IN_SECONDS))
    raise_err exceeds ""
    check_analyzers env contract_audit_timeout_in_blocks analyzers

def check_gas_price (env : Environment) (config : Config) : Except PyException Unit := do
  let is_set ← gt env.order config.max_gas_price_wei (.int 0)
  if is_set then
    let exceeds ← gt env.order config.default_gas_price_wei config.max_gas_price_wei
    raise_err exceeds ""
  else return ()

/-- The attribute `functions` of the audit contract. -/
def functions : Option Contract → Except PyException Contract
  | none => .error (.AttributeError "'NoneType' object has no attribute 'functions'")
  | some contract => .ok contract

/-- The sanity checks on a configuration. -/
def check_configuration_settings (env : Environment) (config : Config) : Except PyException Unit := do
  let contract ← functions config.audit_contract
  let contract_audit_timeout_in_blocks ← contract.getAuditTimeoutInBlocks
  let contract_max_assigned_requests ← contract.getMaxAssignedRequests
  let exceeds ← gt env.order config.start_n_blocks_in_the_past config.submission_timeout_limit_blocks
  raise_err exceeds
    ("start_n_blocks_in_the_past " ++ env.str config.start_n_blocks_in_the_past ++
      " should never exceed the submission timeout " ++ env.str config.submission_timeout_limit_blocks)
  let exceeds ← gt env.order config.submission_timeout_limit_blocks (.int contract_audit_timeout_in_blocks)
  raise_err exceeds
    ("the submission timeout " ++ env.str config.submission_timeout_limit_blocks ++
      " limit should not exceed the audit timeout limit " ++
      env.str (.int contract_audit_timeout_in_blocks) ++ " set in the contract")
  check_analyzers env contract_audit_timeout_in_blocks config.analyzers
  let exceeds ← gt env.order config.max_assigned_requests (.int contract_max_assigned_requests)
  raise_err exceeds ""
  check_gas_price env config
  raise_err (!(config.gas_price_strategy.is_str "dynamic" || config.gas_price_strategy.is_str "static")) ""
  let exceeds ← gt env.order config.n_blocks_confirmation (.int AUDIT_TIMEOUT_IN_BLOCKS)
  raise_err exceeds ""
  let negative ← lt env.order config.n_blocks_confirmation (.int 0)
  raise_err negative ""

def check_audit_contract_settings (config : Config) : Except PyException Unit :=
  if has_audit_contract_abi config then
    raise_err (!(config.audit_contract_abi_uri.truthy && config.audit_contract_address.truthy))
      "Missing audit contract ABI URI and address"
  else raise_err true "Missing the audit contract ABI"

def default_timeout_sec : Value := .int 60

/-- The name and the settings of an analyzer, the first entry of its
    dictionary. -/
def analyzer_entry (analyzer_config_dict : Value) : Except PyException (Value × Value) :=
  match analyzer_config_dict with
  | .dict [] => .error (.IndexError "list index out of range")
  | .dict (entry :: _) => .ok entry
  | v => .error (.AttributeError ("'" ++ v.type_name ++ "' object has no attribute 'keys'"))

def create_analyzer (env : Environment) (default_storage analyzer_config_dict : Value) :
    Except PyException Analyzer := do
  let (analyzer_name, analyzer_config) ← analyzer_entry analyzer_config_dict
  let args ← analyzer_config.get "args" (.str "")
  let storage_dir ← analyzer_config.get "storage_dir" default_storage
  let timeout_sec ← analyzer_config.get "timeout_sec" default_timeout_sec
  env.wrapper analyzer_name args storage_dir timeout_sec
  return { analyzer_name, args, storage_dir, timeout_sec }

def create_analyzers_loop (env : Environment) :
    (default_storage : Value) → List Value → Except PyException (List Analyzer)
  | _, [] => .ok []
  | default_storage, analyzer_config_dict :: analyzers_config => do
    let analyzer ← create_analyzer env default_storage analyzer_config_dict
    let analyzers ← create_analyzers_loop env (.str (env.home ++ "/." ++ env.str analyzer.analyzer_name))
      analyzers_config
    return analyzer :: analyzers

def create_analyzers (env : Environment) (analyzers_config : Value) : Except PyException (List Analyzer) :=
  match analyzers_config with
  | .list analyzers_config => create_analyzers_loop env (.str env.gettempdir) analyzers_config
  | .dict [] | .str "" => .ok []
  | .dict (entry :: _) =>
    .error (.AttributeError ("'" ++ entry.1.type_name ++ "' object has no attribute 'keys'"))
  | .str _ => .error (.AttributeError "'str' object has no attribute 'keys'")
  | v => .error (.TypeError ("'" ++ v.type_name ++ "' object is not iterable"))

end qsp.config
