import QspNode.Config.ConfigUtils

namespace qsp.config

/-- Extracts a configuration entry from a given configuration dictionary. -/
def config_value (env : Environment) (cfg : Value) (path : String) (default : Value) (accept_none : Bool) :
    Except PyException Value :=
  match env.get cfg path with
  | .error (.KeyError key) =>
    match default with
    | .None => if accept_none then .ok .None else .error (.KeyError key)
    | default => .ok default
  | value => value

def fetch_contract_metadata (env : Environment) (config : Config) (cfg : Value) : Except PyException Value := do
  let metadata_uri ← config_value env cfg "/audit_contract_abi/metadata" .None true
  match ← resolve_version config metadata_uri with
  | .None => return .None
  | metadata_uri => env.load_json metadata_uri

/-- Puts the authentication token into the endpoint of the provider. -/
def inject_token (auth_token : Option String) (eth_provider_args : Value) : Except PyException Value := do
  let endpoint ← eth_provider_args.get "endpoint_uri" .None
  match endpoint, auth_token with
  | .None, _ => return eth_provider_args
  | _, none =>
    .error (.ValueError "Authentication token is missing. Cannot set provider endpoint")
  | endpoint, some auth_token =>
    let endpoint ← endpoint.replace "$\x7btoken\x7d" auth_token
    return eth_provider_args.set "endpoint_uri" endpoint

def setup_values (env : Environment) (cfg : Value) (config : Config) : Except PyException Config := do
  let value (path : String) (default : Value) := config_value env cfg path default true
  let required (path : String) := config_value env cfg path .None false
  let audit_contract_metadata ← fetch_contract_metadata env config cfg
  let audit_contract_name ← config_value env audit_contract_metadata "/contractName" .None true
  let audit_contract_address ← config_value env audit_contract_metadata "/contractAddress" .None true
  let contract_version ← config_value env audit_contract_metadata "/version" .None true
  let audit_contract_abi_uri ← resolve_version config (← value "/audit_contract_abi/uri" .None)
  let eth_provider_name ← required "/eth_node/provider"
  let eth_provider_args ← inject_token config.auth_token (← value "/eth_node/args" (.dict []))
  let block_discard_on_restart ← value "/block_discard_on_restart" (.int 0)
  let min_price_in_qsp ← required "/min_price_in_qsp"
  let tx_timeout_seconds ← required "/tx_timeout_seconds"
  let max_assigned_requests ← required "/max_assigned_requests"
  let evt_polling_sec ← required "/evt_polling_sec"
  let block_mined_polling_interval_sec ← required "/block_mined_polling_interval_sec"
  let analyzers_config ← required "/analyzers"
  let account_keystore_file ← value "/keystore_file" .None
  let gas_limit ← value "/gas_limit" .None
  let evt_db_path ← value "/evt_db_path" (.str (env.home ++ "/" ++ ".audit_node.db"))
  let submission_timeout_limit_blocks ← value "/submission_timeout_limit_blocks" (.int 10)
  let start_n_blocks_in_the_past ← value "/start_n_blocks_in_the_past" (.int 0)
  let n_blocks_confirmation ← value "/n_blocks_confirmation" (.int 6)
  let gas_price_strategy ← required "/gas_price/strategy"
  let default_gas_price_wei ← value "/gas_price/default_gas_price_wei" (.int 0)
  let max_gas_price_wei ← value "/gas_price/max_gas_price_wei" (.int (-1))
  let upload_provider_name ← value "/upload_provider/name" (.str "")
  let upload_provider_is_enabled ← value "/upload_provider/is_enabled" (.bool false)
  let upload_provider_args ← value "/upload_provider/args" (.dict [])
  let metric_collection_is_enabled ← value "/metric_collection/is_enabled" (.bool false)
  let metric_collection_destination_endpoint ← value "/metric_collection/destination_endpoint" .None
  let metric_collection_interval_seconds ← value "/metric_collection/interval_seconds" (.int 30)
  let enable_police_audit_polling ← value "/police/is_auditing_enabled" (.bool false)
  return { config with
    audit_contract_name
    audit_contract_address
    contract_version
    audit_contract := none
    audit_contract_abi_uri
    eth_provider_name
    eth_provider_args
    block_discard_on_restart
    min_price_in_qsp
    tx_timeout_seconds
    max_assigned_requests
    evt_polling_sec
    block_mined_polling_interval_sec
    analyzers := []
    analyzers_config
    account_keystore_file
    account_private_key := .None
    gas_limit
    evt_db_path
    submission_timeout_limit_blocks
    start_n_blocks_in_the_past
    n_blocks_confirmation
    gas_price_strategy
    default_gas_price_wei
    gas_price_wei := default_gas_price_wei
    max_gas_price_wei
    upload_provider_name
    upload_provider_is_enabled
    upload_provider_args
    metric_collection_is_enabled
    metric_collection_destination_endpoint
    metric_collection_interval_seconds
    enable_police_audit_polling }

def mk_checksum_address (env : Environment) (address : Value) : Except PyException Value :=
  match address with
  | .None => .ok .None
  | address =>
    if !env.is_address address then
      .error (.ValueError ("Argument " ++ env.str address ++ " is not a valid address"))
    else if !env.is_checksum_address address then .ok (env.to_checksum_address address)
    else .ok address

def create_audit_contract (env : Environment) (config : Config) : Except PyException (Option Contract) :=
  if has_audit_contract_abi config then
    (env.contract config.audit_contract_abi_uri config.audit_contract_address).map some
  else .ok config.audit_contract

/-- The analyzers come after the sanity checks. -/
def create_components (env : Environment) (validate_contract_settings : Bool) (config : Config) :
    Except PyException Config := do
  create_eth_provider env config.eth_provider_name config.eth_provider_args
  let (account, account_private_key) ← env.web3_client config.account_passwd config.account_keystore_file
  let config := { config with account, account_private_key }
  if validate_contract_settings then check_audit_contract_settings config
  let audit_contract_address ← mk_checksum_address env config.audit_contract_address
  let account ← mk_checksum_address env config.account
  let config := { config with audit_contract_address, account }
  let audit_contract ← create_audit_contract env config
  let config := { config with audit_contract }
  if validate_contract_settings then check_configuration_settings env config
  let analyzers ← create_analyzers env config.analyzers_config
  let config := { config with analyzers }
  env.EventPoolManager config.evt_db_path
  create_upload_provider env config
  return config

def load_dictionary (environment : Environment) (config_dictionary : Value) (env : String)
    (account_passwd : String) (auth_token : Option String) (validate_contract_settings : Bool) :
    Except PyException Config := do
  let config : Config := { env, account_passwd, auth_token }
  let config ← setup_values environment config_dictionary config
  create_components environment validate_contract_settings config

end qsp.config
