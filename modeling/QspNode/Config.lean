namespace qsp

/-- The settings that the modelled code reads. -/
structure Config where
  n_blocks_confirmation : Int
  submission_timeout_limit_blocks : Int
  block_discard_on_restart : Int
  max_assigned_requests : Int
  enable_police_audit_polling : Bool
  audit_contract_address : String
  deriving DecidableEq, Repr

end qsp
