import QspNode.Audit.Bids
import QspNode.Audit.Changes
import QspNode.Audit.Confirmed
import QspNode.Audit.Database
import QspNode.Audit.Failures
import QspNode.Audit.Hashes
import QspNode.Audit.PoliceReports
import QspNode.Audit.StaleRequests
import QspNode.Audit.Verdicts
import QspNode.ComputeGasPriceThread.GasPrice
import QspNode.Config.Storage
import QspNode.Evt.BlockNumbers
import QspNode.Evt.Operations
import QspNode.PerformAuditThread.Wrapper
import QspNode.QspAuditNode.Supervision
import QspNode.ReportProcessing.Normal
import QspNode.Utils.Db.Progress
import QspNode.Utils.Eth.Confirmation
import QspNode.Utils.Eth.SingletonLock
