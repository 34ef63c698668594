import OcppBridge.Activation.Rollback
import OcppBridge.Authorization
import OcppBridge.Call.Order
import OcppBridge.Call.Replies
import OcppBridge.Charging.Sequencing
import OcppBridge.EventStream
import OcppBridge.Inbound.Outcome
import OcppBridge.Integration.Pages
import OcppBridge.Mqtt.Results
import OcppBridge.Mqtt.Topics
import OcppBridge.Operational.DrainHistory
import OcppBridge.Operational.FirmwareReports
import OcppBridge.Operational.JobHistory
import OcppBridge.Operational.ProfileOwnership
import OcppBridge.Operational.ReservationHistory
import OcppBridge.Operational.TriggerHistory
import OcppBridge.Outbox.Custody
import OcppBridge.Outbox.Flight
import OcppBridge.Report.Multipart
import OcppBridge.Resource.Conservation
import OcppBridge.Snapshots.Migration
import OcppBridge.Spool.Claims
import OcppBridge.Spool.GapSlots
import OcppBridge.Supervision.CrashWindow
import OcppBridge.Supervision.History
import OcppBridge.Supervision.Probation
