import OcppKit.Basic

/-!
# What an action name means

The engine works on action *names*, so that one implementation serves every
version. What it needs to know about a name – whether it is a `CALL` or a `SEND`,
which peer may originate it, whether it is transaction-related, and which
follow-up calls it licenses – is looked up here, one table per version.

A row stands for one variant of the version's `Action` enumeration: `fromWire`
finds it by its wire name, and `kind` and `origin` read its columns. The
functional block of an action is not used by the engine and has no column.
-/

namespace OcppKit

namespace Actions

/-- One action of a version: its wire name, its kind and its origin. -/
structure Action where
  /-- The action name as it appears on the wire. -/
  asStr : String
  /-- Whether the action is a `CALL` or a `SEND`. -/
  kind : MessageKind
  /-- Which peer originates the action. -/
  origin : Origin
deriving DecidableEq, Repr

/-! ### The action sets -/

/-- The actions of OCPP 1.6. -/
def all1_6 : List Action := [
  ⟨"Authorize", .call, .chargingStation⟩,
  ⟨"BootNotification", .call, .chargingStation⟩,
  ⟨"CancelReservation", .call, .csms⟩,
  ⟨"CertificateSigned", .call, .csms⟩,
  ⟨"ChangeAvailability", .call, .csms⟩,
  ⟨"ChangeConfiguration", .call, .csms⟩,
  ⟨"ClearCache", .call, .csms⟩,
  ⟨"ClearChargingProfile", .call, .csms⟩,
  ⟨"DataTransfer", .call, .both⟩,
  ⟨"DeleteCertificate", .call, .csms⟩,
  ⟨"DiagnosticsStatusNotification", .call, .chargingStation⟩,
  ⟨"ExtendedTriggerMessage", .call, .csms⟩,
  ⟨"FirmwareStatusNotification", .call, .chargingStation⟩,
  ⟨"GetCompositeSchedule", .call, .csms⟩,
  ⟨"GetConfiguration", .call, .csms⟩,
  ⟨"GetDiagnostics", .call, .csms⟩,
  ⟨"GetInstalledCertificateIds", .call, .csms⟩,
  ⟨"GetLocalListVersion", .call, .csms⟩,
  ⟨"GetLog", .call, .csms⟩,
  ⟨"Heartbeat", .call, .chargingStation⟩,
  ⟨"InstallCertificate", .call, .csms⟩,
  ⟨"LogStatusNotification", .call, .chargingStation⟩,
  ⟨"MeterValues", .call, .chargingStation⟩,
  ⟨"RemoteStartTransaction", .call, .csms⟩,
  ⟨"RemoteStopTransaction", .call, .csms⟩,
  ⟨"ReserveNow", .call, .csms⟩,
  ⟨"Reset", .call, .csms⟩,
  ⟨"SecurityEventNotification", .call, .chargingStation⟩,
  ⟨"SendLocalList", .call, .csms⟩,
  ⟨"SetChargingProfile", .call, .csms⟩,
  ⟨"SignCertificate", .call, .chargingStation⟩,
  ⟨"SignedFirmwareStatusNotification", .call, .chargingStation⟩,
  ⟨"SignedUpdateFirmware", .call, .csms⟩,
  ⟨"StartTransaction", .call, .chargingStation⟩,
  ⟨"StatusNotification", .call, .chargingStation⟩,
  ⟨"StopTransaction", .call, .chargingStation⟩,
  ⟨"TriggerMessage", .call, .csms⟩,
  ⟨"UnlockConnector", .call, .csms⟩,
  ⟨"UpdateFirmware", .call, .csms⟩]

/-- The actions of OCPP 2.0.1. -/
def all2_0_1 : List Action := [
  ⟨"Authorize", .call, .chargingStation⟩,
  ⟨"BootNotification", .call, .chargingStation⟩,
  ⟨"CancelReservation", .call, .csms⟩,
  ⟨"CertificateSigned", .call, .csms⟩,
  ⟨"ChangeAvailability", .call, .csms⟩,
  ⟨"ClearCache", .call, .csms⟩,
  ⟨"ClearChargingProfile", .call, .csms⟩,
  ⟨"ClearDisplayMessage", .call, .csms⟩,
  ⟨"ClearVariableMonitoring", .call, .csms⟩,
  ⟨"ClearedChargingLimit", .call, .chargingStation⟩,
  ⟨"CostUpdated", .call, .csms⟩,
  ⟨"CustomerInformation", .call, .csms⟩,
  ⟨"DataTransfer", .call, .both⟩,
  ⟨"DeleteCertificate", .call, .csms⟩,
  ⟨"FirmwareStatusNotification", .call, .chargingStation⟩,
  ⟨"Get15118EVCertificate", .call, .chargingStation⟩,
  ⟨"GetBaseReport", .call, .csms⟩,
  ⟨"GetCertificateStatus", .call, .chargingStation⟩,
  ⟨"GetChargingProfiles", .call, .csms⟩,
  ⟨"GetCompositeSchedule", .call, .csms⟩,
  ⟨"GetDisplayMessages", .call, .csms⟩,
  ⟨"GetInstalledCertificateIds", .call, .csms⟩,
  ⟨"GetLocalListVersion", .call, .csms⟩,
  ⟨"GetLog", .call, .csms⟩,
  ⟨"GetMonitoringReport", .call, .csms⟩,
  ⟨"GetReport", .call, .csms⟩,
  ⟨"GetTransactionStatus", .call, .csms⟩,
  ⟨"GetVariables", .call, .csms⟩,
  ⟨"Heartbeat", .call, .chargingStation⟩,
  ⟨"InstallCertificate", .call, .csms⟩,
  ⟨"LogStatusNotification", .call, .chargingStation⟩,
  ⟨"MeterValues", .call, .chargingStation⟩,
  ⟨"NotifyChargingLimit", .call, .chargingStation⟩,
  ⟨"NotifyCustomerInformation", .call, .chargingStation⟩,
  ⟨"NotifyDisplayMessages", .call, .chargingStation⟩,
  ⟨"NotifyEVChargingNeeds", .call, .chargingStation⟩,
  ⟨"NotifyEVChargingSchedule", .call, .chargingStation⟩,
  ⟨"NotifyEvent", .call, .chargingStation⟩,
  ⟨"NotifyMonitoringReport", .call, .chargingStation⟩,
  ⟨"NotifyReport", .call, .chargingStation⟩,
  ⟨"PublishFirmware", .call, .csms⟩,
  ⟨"PublishFirmwareStatusNotification", .call, .chargingStation⟩,
  ⟨"ReportChargingProfiles", .call, .chargingStation⟩,
  ⟨"RequestStartTransaction", .call, .csms⟩,
  ⟨"RequestStopTransaction", .call, .csms⟩,
  ⟨"ReservationStatusUpdate", .call, .chargingStation⟩,
  ⟨"ReserveNow", .call, .csms⟩,
  ⟨"Reset", .call, .csms⟩,
  ⟨"SecurityEventNotification", .call, .chargingStation⟩,
  ⟨"SendLocalList", .call, .csms⟩,
  ⟨"SetChargingProfile", .call, .csms⟩,
  ⟨"SetDisplayMessage", .call, .csms⟩,
  ⟨"SetMonitoringBase", .call, .csms⟩,
  ⟨"SetMonitoringLevel", .call, .csms⟩,
  ⟨"SetNetworkProfile", .call, .csms⟩,
  ⟨"SetVariableMonitoring", .call, .csms⟩,
  ⟨"SetVariables", .call, .csms⟩,
  ⟨"SignCertificate", .call, .chargingStation⟩,
  ⟨"StatusNotification", .call, .chargingStation⟩,
  ⟨"TransactionEvent", .call, .chargingStation⟩,
  ⟨"TriggerMessage", .call, .csms⟩,
  ⟨"UnlockConnector", .call, .csms⟩,
  ⟨"UnpublishFirmware", .call, .csms⟩,
  ⟨"UpdateFirmware", .call, .csms⟩]

/-- The actions of OCPP 2.1. -/
def all2_1 : List Action := [
  ⟨"AFRRSignal", .call, .csms⟩,
  ⟨"AdjustPeriodicEventStream", .call, .csms⟩,
  ⟨"Authorize", .call, .chargingStation⟩,
  ⟨"BatterySwap", .call, .chargingStation⟩,
  ⟨"BootNotification", .call, .chargingStation⟩,
  ⟨"CancelReservation", .call, .csms⟩,
  ⟨"CertificateSigned", .call, .csms⟩,
  ⟨"ChangeAvailability", .call, .csms⟩,
  ⟨"ChangeTransactionTariff", .call, .csms⟩,
  ⟨"ClearCache", .call, .csms⟩,
  ⟨"ClearChargingProfile", .call, .csms⟩,
  ⟨"ClearDERControl", .call, .csms⟩,
  ⟨"ClearDisplayMessage", .call, .csms⟩,
  ⟨"ClearTariffs", .call, .csms⟩,
  ⟨"ClearVariableMonitoring", .call, .csms⟩,
  ⟨"ClearedChargingLimit", .call, .chargingStation⟩,
  ⟨"ClosePeriodicEventStream", .call, .chargingStation⟩,
  ⟨"CostUpdated", .call, .csms⟩,
  ⟨"CustomerInformation", .call, .csms⟩,
  ⟨"DataTransfer", .call, .both⟩,
  ⟨"DeleteCertificate", .call, .csms⟩,
  ⟨"FirmwareStatusNotification", .call, .chargingStation⟩,
  ⟨"Get15118EVCertificate", .call, .chargingStation⟩,
  ⟨"GetBaseReport", .call, .csms⟩,
  ⟨"GetCertificateChainStatus", .call, .chargingStation⟩,
  ⟨"GetCertificateStatus", .call, .chargingStation⟩,
  ⟨"GetChargingProfiles", .call, .csms⟩,
  ⟨"GetCompositeSchedule", .call, .csms⟩,
  ⟨"GetDERControl", .call, .csms⟩,
  ⟨"GetDisplayMessages", .call, .csms⟩,
  ⟨"GetInstalledCertificateIds", .call, .csms⟩,
  ⟨"GetLocalListVersion", .call, .csms⟩,
  ⟨"GetLog", .call, .csms⟩,
  ⟨"GetMonitoringReport", .call, .csms⟩,
  ⟨"GetPeriodicEventStream", .call, .csms⟩,
  ⟨"GetReport", .call, .csms⟩,
  ⟨"GetTariffs", .call, .csms⟩,
  ⟨"GetTransactionStatus", .call, .csms⟩,
  ⟨"GetVariables", .call, .csms⟩,
  ⟨"Heartbeat", .call, .chargingStation⟩,
  ⟨"InstallCertificate", .call, .csms⟩,
  ⟨"LogStatusNotification", .call, .chargingStation⟩,
  ⟨"MeterValues", .call, .chargingStation⟩,
  ⟨"NotifyAllowedEnergyTransfer", .call, .csms⟩,
  ⟨"NotifyChargingLimit", .call, .chargingStation⟩,
  ⟨"NotifyCustomerInformation", .call, .chargingStation⟩,
  ⟨"NotifyDERAlarm", .call, .chargingStation⟩,
  ⟨"NotifyDERStartStop", .call, .chargingStation⟩,
  ⟨"NotifyDisplayMessages", .call, .chargingStation⟩,
  ⟨"NotifyEVChargingNeeds", .call, .chargingStation⟩,
  ⟨"NotifyEVChargingSchedule", .call, .chargingStation⟩,
  ⟨"NotifyEvent", .call, .chargingStation⟩,
  ⟨"NotifyMonitoringReport", .call, .chargingStation⟩,
  ⟨"NotifyPeriodicEventStream", .send, .chargingStation⟩,
  ⟨"NotifyPriorityCharging", .call, .chargingStation⟩,
  ⟨"NotifyReport", .call, .chargingStation⟩,
  ⟨"NotifySettlement", .call, .chargingStation⟩,
  ⟨"NotifyWebPaymentStarted", .call, .chargingStation⟩,
  ⟨"OpenPeriodicEventStream", .call, .chargingStation⟩,
  ⟨"PublishFirmware", .call, .csms⟩,
  ⟨"PublishFirmwareStatusNotification", .call, .chargingStation⟩,
  ⟨"PullDynamicScheduleUpdate", .call, .chargingStation⟩,
  ⟨"ReportChargingProfiles", .call, .chargingStation⟩,
  ⟨"ReportDERControl", .call, .chargingStation⟩,
  ⟨"RequestBatterySwap", .call, .csms⟩,
  ⟨"RequestStartTransaction", .call, .csms⟩,
  ⟨"RequestStopTransaction", .call, .csms⟩,
  ⟨"ReservationStatusUpdate", .call, .chargingStation⟩,
  ⟨"ReserveNow", .call, .csms⟩,
  ⟨"Reset", .call, .csms⟩,
  ⟨"SecurityEventNotification", .call, .chargingStation⟩,
  ⟨"SendLocalList", .call, .csms⟩,
  ⟨"SetChargingProfile", .call, .csms⟩,
  ⟨"SetDERControl", .call, .csms⟩,
  ⟨"SetDefaultTariff", .call, .csms⟩,
  ⟨"SetDisplayMessage", .call, .csms⟩,
  ⟨"SetMonitoringBase", .call, .csms⟩,
  ⟨"SetMonitoringLevel", .call, .csms⟩,
  ⟨"SetNetworkProfile", .call, .csms⟩,
  ⟨"SetVariableMonitoring", .call, .csms⟩,
  ⟨"SetVariables", .call, .csms⟩,
  ⟨"SignCertificate", .call, .chargingStation⟩,
  ⟨"StatusNotification", .call, .chargingStation⟩,
  ⟨"TransactionEvent", .call, .chargingStation⟩,
  ⟨"TriggerMessage", .call, .csms⟩,
  ⟨"UnlockConnector", .call, .csms⟩,
  ⟨"UnpublishFirmware", .call, .csms⟩,
  ⟨"UpdateDynamicSchedule", .call, .csms⟩,
  ⟨"UpdateFirmware", .call, .csms⟩,
  ⟨"UsePriorityCharging", .call, .csms⟩,
  ⟨"VatNumberValidation", .call, .chargingStation⟩]

/-- Every action a version defines, in specification order. -/
def all : Version → List Action
  | .v1_6 => all1_6
  | .v2_0_1 => all2_0_1
  | .v2_1 => all2_1

/-- Parses a wire action name; `none` if the version does not define it. -/
def fromWire (version : Version) (name : String) : Option Action :=
  (all version).find? fun a => a.asStr = name

/-! ### The lookups -/

/-- Whether the action is a `CALL` or a `SEND`; `none` when the version does not
define it. -/
def kind (version : Version) (action : String) : Option MessageKind :=
  (fromWire version action).map Action.kind

/-- Which peer may originate the action; `none` when the version does not define
it. -/
def origin (version : Version) (action : String) : Option Origin :=
  (fromWire version action).map Action.origin

/-- Whether the action is transaction-related: queued durably while offline and
retried on the linear schedule. -/
def isTransactionRelated (version : Version) (action : String) : Bool :=
  match version with
  | .v1_6 => action = "StartTransaction" || action = "StopTransaction" || action = "MeterValues"
  | .v2_0_1 | .v2_1 => action = "TransactionEvent"

/-- The calls a Charging Station is expected to make after the CSMS sent
`requested`. The version plays no part. -/
def solicitedBy (_version : Version) (requested : String) : List String :=
  if requested = "GetBaseReport" ∨ requested = "GetReport" then ["NotifyReport"]
  else if requested = "GetMonitoringReport" then ["NotifyMonitoringReport"]
  else if requested = "CustomerInformation" then ["NotifyCustomerInformation"]
  else if requested = "GetDisplayMessages" then ["NotifyDisplayMessages"]
  else if requested = "GetChargingProfiles" then ["ReportChargingProfiles"]
  else if requested = "GetDERControl" then ["ReportDERControl"]
  else if requested = "GetLog" then ["LogStatusNotification"]
  else if requested = "UpdateFirmware" ∨ requested = "SignedUpdateFirmware" then
    ["FirmwareStatusNotification", "SignedFirmwareStatusNotification"]
  else if requested = "PublishFirmware" then ["PublishFirmwareStatusNotification"]
  else if requested = "GetDiagnostics" then ["DiagnosticsStatusNotification"]
  else []

/-- Whether some version has the action as a transaction-related one. -/
def isTransactionMessage (action : String) : Bool :=
  [Version.v1_6, .v2_0_1, .v2_1].any fun version => isTransactionRelated version action

theorem isTransactionMessage_of {version : Version} {action : String}
    (h : isTransactionRelated version action = true) : isTransactionMessage action = true := by
  cases version <;> simp [isTransactionMessage, h]

theorem isTransactionMessage_boot : isTransactionMessage "BootNotification" = false := by decide

end Actions

end OcppKit
