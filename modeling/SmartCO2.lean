import SmartCO2.Library.StepSystem
import SmartCO2.Library.History
import SmartCO2.Library.Protothread
import SmartCO2.Library.Statement
import SmartCO2.Library.Execution
import SmartCO2.Library.Lifetime
import SmartCO2.Library.Decimal
import SmartCO2.Library.MachineInt
import SmartCO2.Library.Json
import SmartCO2.Pt
import SmartCO2.DnsRuns
import SmartCO2.BrowseAnswer
import SmartCO2.CoapRuns
import SmartCO2.RequestUri
import SmartCO2.MessageLedger
import SmartCO2.App
import SmartCO2.MainLoop
import SmartCO2.Board
import SmartCO2.BusRuns
import SmartCO2.Timing
import SmartCO2.Sleeps
import SmartCO2.Measurement
import SmartCO2.Scd30
import SmartCO2.Telemetry
import SmartCO2.Payload
import SmartCO2.Acknowledgement
import SmartCO2.Discovery
import SmartCO2.ErrorReport
import SmartCO2.Silence
import SmartCO2.NodeProgress
import SmartCO2.Progress
import SmartCO2.Causes
import SmartCO2.Recovery
import SmartCO2.Requests
