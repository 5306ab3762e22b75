import CyberGuard.Ingest.Replay
import CyberGuard.EndToEnd
import CyberGuard.Ingest.Enrollment
import CyberGuard.Auth.Guesses
import CyberGuard.Auth.CodeReplay
import CyberGuard.Auth.Revocation
import CyberGuard.Auth.LastAdmin
import CyberGuard.Detect.Grouping
import CyberGuard.Service.MigrationSafety
import CyberGuard.Accepted.Events
import CyberGuard.Soar.Record
import CyberGuard.Ingest.ServerCertHeal
import CyberGuard.Service.InstalledIdentitySafety
import CyberGuard.Service.CopiesSafety
import CyberGuard.Read.ListEnd
import CyberGuard.Detect.RuleEvidence
import CyberGuard.Detect.Rereads
import CyberGuard.Agent.CreatedTimes
import CyberGuard.Auth.SessionLife
import CyberGuard.Auth.SourceAddress
import CyberGuard.Agent.Schedule
import CyberGuard.Agent.Exchange
import CyberGuard.Detect.DriverSafety
import CyberGuard.Service.StatusReports
import CyberGuard.Service.RotationBounds
import CyberGuard.Service.LogLines
import CyberGuard.Service.StartArguments
import CyberGuard.Agent.ReleaseVersion
import CyberGuard.Soar.StepChain
import CyberGuard.Agent.InstanceLock
