import NextepAgent.Effect.Program
import NextepAgent.Effect.Interleaving
import NextepAgent.Effect.Crew
import NextepAgent.Effect.History
import NextepAgent.Effect.Registers
import NextepAgent.Effect.Translate
import NextepAgent.Effect.Footprint
import NextepAgent.Effect.Dialogue
import NextepAgent.Effect.Transcript
import NextepAgent.Effect.Expansion
import NextepAgent.Effect.Foretold
import NextepAgent.Words
import NextepAgent.Posix
import NextepAgent.Base64
import NextepAgent.Python
import NextepAgent.JsonText
import NextepAgent.Config
import NextepAgent.Decoding
import NextepAgent.RoundTrip
import NextepAgent.ForwardCompat
import NextepAgent.Host
import NextepAgent.FlowRunner
import NextepAgent.OutputPaths
import NextepAgent.OsRelease
import NextepAgent.Dns
import NextepAgent.Challenges
import NextepAgent.DnsFrame
import NextepAgent.Lenient
import NextepAgent.Nudge
import NextepAgent.Sha256
import NextepAgent.NudgeRule
import NextepAgent.Signing
import NextepAgent.Gate
import NextepAgent.Write
import NextepAgent.Issue
import NextepAgent.Renewal
import NextepAgent.Threshold
import NextepAgent.KeyPair
import NextepAgent.Network
import NextepAgent.Hook
import NextepAgent.Failure
import NextepAgent.Idempotence
import NextepAgent.SelfHealing
import NextepAgent.ChangeFlag
import NextepAgent.Race
import NextepAgent.RefreshService
import NextepAgent.Secrets
import NextepAgent.HookFate
import NextepAgent.Refresh
import NextepAgent.Reports
import NextepAgent.Client
import NextepAgent.Slots
import NextepAgent.Rounding
import NextepAgent.NextRenewal
import NextepAgent.Isolation
import NextepAgent.JobTable
import NextepAgent.Retries
import NextepAgent.Status
import NextepAgent.Versions
import NextepAgent.Machine
import NextepAgent.Agent
import NextepAgent.AgentFrame
import NextepAgent.OneShot
import NextepAgent.Server
import NextepAgent.Influence
import NextepAgent.Alone
import NextepAgent.InForce
import NextepAgent.SideBySide
import NextepAgent.ExternalAcme
import NextepAgent.InternalX5c
import NextepAgent.Online
import NextepAgent.Provenance
