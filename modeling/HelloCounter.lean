import HelloCounter.Postgres.System
import HelloCounter.Library.Tickets
import HelloCounter.Http.ServedBy
import HelloCounter.Postgres.Calls
import HelloCounter.Postgres.Uniqueness
import HelloCounter.Postgres.Accounting
import HelloCounter.Memory.Concurrency
import HelloCounter.Memory.Counts
import HelloCounter.Interchange
import HelloCounter.Deploy.Firewall
import HelloCounter.Deploy.FirewallRestart
import HelloCounter.Deploy.FirewallRepeat
import HelloCounter.Deploy.CertPairs
import HelloCounter.Library.Gsub
import HelloCounter.Deploy.Awk
import HelloCounter.Deploy.RenderInfra
import HelloCounter.Deploy.Sections
import HelloCounter.Deploy.ExportCert
import HelloCounter.Deploy.TlsFiles
import HelloCounter.Postgres.Retry
import HelloCounter.Postgres.Healing
import HelloCounter.Library.Lines
import HelloCounter.Server.AuthorizedKeys
import HelloCounter.Deploy.RenderFailure
import HelloCounter.Library.Substitution
import HelloCounter.Deploy.Placeholders
import HelloCounter.Deploy.Markers
import HelloCounter.Server.CertLookup
import HelloCounter.Renewal.Detection
import HelloCounter.Library.Protocol
import HelloCounter.Renewal.System
import HelloCounter.Renewal.Pairs
import HelloCounter.Standby.Entrypoint
import HelloCounter.Standby.History
import HelloCounter.Library.Reach
import HelloCounter.Http.PageViews
import HelloCounter.Config.AppConfig
import HelloCounter.Library.SocketAddr
import HelloCounter.Config.Startup
import HelloCounter.Client.HelloWorldClient
import HelloCounter.Library.Linearize
import HelloCounter.Http.Concurrent
import HelloCounter.Library.Budget
import HelloCounter.Http.Requests
import HelloCounter.Postgres.Fleet
import HelloCounter.Library.Faults
import HelloCounter.Postgres.Tolerance
import HelloCounter.Client.EndToEnd
import HelloCounter.Deploy.FirewallHistory
import HelloCounter.Library.Shell
import HelloCounter.Library.Rollout
import HelloCounter.Deploy.InfraDeploy
import HelloCounter.Deploy.InfraHistory
import HelloCounter.Library.BlockText
import HelloCounter.Deploy.Template
import HelloCounter.Deploy.Caddy
import HelloCounter.Deploy.InfraRoutes
