import RemoteCache.Digest
import RemoteCache.Server
import RemoteCache.Settings
import RemoteCache.Storage
import RemoteCache.Wire
import RemoteCache.Proofs.Settings.Cascade
import RemoteCache.Proofs.Storage.MapRefinement
import RemoteCache.Proofs.Storage.Handles
import RemoteCache.Proofs.Storage.Assertions
import RemoteCache.Proofs.Storage.Authentication
import RemoteCache.Proofs.Storage.Sockets
import RemoteCache.Proofs.Storage.Agreement
import RemoteCache.Proofs.Storage.Disclosure
import RemoteCache.Proofs.Storage.Interleaving
import RemoteCache.Proofs.Storage.Noninterference
import RemoteCache.Proofs.Storage.Findings
import RemoteCache.Proofs.Storage.Interruptions
import RemoteCache.Proofs.Storage.Client
import RemoteCache.Proofs.Storage.Recovery
import RemoteCache.Proofs.Resp.Frames
import RemoteCache.Proofs.Storage.Transport
import RemoteCache.Proofs.Storage.Writes
import RemoteCache.Proofs.Storage.Budget
import RemoteCache.Proofs.Endpoint.Hosts
import RemoteCache.Proofs.Endpoint.SocketPaths
import RemoteCache.Proofs.BackendSettings
import RemoteCache.Proofs.Digest
import RemoteCache.Proofs.Settings.Numbers
import RemoteCache.Proofs.Storage.Targets
import RemoteCache.Proofs.Storage.Contexts
import RemoteCache.Proofs.Logging.Emission
import RemoteCache.Proofs.Logging.Output
import RemoteCache.Proofs.Logging.Programs
import RemoteCache.Proofs.Storage.Exchanges
