import GreenThreads.Main
import GreenThreads.Proofs.Quota.Account
import GreenThreads.Proofs.Quota.Membership
import GreenThreads.Proofs.Quota.Runtime
import GreenThreads.Proofs.Task.Incarnation
import GreenThreads.Proofs.Program.Run
import GreenThreads.Proofs.Ledger.Cancel
import GreenThreads.Proofs.Depot.Conservation
import GreenThreads.Proofs.Depot.Pools
import GreenThreads.Proofs.Workshop.Steps
import GreenThreads.Proofs.Workshop.Sound
import GreenThreads.Proofs.Workshop.Flow
import GreenThreads.Proofs.Workshop.Shutdown
import GreenThreads.Proofs.Workshop.Cancel
import GreenThreads.Proofs.Workshop.Destroy
import GreenThreads.Proofs.Parker.Berth
import GreenThreads.Proofs.Lobby.Completion
import GreenThreads.Proofs.Task.Tether
import GreenThreads.Proofs.Watch.Firing
import GreenThreads.Proofs.Quota.Answers
import GreenThreads.Proofs.Timer.Belfry
import GreenThreads.Proofs.Relay.Baton
import GreenThreads.Proofs.Quota.Polls
import GreenThreads.Proofs.Lookout.Readiness
import GreenThreads.Proofs.Config.RoundTrip
import GreenThreads.Proofs.Policy.Literals
import GreenThreads.Proofs.Program.Sections
import GreenThreads.Proofs.Program.GroupRuns
import GreenThreads.Proofs.Timer.Rota
import GreenThreads.Proofs.Engine.Load
import GreenThreads.Proofs.Traffic.Migration
