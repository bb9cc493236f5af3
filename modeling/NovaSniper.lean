import NovaSniper.Accounting
import NovaSniper.BoundedExit
import NovaSniper.RungOrder
import NovaSniper.TrailingStop
import NovaSniper.Validation
import NovaSniper.Subscription
import NovaSniper.Accounts
import NovaSniper.Recognition
import NovaSniper.Delivery
import NovaSniper.Receiver
import NovaSniper.Backoff
import NovaSniper.AllowLists
import NovaSniper.MissingFacts
import NovaSniper.RugChecks
import NovaSniper.FilterOrder
import NovaSniper.FirstAvailable
import NovaSniper.RoundRobin
import NovaSniper.InFlight
import NovaSniper.Main
import NovaSniper.Concurrency
import NovaSniper.BuyOnce
import NovaSniper.BuyProtocol
import NovaSniper.Lib.Parties
import NovaSniper.Lib.Pipeline
import NovaSniper.Startup
import NovaSniper.System
import NovaSniper.SystemRefines
import NovaSniper.EndToEnd
import NovaSniper.ListenerRefines
import NovaSniper.TaskRuns
import NovaSniper.Lib.Placed
import NovaSniper.Transactions
import NovaSniper.Budget
import NovaSniper.Custody
import NovaSniper.Completion
import NovaSniper.DryRun
import NovaSniper.Sampling
import NovaSniper.Proceeds
import NovaSniper.Targets
import NovaSniper.Arrival
import NovaSniper.Sharing
import NovaSniper.Screening
import NovaSniper.Provenance
import NovaSniper.Defaults
import NovaSniper.Tightening
