import MeridianPostgreSQL.Projection.LeaseStates
import MeridianPostgreSQL.Projection.IdentityOrder
import MeridianPostgreSQL.Evidence.ExactlyOnce
import MeridianPostgreSQL.Registry.Linearizability
import MeridianPostgreSQL.Transactions.CommitOutcomes
import MeridianPostgreSQL.Query.Fragments
import MeridianPostgreSQL.Query.Compilation
import MeridianPostgreSQL.Query.PlanText
import MeridianPostgreSQL.SlotAlignment
import MeridianPostgreSQL.Query.DmlIndependence
import MeridianPostgreSQL.Query.LostUpdates
import MeridianPostgreSQL.Migration.ShapeEvolution
import MeridianPostgreSQL.Operations.Contracts
import MeridianPostgreSQL.Projection.PoisonBound
import MeridianPostgreSQL.Query.Pages
import MeridianPostgreSQL.Compatibility.ReadOnly
import MeridianPostgreSQL.Query.VersionedPuts
import MeridianPostgreSQL.Transactions.ReturnedConnections
import MeridianPostgreSQL.Query.TraversalBounds
import MeridianPostgreSQL.Query.CursorBinding
import MeridianPostgreSQL.Query.LiteralTypes
import MeridianPostgreSQL.Query.PrefixFilters
import MeridianPostgreSQL.Query.ResultKeys
import MeridianPostgreSQL.Query.TraversalPaths
import MeridianPostgreSQL.Query.CursorValues
import MeridianPostgreSQL.Query.Pointers
import MeridianPostgreSQL.Transactions.WaitTermination
import MeridianPostgreSQL.Settings.DeclarationOrder
import MeridianPostgreSQL.Query.AddressedPuts
import MeridianPostgreSQL.Migration.RealisedPlans
import MeridianPostgreSQL.Migration.RepeatedPlans
import MeridianPostgreSQL.Query.ScopeIsolation
import MeridianPostgreSQL.Query.ConsecutivePages
import MeridianPostgreSQL.Query.ConcurrentWrites
import MeridianPostgreSQL.Migration.TransferredTables
import MeridianPostgreSQL.Projection.OutboxCompletion
import MeridianPostgreSQL.Projection.DrainedOutbox
