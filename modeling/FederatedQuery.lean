import FederatedQuery.Catalog.Display
import FederatedQuery.Context
import FederatedQuery.Engine
import FederatedQuery.Sorting.Insertion
import FederatedQuery.Store.Scan
import FederatedQuery.Value.Reader
import FederatedQuery.Proofs.Engine.Failure
import FederatedQuery.Proofs.Engine.Paging
import FederatedQuery.Proofs.Engine.Population
import FederatedQuery.Proofs.Engine.Stopping
import FederatedQuery.Proofs.RuleTree.Reading
import FederatedQuery.Proofs.PlanCache.Eviction
import FederatedQuery.Proofs.PlanCache.Books
import FederatedQuery.Proofs.Text.ByteOrder
import FederatedQuery.Proofs.Store.History
import FederatedQuery.Proofs.Store.Identity
import FederatedQuery.Proofs.Execution.StalePlans
import FederatedQuery.Proofs.Engine.StalePlans
import FederatedQuery.Proofs.Value.Order
import FederatedQuery.Proofs.Plan.PostOrder
import FederatedQuery.Proofs.Plan.LeastOrder
import FederatedQuery.Proofs.RuleTree.NormalForm
import FederatedQuery.Proofs.RuleTree.Grammar
import FederatedQuery.Proofs.Binding.Cover
import FederatedQuery.Proofs.Sorting.Stability
import FederatedQuery.Proofs.RuleTree.CaseFolding
import FederatedQuery.Proofs.Plan.Limits
import FederatedQuery.Proofs.RowSet.Tiling
import FederatedQuery.Proofs.Store.Refusal
import FederatedQuery.Proofs.Store.Replacement
import FederatedQuery.Proofs.SortKey
import FederatedQuery.Proofs.Sorting.MissingFields
import FederatedQuery.Proofs.RuleTree.Filling
import FederatedQuery.Proofs.Value.Agreement
import FederatedQuery.Proofs.Text.Split
import FederatedQuery.Proofs.Value.Path
import FederatedQuery.Proofs.TemplatePath
