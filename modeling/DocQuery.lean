import DocQuery.Store.Recording
import DocQuery.Settings.Load
import DocQuery.Syntax.Alike
import DocQuery.Syntax.Inspect
import DocQuery.Proofs.Store.Runs
import DocQuery.Proofs.Filter.Negation
import DocQuery.Proofs.Syntax.RoundTrip
import DocQuery.Proofs.Plan.Clauses
import DocQuery.Proofs.Filter.Parts
import DocQuery.Proofs.Plan.Unsupported
import DocQuery.Proofs.Filter.Typing
import DocQuery.Proofs.Plan.Typing
import DocQuery.Proofs.Syntax.Lockstep
import DocQuery.Proofs.Syntax.Blanks
import DocQuery.Proofs.Filter.Forms
import DocQuery.Proofs.Filter.References
import DocQuery.Proofs.Plan.Variables
import DocQuery.Proofs.Plan.References
import DocQuery.Proofs.Plan.Groups
import DocQuery.Proofs.Plan.Scope
import DocQuery.Proofs.Plan.GroupKey
import DocQuery.Proofs.Plan.GroupBody
import DocQuery.Proofs.Plan.Projection
import DocQuery.Proofs.Plan.Aggregates
import DocQuery.Proofs.Plan.GroupNames
import DocQuery.Proofs.Plan.Distinct
import DocQuery.Proofs.Plan.GroupTyping
import DocQuery.Proofs.Plan.Lookups
import DocQuery.Proofs.Plan.JoinTruth
import DocQuery.Proofs.Plan.Split
import DocQuery.Proofs.Plan.Operations
import DocQuery.Proofs.Filter.Chains
import DocQuery.Proofs.Filter.Exchange
import DocQuery.Proofs.Filter.Patterns
import DocQuery.Proofs.Plan.SortOrder
import DocQuery.Proofs.Plan.Nesting
import DocQuery.Proofs.Model.BaseAlias
import DocQuery.Proofs.Syntax.Termination
import DocQuery.Proofs.Syntax.Precedence
import DocQuery.Proofs.Filter.Failures
import DocQuery.Proofs.Calendar.Formats
