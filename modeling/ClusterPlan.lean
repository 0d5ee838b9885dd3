import ClusterPlan.CommandLine.Run
import ClusterPlan.Main
import ClusterPlan.Proofs.OrdinalSet.Members
import ClusterPlan.Proofs.Timeline.Occupancy
import ClusterPlan.Proofs.OrdinalSet.Smallest
import ClusterPlan.Proofs.OrdinalSet.Cutting
import ClusterPlan.Proofs.OrdinalSet.Writing
import ClusterPlan.Proofs.OrdinalSet.Constructions
import ClusterPlan.Proofs.Matching.Selection
import ClusterPlan.Proofs.Pass.Booking
import ClusterPlan.Proofs.Pass.Step
import ClusterPlan.Proofs.Pass.Loading
import ClusterPlan.Proofs.Pass.Agenda
import ClusterPlan.Proofs.Pass.Exclusion
import ClusterPlan.Proofs.Pass.Launching
import ClusterPlan.Proofs.Pass.LaunchSafety
import ClusterPlan.Proofs.Catalog.Groups
import ClusterPlan.Proofs.Matching.Hierarchy
import ClusterPlan.Proofs.Matching.Honouring
import ClusterPlan.Proofs.Store.Orderly
import ClusterPlan.Proofs.Pass.Granted
import ClusterPlan.Proofs.Controller.Fetching
import ClusterPlan.Proofs.Controller.Reserved
import ClusterPlan.Proofs.Quota.Usage
import ClusterPlan.Proofs.Controller.Repeating
import ClusterPlan.Proofs.Matching.Room
import ClusterPlan.Proofs.Pass.Accounts
import ClusterPlan.Proofs.Pass.Forgetting
import ClusterPlan.Proofs.Pass.Optimal
import ClusterPlan.Proofs.Pass.Quotas
import ClusterPlan.Proofs.Catalog.Ids
import ClusterPlan.Proofs.Matching.Stability
import ClusterPlan.Proofs.Pass.Fates
import ClusterPlan.Proofs.Pass.Resuming
import ClusterPlan.Proofs.Pass.Carried
import ClusterPlan.Proofs.Pass.Rerun
import ClusterPlan.Proofs.Controller.Refetching
import ClusterPlan.Proofs.Pass.Availability
import ClusterPlan.Proofs.Matching.Completeness
import ClusterPlan.Proofs.Pass.Once
import ClusterPlan.Proofs.Pass.Agreement
import ClusterPlan.Proofs.Pass.Undisturbed
import ClusterPlan.Proofs.Store.Desk
import ClusterPlan.Proofs.Pass.Strict
import ClusterPlan.Proofs.Controller.Aftermath
import ClusterPlan.Proofs.Quota.Current
import ClusterPlan.Proofs.Pass.Simulation
import ClusterPlan.Proofs.Pass.Without
import ClusterPlan.Proofs.Pass.Expired
import ClusterPlan.Proofs.Pass.Kills
import ClusterPlan.Proofs.Pass.Accepted
import ClusterPlan.Proofs.Pass.Oblivious
import ClusterPlan.Proofs.Controller.Rejected
import ClusterPlan.Proofs.Request.Rows
import ClusterPlan.Proofs.Store.History
import ClusterPlan.Proofs.Pass.Visiting
import ClusterPlan.Proofs.Pass.Exact
import ClusterPlan.Proofs.Pass.Traceless
import ClusterPlan.Proofs.Quota.Exactness
import ClusterPlan.Proofs.Quota.Bounds
import ClusterPlan.Proofs.Matching.Feasibility
import ClusterPlan.Proofs.Quota.Earlier
import ClusterPlan.Proofs.Pass.Bordered
import ClusterPlan.Proofs.Pass.Unstarved
import ClusterPlan.Proofs.OrdinalSet.Leading
import ClusterPlan.Proofs.Matching.Leading
import ClusterPlan.Proofs.Filter.Lexing
import ClusterPlan.Proofs.Filter.Grammar
import ClusterPlan.Proofs.Filter.Parentheses
import ClusterPlan.Proofs.Matching.Conjunction
import ClusterPlan.Proofs.Matching.Malformed
import ClusterPlan.Proofs.Filter.Writing
import ClusterPlan.Proofs.Request.Writing
import ClusterPlan.Proofs.Request.Families
import ClusterPlan.Proofs.Request.Refusals
import ClusterPlan.Proofs.Catalog.Partition
import ClusterPlan.Proofs.Energy.Nodes
import ClusterPlan.Proofs.Pass.Held
import ClusterPlan.Proofs.Energy.Provision
import ClusterPlan.Proofs.Energy.Trials
import ClusterPlan.Proofs.Matching.Shortcut
import ClusterPlan.Proofs.Pass.Unrefused
import ClusterPlan.Proofs.Catalog.Renumbering
