import CapabilityHub.Merkle.Depth
import CapabilityHub.Merkle.Binding
import CapabilityHub.SupplyChain.Inclusion
import CapabilityHub.SupplyChain.Consistency
import CapabilityHub.SupplyChain.Bundle
import CapabilityHub.SupplyChain.Observer
import CapabilityHub.SupplyChain.Reuse
import CapabilityHub.Data.Ancestry
import CapabilityHub.Budget.RepositoryRefinement
import CapabilityHub.Budget.HierarchyAllocation
import CapabilityHub.Budget.HierarchyRelease
import CapabilityHub.Budget.HierarchyReading
import CapabilityHub.Registry.Install
import CapabilityHub.References
import CapabilityHub.Service.Approvals
import CapabilityHub.Service.AtMostOnce
import CapabilityHub.Resilience.CircuitProtocol
import CapabilityHub.Resilience.RetrySafety
import CapabilityHub.Lifecycle.DrainProtocol
import CapabilityHub.Lifecycle.DrainedService
import CapabilityHub.Tenancy.Cursors
import CapabilityHub.Residency.Admission
import CapabilityHub.Residency.Agreement
import CapabilityHub.Approval.Interleavings
import CapabilityHub.Approval.Dispatch
import CapabilityHub.Auth.Sessions
import CapabilityHub.Secrets.Leases
import CapabilityHub.Updates.Pointers
import CapabilityHub.Updates.Progress
import CapabilityHub.Supervision.Exclusivity
import CapabilityHub.Registry.Outcome
import CapabilityHub.Registry.Refresh
import CapabilityHub.Reasoning.Lockout
import CapabilityHub.Reasoning.Agreement
import CapabilityHub.Providers.Origin
import CapabilityHub.Preferences.Updates
import CapabilityHub.Removal.Protocol
import CapabilityHub.Service.Settlement
import CapabilityHub.Audit.Rotation
import CapabilityHub.Audit.ReadBack
import CapabilityHub.Audit.Tampering
import CapabilityHub.Tenancy.Isolation
import CapabilityHub.Trust.Soundness
import CapabilityHub.Trust.Creation
import CapabilityHub.Service.Secrecy
import CapabilityHub.Service.Delivery
import CapabilityHub.Service.Refusals
import CapabilityHub.Search.Selection
import CapabilityHub.Reasoning.Bounds
import CapabilityHub.Authorization.Orders
import CapabilityHub.Rag.Handles
import CapabilityHub.Rag.Ingestion
import CapabilityHub.Rag.Shelves
import CapabilityHub.Registry.Cycles
import CapabilityHub.Registry.Selection
import CapabilityHub.Manifest.Identity
import CapabilityHub.Protocol.Totality
import CapabilityHub.OpenApi.Inlining
import CapabilityHub.Rag.Contract
import CapabilityHub.Certification.Soundness
