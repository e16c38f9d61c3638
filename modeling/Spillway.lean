import Spillway.Main
import Spillway.Proofs.Cluster.Agreement
import Spillway.Proofs.Cluster.Answering
import Spillway.Proofs.Cluster.Convergence
import Spillway.Proofs.Cluster.Informing
import Spillway.Proofs.Cluster.Mirroring
import Spillway.Proofs.Cluster.Payload
import Spillway.Proofs.Cluster.Registering
import Spillway.Proofs.Cluster.Rejecting
import Spillway.Proofs.Cluster.Cancellation
import Spillway.Proofs.Cluster.Ending
import Spillway.Proofs.Cluster.Scanning
import Spillway.Proofs.Filter.Canonical
import Spillway.Proofs.Memory.Tree
import Spillway.Proofs.Operator.Aggregation
import Spillway.Proofs.Operator.Filtering
import Spillway.Proofs.Operator.Forested
import Spillway.Proofs.Operator.GivenBack
import Spillway.Proofs.Operator.Leaves
import Spillway.Proofs.Operator.Overflow
import Spillway.Proofs.Operator.QueryLimit
import Spillway.Proofs.Operator.Refilling
import Spillway.Proofs.Operator.Retrying
import Spillway.Proofs.Operator.SingleKey
import Spillway.Proofs.Operator.Skew
import Spillway.Proofs.Partition.Copartition
import Spillway.Proofs.Partition.Estimate
import Spillway.Proofs.Partition.Hashing
import Spillway.Proofs.Partition.Refusing
import Spillway.Proofs.Partition.Sizing
import Spillway.Proofs.Spill.Sharing
import Spillway.Proofs.Spill.Tampering
import Spillway.Text.Scientific
