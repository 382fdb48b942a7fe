import CouplingTree.Clustering.Draft
import CouplingTree.Main
import CouplingTree.Service.Handler
import CouplingTree.Proofs.Clustering.Cohesion
import CouplingTree.Proofs.Report.Decomposed
import CouplingTree.Proofs.Numbers.Doubles
import CouplingTree.Proofs.Clustering.Foremost
import CouplingTree.Proofs.Clustering.Groups
import CouplingTree.Proofs.Clustering.Nesting
import CouplingTree.Proofs.Clustering.Restriction
import CouplingTree.Proofs.Clustering.Reordering
import CouplingTree.Proofs.Digraph
import CouplingTree.Proofs.Clustering.Components
import CouplingTree.Proofs.Clustering.LeafOrder
import CouplingTree.Proofs.Report.Replay
import CouplingTree.Proofs.Report.Views
import CouplingTree.Proofs.Facts
import CouplingTree.Proofs.RelationMatrix
import CouplingTree.Proofs.Report.Agreement
import CouplingTree.Proofs.Report.RowOrder
import CouplingTree.Proofs.Reload
import CouplingTree.Proofs.Settings.Registers
import CouplingTree.Proofs.Surfaces
import CouplingTree.Proofs.Contract
import CouplingTree.Proofs.Service.Accepted
import CouplingTree.Proofs.Service.Stored
import CouplingTree.Proofs.Exports
import CouplingTree.Proofs.Service.Listed
import CouplingTree.Proofs.Clustering.Linkage
import CouplingTree.Proofs.Report.Renaming
import CouplingTree.Proofs.Clustering.Stopping
import CouplingTree.Proofs.Clustering.Renaming
import CouplingTree.Proofs.Clustering.TreeGraph
import CouplingTree.Proofs.Clustering.Drawing
import CouplingTree.Proofs.Modules
import CouplingTree.Proofs.Clustering.Scaling
import CouplingTree.Proofs.Numbers.Accuracy
import CouplingTree.Proofs.DoubleEntry
import CouplingTree.Proofs.RecordChecks
import CouplingTree.NameMaps
import CouplingTree.Proofs.NameMaps
import CouplingTree.Proofs.Pooling
import CouplingTree.Proofs.CommandLine.Unusable
import CouplingTree.Proofs.CommandLine.Effects
