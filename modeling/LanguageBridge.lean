import LanguageBridge.Main
import LanguageBridge.Proofs.AliasPoints
import LanguageBridge.Proofs.Bridge.Convergence
import LanguageBridge.Proofs.Bridge.FanOut
import LanguageBridge.Proofs.Bridge.Publications
import LanguageBridge.Proofs.Child.Settling
import LanguageBridge.Proofs.Composition
import LanguageBridge.Proofs.Configuration
import LanguageBridge.Proofs.Grouping
import LanguageBridge.Proofs.LineEndings
import LanguageBridge.Proofs.Mapping.Containment
import LanguageBridge.Proofs.Mapping.Idempotence
import LanguageBridge.Proofs.Mapping.Nesting
import LanguageBridge.Proofs.Mapping.Pruning
import LanguageBridge.Proofs.Mapping.SymbolOrder
import LanguageBridge.Proofs.Mapping.WantedHints
import LanguageBridge.Proofs.Region.FencePatterns
import LanguageBridge.Proofs.Region.InfoNames
import LanguageBridge.Proofs.Region.LastTag
import LanguageBridge.Proofs.Routing
import LanguageBridge.Proofs.Store.Editing
import LanguageBridge.Proofs.Store.Fidelity
import LanguageBridge.Proofs.Store.Preserving
import LanguageBridge.Proofs.Store.Reporting
import LanguageBridge.Protocol.NotebookFilter
