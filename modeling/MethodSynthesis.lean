import MethodSynthesis.Operation.Registry
import MethodSynthesis.Parameters.Change
import MethodSynthesis.Parameters.ContainerId
import MethodSynthesis.Proofs.ContainerVersions
import MethodSynthesis.Proofs.DeclaredRanges
import MethodSynthesis.Proofs.DefinitionTexts
import MethodSynthesis.Proofs.FailFast
import MethodSynthesis.Proofs.MethodOverwrites
import MethodSynthesis.Proofs.MethodPairs
import MethodSynthesis.Proofs.RepeatedImports
import MethodSynthesis.Proofs.RoundTrip
import MethodSynthesis.Proofs.ScenarioSessions
import MethodSynthesis.Proofs.Shortcuts
import MethodSynthesis.Scenario.Basic
import MethodSynthesis.Proofs.OfferedChoices
import MethodSynthesis.Proofs.CallableMethods
import MethodSynthesis.Proofs.ByteOrder
import MethodSynthesis.Proofs.ItemStates
import MethodSynthesis.Proofs.RegistryHistory
import MethodSynthesis.Proofs.RangeRefusals
import MethodSynthesis.Proofs.IntegerItems
import MethodSynthesis.Proofs.ChoiceSelection
import MethodSynthesis.Proofs.Instantiation
import MethodSynthesis.Proofs.NameCollisions
import MethodSynthesis.Proofs.WrittenCalls
import MethodSynthesis.Proofs.MergedHierarchies
import MethodSynthesis.Proofs.CyclicHierarchies
import MethodSynthesis.Proofs.ExpectedValues
import MethodSynthesis.Proofs.NamespaceMembers
import MethodSynthesis.Proofs.WrittenScripts
import MethodSynthesis.Proofs.PatternSearch
import MethodSynthesis.Proofs.PatternReading
