import PromptLoom.Main
import PromptLoom.Proofs.Opening
import PromptLoom.Proofs.Inheritance.Agreement
import PromptLoom.Proofs.Scope.Agreement
import PromptLoom.Proofs.Prompt.Expansion
import PromptLoom.Proofs.Selection.Drawing
import PromptLoom.Proofs.Prompt.Agreement
import PromptLoom.Proofs.Graph.Exploration
import PromptLoom.Proofs.Validation.Clean
import PromptLoom.Proofs.Prompt.Compilation
import PromptLoom.Proofs.Generate.Nesting
import PromptLoom.Proofs.Generate.Pulls
import PromptLoom.Proofs.Generate.ChoiceKeys
import PromptLoom.Proofs.Generate.NestedRun
import PromptLoom.Proofs.Generate.DrawnRun
import PromptLoom.Proofs.Prompt.SlotTable
import PromptLoom.Proofs.Prompt.Clashes
import PromptLoom.Proofs.Prompt.Substitution
import PromptLoom.Proofs.Prompt.Preparation
import PromptLoom.Proofs.Documents
import PromptLoom.Proofs.NameMap
import PromptLoom.Proofs.Reading
import PromptLoom.Proofs.Inheritance.Climb
import PromptLoom.Proofs.Inheritance.Merged
import PromptLoom.Proofs.Inheritance.ChunkStep
import PromptLoom.Proofs.Inheritance.Ledger
import PromptLoom.Proofs.Inheritance.Calls
import PromptLoom.Proofs.Inheritance.Lineage
import PromptLoom.Proofs.Graph.Coverage
import PromptLoom.Proofs.Scope.Faults
import PromptLoom.Proofs.Scope.Names
import PromptLoom.Proofs.Inheritance.Origins
import PromptLoom.Proofs.Prompt.Faults
import PromptLoom.Proofs.Validation.Phases
import PromptLoom.Proofs.Prompt.Completeness
import PromptLoom.Proofs.Graph.Ancestry
import PromptLoom.Proofs.Graph.Outlines
import PromptLoom.Proofs.Validation.References
import PromptLoom.Proofs.VariationSets
import PromptLoom.Proofs.Scope.ListMerge
import PromptLoom.Proofs.Prompt.Mentions
import PromptLoom.Proofs.Prompt.Lifting
import PromptLoom.Proofs.Prompt.Readiness
import PromptLoom.Proofs.Prompt.Seams
import PromptLoom.Proofs.Prompt.Independence
import PromptLoom.Proofs.Graph.Layers
import PromptLoom.Proofs.Prompt.Causes
import PromptLoom.Proofs.Validation.Reporting
import PromptLoom.Proofs.Scope.Conflicts
import PromptLoom.Proofs.Text.Cutting
import PromptLoom.Proofs.Text.Tokens
import PromptLoom.Proofs.Text.Lines
import PromptLoom.Proofs.Text.Idempotence
import PromptLoom.Proofs.Graph.Cycles
import PromptLoom.Proofs.Validation.Inheritance
import PromptLoom.Proofs.Sessions
import PromptLoom.Proofs.Text.Appearance
import PromptLoom.Proofs.Generate.Recollection
import PromptLoom.Proofs.Chunk.Filling
import PromptLoom.Proofs.Chunk.Precedence
import PromptLoom.Proofs.Scope.ValueKeys
import PromptLoom.Proofs.Lists
import PromptLoom.Proofs.Text.Identifiers
import PromptLoom.Proofs.Reading.Strangers
import PromptLoom.Proofs.Reading.Parts
import PromptLoom.Proofs.Reading.Variations
import PromptLoom.Proofs.Graph.CycleReports
import PromptLoom.Proofs.Inheritance.Injection
import PromptLoom.Proofs.Selection.Display
import PromptLoom.Proofs.Selection.Taking
import PromptLoom.Proofs.Text.Offsets
import PromptLoom.Proofs.Text.Placeholders
import PromptLoom.Proofs.Text.Balance
import PromptLoom.Proofs.Chunk.Scanning
import PromptLoom.Proofs.Chunk.Mentions
import PromptLoom.Proofs.Prompt.Loading
import PromptLoom.Proofs.Prompt.SelectorConflicts
import PromptLoom.Proofs.Generate.Enumeration
import PromptLoom.Proofs.Paths
import PromptLoom.Proofs.Relocation
import PromptLoom.Proofs.Chunk.Writing
import PromptLoom.Proofs.Prompt.LoraWarning
import PromptLoom.Proofs.VariationHistories
import PromptLoom.Proofs.Graph.Closure
import PromptLoom.Proofs.Scope.Openings
import PromptLoom.Proofs.Validation.Outlines
