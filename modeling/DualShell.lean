import DualShell.Main
import DualShell.Proofs.Acceptance
import DualShell.Proofs.DispatchRun
import DualShell.Proofs.EchoedLines
import DualShell.Proofs.EditOrder
import DualShell.Proofs.ExitForReturn
import DualShell.Proofs.Expansion
import DualShell.Proofs.LineStructure
import DualShell.Proofs.NormalForm
import DualShell.Proofs.OwnLineEnds
import DualShell.Proofs.Portability
import DualShell.Proofs.RenderStages
import DualShell.Proofs.RunScriptDocuments
import DualShell.Proofs.RunScriptPath
import DualShell.Proofs.ScopeHistory
import DualShell.Proofs.ScriptLabels
import DualShell.Proofs.SelfSufficiency
import DualShell.Proofs.SettingLayers
import DualShell.Proofs.WordCounts
import DualShell.Proofs.LibrarySearch
import DualShell.Proofs.ExportBlocks
import DualShell.Proofs.JoinedTemplates
import DualShell.Proofs.CarriedExports
import DualShell.Proofs.TableHistory
import DualShell.Proofs.ClearedVariables
import DualShell.Proofs.SettingsAcceptance
import DualShell.Proofs.DispatchReferences
import DualShell.Proofs.ExportedNames
import DualShell.Proofs.FirstWords
import DualShell.Proofs.FunctionLabels
import DualShell.Proofs.ControlScript
import DualShell.Proofs.CommandWords
