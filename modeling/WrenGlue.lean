import WrenGlue.Main
import WrenGlue.Host.FileTree
import WrenGlue.Proofs.Header.Segmentation
import WrenGlue.Proofs.Cpp.Normalize
import WrenGlue.Proofs.Header.ArgumentText
import WrenGlue.Proofs.Header.LineText
import WrenGlue.Proofs.Header.RoundTrip
import WrenGlue.Proofs.Bindings.Binding
import WrenGlue.Proofs.Bindings.Linkage
import WrenGlue.Proofs.Bindings.Definitions
import WrenGlue.Proofs.Bindings.Integrity
import WrenGlue.Proofs.Bindings.Names
import WrenGlue.Proofs.Text.Lowercase
import WrenGlue.Proofs.Wren.CallForm
import WrenGlue.Proofs.Bindings.Register
import WrenGlue.Proofs.Header.Scanned
import WrenGlue.Proofs.Bindings.Signatures
import WrenGlue.Proofs.Bindings.Faults
import WrenGlue.Proofs.Bindings.CallingConvention
import WrenGlue.Proofs.Bindings.BindRun
import WrenGlue.Proofs.Cpp.Token
import WrenGlue.Proofs.Bindings.Quotations
import WrenGlue.Proofs.Cpp.NameList
import WrenGlue.Proofs.Bindings.Instruction
import WrenGlue.Proofs.Bindings.Program
import WrenGlue.Proofs.Bindings.Execution
import WrenGlue.Proofs.Bindings.Trampoline
import WrenGlue.Proofs.Bindings.Collection
import WrenGlue.Proofs.Cpp.Layout
import WrenGlue.Proofs.Bindings.Independence
import WrenGlue.Proofs.Bindings.OptionLines
import WrenGlue.Proofs.Generate.Collected
import WrenGlue.Proofs.Generate.Run
import WrenGlue.Proofs.Generate.Layout
import WrenGlue.Proofs.Header.LabelPlace
import WrenGlue.Proofs.Generate.Joined
import WrenGlue.Proofs.Header.Bindable
import WrenGlue.Proofs.Bindings.Symbols
import WrenGlue.Proofs.Generate.Regenerated
import WrenGlue.Proofs.Generate.Signatures
import WrenGlue.Proofs.Header.MethodPattern
import WrenGlue.Proofs.Header.WellFormed
import WrenGlue.Proofs.Bindings.Emission
import WrenGlue.Proofs.Bindings.FanOut
import WrenGlue.Proofs.Cpp.Respacing
import WrenGlue.Proofs.Header.EntryCuts
import WrenGlue.Proofs.Header.ArgumentList
import WrenGlue.Proofs.Header.ArgumentListText
import WrenGlue.Proofs.Bindings.TableHistory
import WrenGlue.Proofs.CommandLine.Arrangement
import WrenGlue.Proofs.Cpp.Writer
import WrenGlue.Proofs.Cpp.SingleLine
import WrenGlue.Proofs.Cpp.Relocation
import WrenGlue.Proofs.Bindings.Relocation
import WrenGlue.Proofs.Cpp.StatementLines
import WrenGlue.Proofs.Bindings.LineFronts
import WrenGlue.Proofs.Bindings.FileText
import WrenGlue.Proofs.Bindings.RegisterLoop
