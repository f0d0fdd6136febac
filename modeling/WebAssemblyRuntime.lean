import WebAssemblyRuntime.Reasoning.Codec
import WebAssemblyRuntime.Reasoning.FloatFormat
import WebAssemblyRuntime.Reasoning.Leb128
import WebAssemblyRuntime.Reasoning.LittleEndian
import WebAssemblyRuntime.Reasoning.Loops
import WebAssemblyRuntime.Reasoning.Overwrite
import WebAssemblyRuntime.Reasoning.Results
import WebAssemblyRuntime.Reasoning.Transition
import WebAssemblyRuntime.Wasm3.Allocation
import WebAssemblyRuntime.Wasm3.Arithmetic
import WebAssemblyRuntime.Wasm3.Bind
import WebAssemblyRuntime.Wasm3.BlockKeeps
import WebAssemblyRuntime.Wasm3.BlockSimulation
import WebAssemblyRuntime.Wasm3.BranchKeeps
import WebAssemblyRuntime.Wasm3.BranchSimulation
import WebAssemblyRuntime.Wasm3.CallSimulation
import WebAssemblyRuntime.Wasm3.CodePages
import WebAssemblyRuntime.Wasm3.CodeRuns
import WebAssemblyRuntime.Wasm3.Compilation
import WebAssemblyRuntime.Wasm3.Compile
import WebAssemblyRuntime.Wasm3.CompileInvariant
import WebAssemblyRuntime.Wasm3.CompileKeeps
import WebAssemblyRuntime.Wasm3.ConditionalSimulation
import WebAssemblyRuntime.Wasm3.Declarations
import WebAssemblyRuntime.Wasm3.Elements
import WebAssemblyRuntime.Wasm3.Emission
import WebAssemblyRuntime.Wasm3.Errors
import WebAssemblyRuntime.Wasm3.Evaluation
import WebAssemblyRuntime.Wasm3.Execution
import WebAssemblyRuntime.Wasm3.FrameLayout
import WebAssemblyRuntime.Wasm3.FuncTypes
import WebAssemblyRuntime.Wasm3.FunctionSimulation
import WebAssemblyRuntime.Wasm3.Globals
import WebAssemblyRuntime.Wasm3.InstructionKeeps
import WebAssemblyRuntime.Wasm3.InstructionSimulation
import WebAssemblyRuntime.Wasm3.Instructions
import WebAssemblyRuntime.Wasm3.LinearMemory
import WebAssemblyRuntime.Wasm3.Load
import WebAssemblyRuntime.Wasm3.Memory
import WebAssemblyRuntime.Wasm3.MetaCode
import WebAssemblyRuntime.Wasm3.Module
import WebAssemblyRuntime.Wasm3.OperatorSimulation
import WebAssemblyRuntime.Wasm3.Operators
import WebAssemblyRuntime.Wasm3.Parse
import WebAssemblyRuntime.Wasm3.ParsedModule
import WebAssemblyRuntime.Wasm3.Reader
import WebAssemblyRuntime.Wasm3.ReferenceKeeps
import WebAssemblyRuntime.Wasm3.Sections
import WebAssemblyRuntime.Wasm3.Simulation
import WebAssemblyRuntime.Wasm3.SlotSimulation
import WebAssemblyRuntime.Wasm3.StackInvariant
import WebAssemblyRuntime.Wasm3.StackShape
import WebAssemblyRuntime.Wasm3.StraightLine
import WebAssemblyRuntime.Wasm3.Truncation
import WebAssemblyRuntime.Wasm3.Types
import WebAssemblyRuntime.Polyfill.ByteReader
import WebAssemblyRuntime.Polyfill.ModuleFormat
import WebAssemblyRuntime.Polyfill.Scanners
import WebAssemblyRuntime.Polyfill.Utf8
import WebAssemblyRuntime.Binding.CallDepth
import WebAssemblyRuntime.Binding.Exceptions
import WebAssemblyRuntime.Binding.ExportAgreement
import WebAssemblyRuntime.Binding.ExportParsers
import WebAssemblyRuntime.Binding.ExportScan
import WebAssemblyRuntime.Binding.GrowAgreement
import WebAssemblyRuntime.Binding.GrowthModes
import WebAssemblyRuntime.Binding.ImportAgreement
import WebAssemblyRuntime.Binding.ImportDispatch
import WebAssemblyRuntime.Binding.ImportScan
import WebAssemblyRuntime.Binding.Imports
import WebAssemblyRuntime.Binding.Instantiate
import WebAssemblyRuntime.Binding.IntegerCoercion
import WebAssemblyRuntime.Binding.JsValue
import WebAssemblyRuntime.Binding.LebAgreement
import WebAssemblyRuntime.Binding.Linkable
import WebAssemblyRuntime.Binding.Machine
import WebAssemblyRuntime.Binding.MemoryPointer
import WebAssemblyRuntime.Binding.MemorySystem
import WebAssemblyRuntime.Binding.MemoryViews
import WebAssemblyRuntime.Binding.ModuleSnapshot
import WebAssemblyRuntime.Binding.NullModule
import WebAssemblyRuntime.Binding.PresizeLaw
import WebAssemblyRuntime.Binding.Reentrancy
import WebAssemblyRuntime.Binding.ScanAgreement
import WebAssemblyRuntime.Binding.ScanRoundTrip
import WebAssemblyRuntime.Binding.Signature
import WebAssemblyRuntime.Binding.SizeLaw
import WebAssemblyRuntime.Binding.TableView
import WebAssemblyRuntime.Binding.WasmGlobal
import WebAssemblyRuntime.Binding.WasmMemory
