/-!
# Errors — the interpreter's result strings

`M3Result` is a C string compared by pointer: `NULL` is success, every other value is one of the
constants of `wasm3.h` or a literal at the place that throws it.
-/

namespace WebAssemblyRuntime.Wasm3

/-- The non-null `M3Result` values.  `trapJsException` is the binding's own sentinel
`kTrapJsException`, told apart from every interpreter result by its address. -/
inductive M3Err where
  | mallocFailed
  | incompatibleWasmVersion
  | wasmMalformed
  | misorderedWasmSection
  | wasmUnderrun
  | wasmOverrun
  | wasmMissingInitExpr
  | lebOverflow
  | missingUTF8
  | wasmSectionUnderrun
  | wasmSectionOverrun
  | invalidTypeId
  | tooManyMemorySections
  | tooManyArgsRets
  | moduleNotLinked
  | moduleAlreadyLinked
  | functionLookupFailed
  | functionImportMissing
  | malformedFunctionSignature
  | noCompiler
  | unknownOpcode
  | restrictedOpcode
  | functionStackOverflow
  | functionStackUnderrun
  | mallocFailedCodePage
  | settingImmutableGlobal
  | typeMismatch
  | typeCountMismatch
  | missingCompiledCode
  | wasmMemoryOverflow
  | globalMemoryNotAllocated
  | globaIndexOutOfBounds
  | argumentCountMismatch
  | argumentTypeMismatch
  | globalLookupFailed
  | globalTypeMismatch
  | globalNotMutable
  | trapOutOfBoundsMemoryAccess
  | trapDivisionByZero
  | trapIntegerOverflow
  | trapIntegerConversion
  | trapIndirectCallTypeMismatch
  | trapTableIndexOutOfRange
  | trapTableElementIsNull
  | trapExit
  | trapAbort
  | trapUnreachable
  | trapStackOverflow
  | linearMemoryLimitExceeded
  | unallocatedLinearMemory
  | dataSegmentOutOfBounds
  | dataSegmentUnderflow
  | tableUnderflow
  | tableOverflow
  | functionIndexOutOfRange
  | elementTableIndex
  | tooManyTypes
  | tooManyFunctions
  | tooManyImports
  | tooManyExports
  | tooManyGlobals
  | tooManyElementSegments
  | tooManyDataSegments
  | tooManyNames
  | typeSigIndexOutOfBounds
  | startIndexOutOfBounds
  | mismatchedFunctionCount
  | functionBodyMissing
  | unknownArgumentTypeChar
  | returnCountOverflow
  | argCountOverflow
  | functionSignatureMismatch
  | unknownArgumentType
  | unknownReturnType
  | functionNotCalled
  | trapJsException
  deriving DecidableEq, Repr

def M3Err.text : M3Err → String
  | .mallocFailed => "memory allocation failed"
  | .incompatibleWasmVersion => "incompatible Wasm binary version"
  | .wasmMalformed => "malformed Wasm binary"
  | .misorderedWasmSection => "out of order Wasm section"
  | .wasmUnderrun => "underrun while parsing Wasm binary"
  | .wasmOverrun => "overrun while parsing Wasm binary"
  | .wasmMissingInitExpr => "missing init_expr in Wasm binary"
  | .lebOverflow => "LEB encoded value overflow"
  | .missingUTF8 => "invalid length UTF-8 string"
  | .wasmSectionUnderrun => "section underrun while parsing Wasm binary"
  | .wasmSectionOverrun => "section overrun while parsing Wasm binary"
  | .invalidTypeId => "unknown value_type"
  | .tooManyMemorySections => "only one memory per module is supported"
  | .tooManyArgsRets => "too many arguments or return values"
  | .moduleNotLinked => "attempting to use module that is not loaded"
  | .moduleAlreadyLinked => "attempting to bind module to multiple runtimes"
  | .functionLookupFailed => "function lookup failed"
  | .functionImportMissing => "missing imported function"
  | .malformedFunctionSignature => "malformed function signature"
  | .noCompiler => "no compiler found for opcode"
  | .unknownOpcode => "unknown opcode"
  | .restrictedOpcode => "restricted opcode"
  | .functionStackOverflow => "compiling function overran its stack height limit"
  | .functionStackUnderrun => "compiling function underran the stack"
  | .mallocFailedCodePage => "memory allocation failed when acquiring a new M3 code page"
  | .settingImmutableGlobal => "attempting to set an immutable global"
  | .typeMismatch => "incorrect type on stack"
  | .typeCountMismatch => "incorrect value count on stack"
  | .missingCompiledCode => "function is missing compiled m3 code"
  | .wasmMemoryOverflow => "runtime ran out of memory"
  | .globalMemoryNotAllocated => "global memory is missing from a module"
  | .globaIndexOutOfBounds => "global index is too large"
  | .argumentCountMismatch => "argument count mismatch"
  | .argumentTypeMismatch => "argument type mismatch"
  | .globalLookupFailed => "global lookup failed"
  | .globalTypeMismatch => "global type mismatch"
  | .globalNotMutable => "global is not mutable"
  | .trapOutOfBoundsMemoryAccess => "[trap] out of bounds memory access"
  | .trapDivisionByZero => "[trap] integer divide by zero"
  | .trapIntegerOverflow => "[trap] integer overflow"
  | .trapIntegerConversion => "[trap] invalid conversion to integer"
  | .trapIndirectCallTypeMismatch => "[trap] indirect call type mismatch"
  | .trapTableIndexOutOfRange => "[trap] undefined element"
  | .trapTableElementIsNull => "[trap] null table element"
  | .trapExit => "[trap] program called exit"
  | .trapAbort => "[trap] program called abort"
  | .trapUnreachable => "[trap] unreachable executed"
  | .trapStackOverflow => "[trap] stack overflow"
  | .linearMemoryLimitExceeded => "linear memory limitation exceeded"
  | .unallocatedLinearMemory => "unallocated linear memory"
  | .dataSegmentOutOfBounds => "data segment out of bounds"
  | .dataSegmentUnderflow => "data segment underflow"
  | .tableUnderflow => "table underflow"
  | .tableOverflow => "table overflow"
  | .functionIndexOutOfRange => "function index out of range"
  | .elementTableIndex => "element table index must be zero for MVP"
  | .tooManyTypes => "too many types"
  | .tooManyFunctions => "too many functions"
  | .tooManyImports => "too many imports"
  | .tooManyExports => "too many exports"
  | .tooManyGlobals => "too many globals"
  | .tooManyElementSegments => "too many element segments"
  | .tooManyDataSegments => "too many data segments"
  | .tooManyNames => "too many names"
  | .typeSigIndexOutOfBounds => "type sig index out of bounds"
  | .startIndexOutOfBounds => "start function index out of bounds"
  | .mismatchedFunctionCount => "mismatched function count in code section"
  | .functionBodyMissing => "function body is missing"
  | .unknownArgumentTypeChar => "unknown argument type char"
  | .returnCountOverflow => "malformed signature; return count overflow"
  | .argCountOverflow => "malformed signature; arg count overflow"
  | .functionSignatureMismatch => "function signature mismatch"
  | .unknownArgumentType => "unknown argument type"
  | .unknownReturnType => "unknown return type"
  | .functionNotCalled => "function not called"
  | .trapJsException => "JavaScript import raised an exception"

/-- `none` is `m3Err_none`. -/
abbrev M3Result := Option M3Err

end WebAssemblyRuntime.Wasm3
