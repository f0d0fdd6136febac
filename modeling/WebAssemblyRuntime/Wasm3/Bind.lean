import WebAssemblyRuntime.Wasm3.Module

/-!
# Bind — linking raw functions to imports by name
-/

namespace WebAssemblyRuntime.Wasm3

def d_m3MaxSaneFunctionArgRetCount : Nat := 1000

def convertTypeCharToTypeId : Char → M3ValueType
  | 'v' => .none
  | 'i' => .i32
  | 'I' => .i64
  | 'f' => .f32
  | 'F' => .f64
  | '*' => .i32
  | _ => .unknown

/-- The loop of `SignatureToFuncType`; `parsingRets` is true before the first `(`. -/
def signatureLoop (maxNumTypes : Nat) : List Char → Bool → M3FuncType → Except M3Err M3FuncType
  | [], _, funcType => .ok funcType
  | '(' :: rest, _, funcType => signatureLoop maxNumTypes rest false funcType
  | ' ' :: rest, parsingRets, funcType => signatureLoop maxNumTypes rest parsingRets funcType
  | ')' :: _, _, funcType => .ok funcType
  | typeChar :: rest, parsingRets, funcType =>
    match convertTypeCharToTypeId typeChar with
    | .unknown => .error .unknownArgumentTypeChar
    | .none => signatureLoop maxNumTypes rest parsingRets funcType
    | type =>
      if parsingRets then
        if maxNumTypes ≤ funcType.rets.length then .error .returnCountOverflow
        else signatureLoop maxNumTypes rest parsingRets
          { funcType with rets := funcType.rets ++ [type] }
      else
        if maxNumTypes ≤ funcType.rets.length + funcType.args.length then .error .argCountOverflow
        else signatureLoop maxNumTypes rest parsingRets
          { funcType with args := funcType.args ++ [type] }

def signatureToFuncType (signature : List Char) : Except M3Err M3FuncType :=
  if signature.length < 2 then .error .malformedFunctionSignature
  else
    -- the two brackets are no types
    let maxNumTypes := signature.length - 2
    if d_m3MaxSaneFunctionArgRetCount < maxNumTypes then .error .tooManyArgsRets
    else signatureLoop maxNumTypes signature true {}

/-- `ValidateSignature`; `AreFuncTypesEqual` compares both counts and all types. -/
def validateSignature (f : M3Function) (linkingSignature : List Char) : M3Result :=
  match signatureToFuncType linkingSignature with
  | .error e => some e
  | .ok ftype => if ftype = f.funcType then none else some .functionSignatureMismatch

/-- `CompileRawFunction`, on a heap with room for the four words. -/
def compileRawFunction (f : M3Function) (userdata : Nat) : M3Function :=
  { f with module := true, compiled := some (.rawFunction userdata) }

/-- The name test of `FindAndLinkFunction`, with its wildcard. -/
def linkMatches (moduleName functionName : CString) (f : M3Function) : Bool :=
  match f.importNames with
  | some (moduleUtf8, fieldUtf8) =>
      strcmpEq fieldUtf8 functionName &&
        (strcmpEq moduleName (ascii "*") || strcmpEq moduleUtf8 moduleName)
  | none => false

/-- The loop of `FindAndLinkFunction` from the first function on, with the result so far.  An error
leaves the functions linked before it linked. -/
def findAndLinkLoop (moduleName functionName : CString) (signature : List Char) (userdata : Nat) :
    List M3Function → M3Result → M3Result × List M3Function
  | [], result => (result, [])
  | f :: rest, result =>
    if linkMatches moduleName functionName f then
      match validateSignature f signature with
      -- the rest of the functions is not looked at
      | some e => (some e, f :: rest)
      | none =>
        let (result, rest) := findAndLinkLoop moduleName functionName signature userdata rest none
        (result, compileRawFunction f userdata :: rest)
    else
      let (result, rest) := findAndLinkLoop moduleName functionName signature userdata rest result
      (result, f :: rest)

/-- `FindAndLinkFunction` in a loaded module. -/
def findAndLinkFunction (functions : List M3Function) (moduleName functionName : CString)
    (signature : List Char) (userdata : Nat) : M3Result × List M3Function :=
  findAndLinkLoop moduleName functionName signature userdata functions
    (some .functionLookupFailed)

/-- Every function whose names match, linked to `userdata`. -/
def linkAll (moduleName functionName : CString) (userdata : Nat) (functions : List M3Function) :
    List M3Function :=
  functions.map fun f =>
    if linkMatches moduleName functionName f then compileRawFunction f userdata else f

/-- A successful link sets every function whose names match and no other. -/
theorem findAndLinkLoop_ok {moduleName functionName : CString} {signature : List Char}
    {userdata : Nat} {functions functions' : List M3Function} {result : M3Result}
    (h : findAndLinkLoop moduleName functionName signature userdata functions result =
      (none, functions')) :
    functions' = linkAll moduleName functionName userdata functions := by
  unfold linkAll
  induction functions generalizing result functions' with
  | nil =>
    rw [findAndLinkLoop, Prod.mk.injEq] at h
    exact h.2.symm
  | cons f rest ih =>
    rw [findAndLinkLoop] at h
    by_cases hmatch : linkMatches moduleName functionName f
    · rw [if_pos hmatch] at h
      cases hvalid : validateSignature f signature with
      | some e => simp [hvalid] at h
      | none =>
        simp only [hvalid, Prod.mk.injEq] at h
        rw [List.map_cons, if_pos hmatch, ← h.2, ← ih (Prod.ext h.1 rfl)]
    · rw [if_neg hmatch] at h
      simp only [Prod.mk.injEq] at h
      rw [List.map_cons, if_neg hmatch, ← h.2, ← ih (Prod.ext h.1 rfl)]

end WebAssemblyRuntime.Wasm3
