import NewApi.GoStrings

/-!
# Header overrides of a channel

A channel may replace headers of the request to its upstream, by a map of its own and by
operations of its parameter override. The operations work on a context that starts with the
headers in force, and what they leave there is in force from then on. Go maps are listed in
the order of their keys. What is done to the body of the request belongs to a library.
-/
namespace NewApi.Headers

/-- A value of a configuration. A number is the text with which it is printed. -/
inductive Json where
  | null
  | bool (b : Bool)
  | num (text : String)
  | str (s : String)
  | arr (items : List Json)
  | obj (fields : List (String × Json))

namespace Json

mutual
/-- The value as `fmt.Sprintf("%v", v)` prints it. -/
def print : Json → String
  | null => "<nil>"
  | bool b => if b then "true" else "false"
  | num text => text
  | str s => s
  | arr items => "[" ++ printItems items ++ "]"
  | obj fields => "map[" ++ printFields fields ++ "]"

/-- Items are printed with a space between them, as `fmt` prints a slice. -/
def printItems : List Json → String
  | [] => ""
  | [v] => v.print
  | v :: vs => v.print ++ " " ++ printItems vs

/-- Fields are printed as `fmt` prints a map. -/
def printFields : List (String × Json) → String
  | [] => ""
  | [(k, v)] => k ++ ":" ++ v.print
  | (k, v) :: fs => k ++ ":" ++ v.print ++ " " ++ printFields fs
end

def field (fields : List (String × Json)) (key : String) : Option Json := fields.lookup key

end Json

/-- Headers by their names, in the order in which they were set. -/
abbrev HeaderMap := List (String × String)

/-- A header that is there is replaced in its place. -/
def HeaderMap.set (m : HeaderMap) (key value : String) : HeaderMap :=
  if (m.lookup key).isSome then m.map fun e => if e.1 = key then (key, value) else e
  else m ++ [(key, value)]

/-- The headers without one name. -/
def HeaderMap.delete (m : HeaderMap) (key : String) : HeaderMap := m.filter fun e => e.1 ≠ key

/-- Names are compared in lower case. -/
def normalizeHeaderContextKey (key : String) : String := trimSpace (toLower key)

/-- The keys of a channel's headers that select headers of the client instead of naming one. -/
def isHeaderPassthroughRuleKeyForOverride (key : String) : Bool :=
  let key := trimSpace (toLower key)
  decide (key = "*") || startsWith key "re:" || startsWith key "regex:"

/-- Keys are normalised; a blank value is kept for a rule only. -/
def sanitizeHeaderOverrideMap (source : List (String × Json)) : HeaderMap :=
  source.foldl (fun target e =>
    let key := normalizeHeaderContextKey e.1
    let value := trimSpace e.2.print
    if key = "" then target
    else if value = "" then
      if isHeaderPassthroughRuleKeyForOverride key then target.set key "" else target
    else target.set key value) []

/-- A map of texts, as the source keeps it among maps of values. -/
def HeaderMap.values (m : HeaderMap) : List (String × Json) := m.map fun e => (e.1, .str e.2)

/-- What the loop keeps of the error of the last attempt. -/
structure LastError where
  statusCode : ℤ
  (message code errorType : String)
  skipRetry : Bool

/-- What the operations can read, and the headers that they have set so far. -/
structure OverrideContext where
  (upstreamModel originalModel requestPath : String)
  (requestHeaders headerOverride : HeaderMap)
  retryIndex : ℤ
  lastError : Option LastError
  isChannelTest : Bool

/-- One operation of a channel's override. -/
structure ParamOperation where
  (path mode : String)
  value : Json
  keepOrigin : Bool
  (source target : String)
  conditions : Json
  logic : String

/-- The errors of an override; those of the JSON library are texts. -/
inductive OverrideErr where
  | headerNameRequired | headerValueRequired | headerMappingEmpty | replacementInvalid
  | fromToRequired | sourceHeaderNotFound | syncTargetInvalid
  | library (text : String)

/-- The JSON and regular expression libraries, as far as the operations use them:
conditions, the operations on the body, the body's values by path, and the names of a
`pass_headers` value. -/
structure BodyLib where
  conditionsParse : Json → Bool
  checkConditions : String → OverrideContext → Json → String → Except OverrideErr Bool
  applyLegacy : List (String × Json) → String → Except OverrideErr String
  applyToBody : ParamOperation → OverrideContext → String → Except OverrideErr String
  read : String → String → Option Json
  write : String → String → Json → Except OverrideErr String
  passThroughNames : Json → Except OverrideErr (List String)
  regexp : String → Option (String → Bool)

/-- The non-empty entries of a list that is separated by commas. -/
def splitHeaderListValue (raw : String) : List String :=
  ((splitText ',' raw).map trimSpace).filter fun token => token ≠ ""

mutual
/-- The tokens of a replacement: none for null, those of a text or of a list; an object is refused.
-/
def parseHeaderReplacementTokens : Json → Except OverrideErr (List String)
  | .null => .ok []
  | .str s => .ok (splitHeaderListValue s)
  | .arr items => do return (← parseReplacementItems items).eraseDups
  | .obj _ => .error .replacementInvalid
  | .bool b => .ok [(Json.bool b).print]
  | .num text => .ok (if trimSpace text = "" then [] else [trimSpace text])

/-- The replacements of a list, one after another. -/
def parseReplacementItems : List Json → Except OverrideErr (List String)
  | [] => .ok []
  | v :: vs => do return (← parseHeaderReplacementTokens v) ++ (← parseReplacementItems vs)
end

/-- The header in force, or else the client's. -/
def getHeaderValueFromContext (ctx : OverrideContext) (name : String) : Option String :=
  let name := normalizeHeaderContextKey name
  if name = "" then none
  else [ctx.headerOverride, ctx.requestHeaders].findSome? fun source =>
    ((source.lookup name).map trimSpace).filter fun value => value ≠ ""

/-- The tokens that replace one token of a header, if the mapping names it. -/
def replacementOf (mapping : List (String × Json)) (keepOnlyDeclared : Bool) (token : String) :
    Option Json :=
  match Json.field mapping token with
  | some replacement => some replacement
  | none => if keepOnlyDeclared then none else Json.field mapping "*"

/-- Tokens that are not declared are kept or dropped, as the mapping says. -/
def resolveTokens (mapping : List (String × Json)) (keepOnlyDeclared : Bool) :
    List String → Except OverrideErr (List String)
  | [] => .ok []
  | token :: tokens => do
    let first ← match replacementOf mapping keepOnlyDeclared token with
      | some replacement => parseHeaderReplacementTokens replacement
      | none => pure (if keepOnlyDeclared then [] else [token])
    return first ++ (← resolveTokens mapping keepOnlyDeclared tokens)

/-- A mapping replaces the entries of the header that is there, and may append others. -/
def resolveHeaderOverrideValueByMapping (ctx : OverrideContext) (name : String)
    (mapping : List (String × Json)) : Except OverrideErr (Option String) := do
  if mapping = [] then throw .headerMappingEmpty
  let appendTokens ← match Json.field mapping "$append" with
    | none => pure []
    | some tokens => parseHeaderReplacementTokens tokens
  let keepOnlyDeclared := match Json.field mapping "$keep_only_declared" with
    | some (.bool b) => b
    | _ => false
  let sourceTokens := (getHeaderValueFromContext ctx name).elim [] splitHeaderListValue
  let resultTokens := ((← resolveTokens mapping keepOnlyDeclared sourceTokens) ++
    appendTokens).eraseDups
  return if resultTokens = [] then none else some (",".intercalate resultTokens)

/-- A blank value gives none, and the header is deleted. -/
def resolveHeaderOverrideValue (ctx : OverrideContext) (name : String) :
    Json → Except OverrideErr (Option String)
  | .null => .error .headerValueRequired
  | .obj mapping => resolveHeaderOverrideValueByMapping ctx name mapping
  | value => .ok (if trimSpace value.print = "" then none else some (trimSpace value.print))

/-- With `keepOrigin` a header that was set before is left alone. -/
def setHeaderOverrideInContext (name : String) (value : Json) (keepOrigin : Bool)
    (ctx : OverrideContext) : Except OverrideErr OverrideContext := do
  let name := normalizeHeaderContextKey name
  if name = "" then throw .headerNameRequired
  if keepOrigin && ((ctx.headerOverride.lookup name).map trimSpace).any (fun v => v ≠ "") then
    return ctx
  match ← resolveHeaderOverrideValue ctx name value with
  | none => return { ctx with headerOverride := ctx.headerOverride.delete name }
  | some text => return { ctx with headerOverride := ctx.headerOverride.set name text }

/-- The header is taken out of what is sent. -/
def deleteHeaderOverrideInContext (name : String) (ctx : OverrideContext) :
    Except OverrideErr OverrideContext := do
  let name := normalizeHeaderContextKey name
  if name = "" then throw .headerNameRequired
  return { ctx with headerOverride := ctx.headerOverride.delete name }

/-- The value of one header is set for another. -/
def copyHeaderInContext (fromHeader toHeader : String) (keepOrigin : Bool)
    (ctx : OverrideContext) : Except OverrideErr OverrideContext := do
  let fromHeader := normalizeHeaderContextKey fromHeader
  let toHeader := normalizeHeaderContextKey toHeader
  if fromHeader = "" ∨ toHeader = "" then throw .fromToRequired
  match getHeaderValueFromContext ctx fromHeader with
  | none => throw .sourceHeaderNotFound
  | some value => setHeaderOverrideInContext toHeader (.str value) keepOrigin ctx

/-- A header that is moved onto itself is not deleted. -/
def moveHeaderInContext (fromHeader toHeader : String) (keepOrigin : Bool)
    (ctx : OverrideContext) : Except OverrideErr OverrideContext := do
  let fromHeader := normalizeHeaderContextKey fromHeader
  let toHeader := normalizeHeaderContextKey toHeader
  if fromHeader = "" ∨ toHeader = "" then throw .fromToRequired
  let ctx ← copyHeaderInContext fromHeader toHeader keepOrigin ctx
  if equalFold fromHeader toHeader then return ctx
  deleteHeaderOverrideInContext fromHeader ctx

/-- A source header that is not there leaves the context as it is. -/
def unlessMissing (ctx : OverrideContext) :
    Except OverrideErr OverrideContext → Except OverrideErr OverrideContext
  | .error .sourceHeaderNotFound => .ok ctx
  | result => result

/-- Each header of the client is copied to its own name; a missing one is passed over. -/
def passHeaders (keepOrigin : Bool) : List String → OverrideContext →
    Except OverrideErr OverrideContext
  | [], ctx => .ok ctx
  | name :: names, ctx => do
    passHeaders keepOrigin names (← unlessMissing ctx (copyHeaderInContext name name keepOrigin ctx))

/-- One side of a synchronisation: a field of the body or a header. -/
inductive SyncTarget where
  | json (path : String)
  | header (name : String)

/-- A target without a kind is a field of the body. -/
def parseSyncTarget (spec : String) : Except OverrideErr SyncTarget := do
  let raw := trimSpace spec
  if raw = "" then throw .syncTargetInvalid
  match splitText ':' raw with
  | [] | [_] => return .json raw
  | kind :: rest =>
    let key := trimSpace (":".intercalate rest)
    if key = "" then throw .syncTargetInvalid
    let kind := toLower (trimSpace kind)
    if kind = "json" ∨ kind = "body" then return .json key
    if kind = "header" then return .header key
    throw .syncTargetInvalid

/-- What a side holds, if anything. -/
def readSyncTargetValue (lib : BodyLib) (body : String) (ctx : OverrideContext) :
    SyncTarget → Option Json
  | .json path => lib.read body path
  | .header name => (getHeaderValueFromContext ctx name).map Json.str

/-- Writes a side: the body changes, or the headers do. -/
def writeSyncTargetValue (lib : BodyLib) (body : String) (ctx : OverrideContext)
    (target : SyncTarget) (value : Json) : Except OverrideErr (String × OverrideContext) :=
  match target with
  | .json path => do return (← lib.write body path value, ctx)
  | .header name => do return (body, ← setHeaderOverrideInContext name value false ctx)

/-- The side that is missing gets the value of the other; if both are there, nothing happens. -/
def syncFieldsBetweenTargets (lib : BodyLib) (fromSpec toSpec : String) (body : String)
    (ctx : OverrideContext) : Except OverrideErr (String × OverrideContext) := do
  let source ← parseSyncTarget fromSpec
  let target ← parseSyncTarget toSpec
  match readSyncTargetValue lib body ctx source, readSyncTargetValue lib body ctx target with
  | some value, none => writeSyncTargetValue lib body ctx target value
  | none, some value => writeSyncTargetValue lib body ctx source value
  | _, _ => return (body, ctx)

/-- The name of an operation, or its path where it has none. -/
def orElse (name fallback : String) : String :=
  if trimSpace name = "" then trimSpace fallback else trimSpace name

/-- The operations on headers leave the body alone; all others are the JSON library's. -/
def applyOperation (lib : BodyLib) (op : ParamOperation) (body : String) (ctx : OverrideContext) :
    Except OverrideErr (String × OverrideContext) :=
  let onHeaders (r : Except OverrideErr OverrideContext) := r.map fun ctx => (body, ctx)
  match op.mode with
  | "set_header" => onHeaders (setHeaderOverrideInContext op.path op.value op.keepOrigin ctx)
  | "delete_header" => onHeaders (deleteHeaderOverrideInContext op.path ctx)
  | "copy_header" => onHeaders (unlessMissing ctx (copyHeaderInContext
      (orElse op.source op.path) (orElse op.target op.path) op.keepOrigin ctx))
  | "move_header" => onHeaders (unlessMissing ctx (moveHeaderInContext
      (orElse op.source op.path) (orElse op.target op.path) op.keepOrigin ctx))
  | "pass_headers" => onHeaders (do passHeaders op.keepOrigin (← lib.passThroughNames op.value) ctx)
  | "sync_fields" => syncFieldsBetweenTargets lib op.source op.target body ctx
  | _ => (lib.applyToBody op ctx body).map fun body => (body, ctx)

/-- An operation whose conditions do not hold is passed over. -/
def applyOperations (lib : BodyLib) : List ParamOperation → String → OverrideContext →
    Except OverrideErr (String × OverrideContext)
  | [], body, ctx => .ok (body, ctx)
  | op :: ops, body, ctx => do
    if ← lib.checkConditions body ctx op.conditions op.logic then
      let r ← applyOperation lib op body ctx
      applyOperations lib ops r.1 r.2
    else applyOperations lib ops body ctx

/-- A field that is no text counts as empty. -/
def textField (fields : List (String × Json)) (key : String) : String :=
  match Json.field fields key with
  | some (.str s) => s
  | _ => ""

/-- An operation needs a mode, and conditions that can be read. -/
def parseOperation (lib : BodyLib) : Json → Option ParamOperation
  | .obj fields =>
    match Json.field fields "mode" with
    | some (.str mode) =>
      if (Json.field fields "conditions").all lib.conditionsParse then
        some
          { path := textField fields "path"
            mode := mode
            value := (Json.field fields "value").getD .null
            keepOrigin := match Json.field fields "keep_origin" with
              | some (.bool b) => b
              | _ => false
            source := textField fields "from"
            target := textField fields "to"
            conditions := (Json.field fields "conditions").getD .null
            logic := match Json.field fields "logic" with
              | some (.str logic) => logic
              | _ => "OR" }
      else none
    | _ => none
  | _ => none

/-- An override with a list of operations, all of which can be read. -/
def tryParseOperations (lib : BodyLib) (paramOverride : List (String × Json)) :
    Option (List ParamOperation) :=
  match Json.field paramOverride "operations" with
  | some (.arr items) => items.mapM (parseOperation lib)
  | _ => none

/-- What stands beside the operations is an override in the old form. -/
def buildLegacyParamOverride (paramOverride : List (String × Json)) : List (String × Json) :=
  paramOverride.filter fun e => !equalFold (trimSpace e.1) "operations"

/-- The old form is applied first, then the operations in their order. -/
def applyParamOverride (lib : BodyLib) (body : String) (paramOverride : List (String × Json))
    (ctx : OverrideContext) : Except OverrideErr (String × OverrideContext) :=
  if paramOverride.isEmpty then .ok (body, ctx)
  else
    match tryParseOperations lib paramOverride with
    | some operations => do
      let legacy := buildLegacyParamOverride paramOverride
      let body ← if legacy.isEmpty then pure body else lib.applyLegacy legacy body
      applyOperations lib operations body ctx
    | none => do return (← lib.applyLegacy paramOverride body, ctx)

end NewApi.Headers
