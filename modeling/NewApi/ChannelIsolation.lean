import NewApi.HeaderOverride
import NewApi.Runs

/-!
# Retries on other channels

A request is tried on one channel after another. Each attempt writes the channel into the
request's context and into the relay info, and sends what these then say. Both outlive the
attempt, so what an attempt does not write is still that of a channel tried before.
-/
namespace NewApi.Headers

/-- The modes that the code tells apart here. -/
inductive RelayMode where
  | chatCompletions | audioTranscription | audioTranslation | realtime | responsesCompact
  | other (mode : ℤ)
  deriving DecidableEq

/-- What the client has sent, as far as the attempts read it. -/
structure Request where
  model : String
  relayMode : RelayMode
  isStream : Bool
  urlPath : String
  headers : HeaderMap
  isChannelTest : Bool
  /-- The parameters that the affinity rule of the request adds on every channel. -/
  paramTemplate : List (String × Json)

def channelTypeOpenAI : ℤ := 1
def channelTypeAzure : ℤ := 3
def channelTypeAli : ℤ := 17
def channelTypeOpenRouter : ℤ := 20

/-- The configuration of a channel. A model mapping that does not parse is `none`. -/
structure Channel where
  (id type : ℤ)
  (paramOverride headerOverride : List (String × Json))
  organization : Option String
  modelMapping : Option (List (String × String))
  passThroughBodyEnabled : Bool
  (otherSettings other : String)

/-- The keys of the request's context that reach a header. -/
structure GinContext where
  originalModel : String
  (channelId channelType : ℤ)
  passThroughBodyEnabled : Bool
  otherSettings : String
  (paramOverride headerOverride : List (String × Json))
  organization : String
  modelMapping : Option (List (String × String))
  (key plugin : String)
  requestHeaders : HeaderMap

/-- What an attempt reads of its channel. -/
structure ChannelMeta where
  (channelId channelType : ℤ)
  (apiKey organization : String)
  passThroughBodyEnabled : Bool
  otherSettings : String
  (paramOverride headersOverride : List (String × Json))
  upstreamModelName : String
  isModelMapped : Bool

/-- The relay's record of the request, which all attempts share. -/
structure RelayInfo where
  channel : ChannelMeta
  originModelName : String
  relayMode : RelayMode
  isStream : Bool
  requestURLPath : String
  requestHeaders : HeaderMap
  isChannelTest : Bool
  retryIndex : ℤ
  lastError : Option LastError
  useRuntimeHeadersOverride : Bool
  runtimeHeadersOverride : HeaderMap

/-- Before the first channel is selected. -/
def ChannelMeta.blank : ChannelMeta := ⟨0, 0, "", "", false, "", [], [], "", false⟩

/-- The first value of a header; names are compared without case. -/
def getHeader (headers : HeaderMap) (name : String) : String :=
  ((headers.find? fun e => equalFold e.1 name).map Prod.snd).getD ""

/-- The client's headers that have a value. -/
def cloneRequestHeaders (headers : HeaderMap) : HeaderMap :=
  headers.filterMap fun e =>
    let value := trimSpace (getHeader headers e.1)
    if value = "" then none else some (e.1, value)

/-- What one attempt leaves to the next. -/
structure RelayState where
  context : GinContext
  info : RelayInfo

/-- The state before the first attempt. -/
def Request.start (req : Request) : RelayState where
  context := ⟨"", 0, 0, false, "", [], [], "", none, "", "", req.headers⟩
  info :=
    { channel := .blank
      originModelName := req.model
      relayMode := req.relayMode
      isStream := req.isStream
      requestURLPath := req.urlPath
      requestHeaders := cloneRequestHeaders req.headers
      isChannelTest := req.isChannelTest
      retryIndex := 0
      lastError := none
      useRuntimeHeadersOverride := false
      runtimeHeadersOverride := [] }

/-- The key under which an override has its operations. -/
def isOperations (key : String) : Bool := equalFold (trimSpace key) "operations"

def setField (m : List (String × Json)) (key : String) (value : Json) : List (String × Json) :=
  if (m.lookup key).isSome then m.map fun e => if e.1 = key then (key, value) else e
  else m ++ [(key, value)]

/-- The template's operations come first; of other keys the channel's value stays. -/
def mergeEntry (out : List (String × Json)) (e : String × Json) : List (String × Json) :=
  match isOperations e.1, e.2, Json.field out e.1 with
  | true, .arr tplOps, some (.arr baseOps) => setField out e.1 (.arr (tplOps ++ baseOps))
  | true, .arr tplOps, _ => setField out e.1 (.arr tplOps)
  | _, _, some _ => out
  | _, value, none => setField out e.1 value

/-- The channel's override with what the affinity rule adds. -/
def mergeChannelOverride (base tpl : List (String × Json)) : List (String × Json) :=
  tpl.foldl mergeEntry base

/-- Writes the channel's settings into the context, where some may be left from an earlier channel.
-/
def setupContextForSelectedChannel (req : Request) (channel : Channel) (modelName key : String)
    (c : GinContext) : GinContext :=
  { c with
    originalModel := modelName
    channelId := channel.id
    channelType := channel.type
    passThroughBodyEnabled := channel.passThroughBodyEnabled
    otherSettings := channel.otherSettings
    paramOverride := mergeChannelOverride channel.paramOverride req.paramTemplate
    headerOverride := channel.headerOverride
    organization := match channel.organization with
      | some organization => if organization ≠ "" then organization else c.organization
      | none => c.organization
    modelMapping := channel.modelMapping
    key := key
    plugin := if channel.type = channelTypeAli then channel.other else c.plugin }

/-- Reads the channel back from the context. -/
def RelayInfo.initChannelMeta (info : RelayInfo) (c : GinContext) : RelayInfo :=
  { info with
    channel :=
      { channelId := c.channelId
        channelType := c.channelType
        apiKey := c.key
        organization := c.organization
        passThroughBodyEnabled := c.passThroughBodyEnabled
        otherSettings := c.otherSettings
        paramOverride := c.paramOverride
        headersOverride := c.headerOverride
        upstreamModelName := c.originalModel
        isModelMapped := false } }

/-- The errors of `ResolveModelMapping`. The last one is none of the source, whose loop has no
bound: it tells a loop that is cut off apart from one that has come back to a name. -/
inductive MappingError
  | unmarshalFailed
  | containsCycle
  | unfinished

/-- Follows the mapping from one name to the next; a name that comes back is an error. -/
def followMapping (mapping : List (String × String)) :
    ℕ → List String → String → Except MappingError String
  | 0, _, _ => .error .unfinished
  | fuel + 1, visited, current =>
    let next := trimSpace ((mapping.lookup current).getD "")
    if next = "" ∨ next = current then .ok current
    else if next ∈ visited then .error .containsCycle
    else followMapping mapping fuel (next :: visited) next

/-- The name that the mapping leads to, and whether it is another one. -/
def resolveModelMapping (modelName : String) :
    Option (List (String × String)) → Except MappingError (String × Bool)
  | none => .error .unmarshalFailed
  | some mapping =>
    (followMapping mapping (mapping.length + 1) [modelName] modelName).map fun upstream =>
      (upstream, decide (upstream ≠ modelName))

def compactModelSuffix : String := "-openai-compact"

/-- The suffix is added once. -/
def withCompactModelSuffix (name : String) : String :=
  if hasSuffix name compactModelSuffix then name else name ++ compactModelSuffix

/-- The names that a mapping gives. -/
structure ModelNames where
  (origin upstream : String)
  isMapped : Bool

/-- The names after the mapping. A compaction request is mapped without its suffix, and the
name it was asked for is replaced by the one it is mapped to. -/
def mappedNames (mode : RelayMode) (origin : String) (mapping : Option (List (String × String))) :
    Except MappingError ModelNames :=
  if mode = .responsesCompact then
    let name := trimSuffix origin compactModelSuffix
    (resolveModelMapping name mapping).map fun r =>
      let upstream := if r.2 ∧ r.1 ≠ "" then r.1 else name
      ⟨withCompactModelSuffix upstream, upstream, r.2⟩
  else (resolveModelMapping origin mapping).map fun r => ⟨origin, r.1, r.2⟩

/-- The upstream's name is set anew for each attempt. -/
def modelMappedHelper (c : GinContext) (info : RelayInfo) : Except MappingError RelayInfo :=
  (mappedNames info.relayMode info.originModelName c.modelMapping).map fun names =>
    { info with
      originModelName := names.origin
      channel := { info.channel with
        upstreamModelName := names.upstream
        isModelMapped := names.isMapped } }

/-- The headers that an override has computed replace those of the channel. -/
def getEffectiveHeaderOverride (info : RelayInfo) : HeaderMap :=
  if info.useRuntimeHeadersOverride then sanitizeHeaderOverrideMap info.runtimeHeadersOverride.values
  else sanitizeHeaderOverrideMap info.channel.headersOverride

/-- The client's headers as the conditions of an override read them. -/
def buildRequestHeadersContext (headers : HeaderMap) : HeaderMap :=
  (headers.map fun e => (normalizeHeaderContextKey e.1, trimSpace e.2)).filter fun e =>
    e.1 ≠ "" ∧ e.2 ≠ ""

def buildParamOverrideContext (info : RelayInfo) : OverrideContext where
  upstreamModel := info.channel.upstreamModelName
  originalModel := info.originModelName
  requestPath := info.requestURLPath
  requestHeaders := buildRequestHeadersContext info.requestHeaders
  headerOverride := sanitizeHeaderOverrideMap (getEffectiveHeaderOverride info).values
  retryIndex := info.retryIndex
  lastError := info.lastError
  isChannelTest := info.isChannelTest

/-- The computed headers are kept in the request's record. -/
def syncRuntimeHeaderOverrideFromContext (ctx : OverrideContext) (info : RelayInfo) : RelayInfo :=
  { info with
    runtimeHeadersOverride := sanitizeHeaderOverrideMap ctx.headerOverride.values
    useRuntimeHeadersOverride := true }

/-- Without parameters the headers are not computed. -/
def applyParamOverrideWithRelayInfo (lib : BodyLib) (body : String) (info : RelayInfo) :
    Except OverrideErr (String × RelayInfo) :=
  if info.channel.paramOverride.isEmpty then .ok (body, info)
  else do
    let r ← applyParamOverride lib body info.channel.paramOverride (buildParamOverrideContext info)
    return (r.1, syncRuntimeHeaderOverrideFromContext r.2 info)

/-- Headers of the client that are never passed on. -/
def passthroughSkipHeaderNamesLower : List String :=
  ["connection", "keep-alive", "proxy-authenticate", "proxy-authorization", "te", "trailer",
    "transfer-encoding", "upgrade", "cookie", "host", "content-length", "accept-encoding",
    "authorization", "x-api-key", "x-goog-api-key", "sec-websocket-key",
    "sec-websocket-version", "sec-websocket-extensions"]

/-- Whether a header of the client stays behind. -/
def shouldSkipPassthroughHeader (name : String) : Bool :=
  let name := trimSpace name
  decide (name = "") || decide (toLower name ∈ passthroughSkipHeaderNamesLower)

def clientHeaderPlaceholder : String := "\x7bclient_header:"

/-- The value with its placeholders filled in; `none` leaves the header out. -/
def applyHeaderOverridePlaceholders (template : String) (clientHeaders : HeaderMap)
    (apiKey : String) : Except OverrideErr (Option String) :=
  let trimmed := trimSpace template
  if startsWith trimmed clientHeaderPlaceholder then
    match splitChars '}' (trimmed.toList.drop clientHeaderPlaceholder.toList.length) with
    | [name, []] =>
      let name := trimSpace (String.ofList name)
      if name = "" then .error (.library "client_header placeholder name is empty")
      else
        let value := getHeader clientHeaders name
        .ok (if trimSpace value = "" then none else some value)
    | _ => .error (.library "client_header placeholder must be the full value")
  else
    let value := replaceAll template "\x7bapi_key\x7d" apiKey
    .ok (if trimSpace value = "" then none else some value)

/-- The regular expression of a rule, if the key is one. -/
def passthroughPattern (key : String) : Option String :=
  let key := trimSpace (toLower key)
  if startsWith key "re:" then some (trimSpace (String.ofList (key.toList.drop 3)))
  else if startsWith key "regex:" then some (trimSpace (String.ofList (key.toList.drop 6)))
  else none

/-- The patterns that select headers of the client; one that cannot be read fails the attempt. -/
def passthroughRules (lib : BodyLib) : List String → Except OverrideErr (List (String → Bool))
  | [] => .ok []
  | key :: keys =>
    match passthroughPattern key with
    | none => passthroughRules lib keys
    | some "" => .error (.library "header passthrough regex pattern is empty")
    | some pattern =>
      match lib.regexp pattern with
      | none => .error (.library "error parsing regexp")
      | some rule => do return rule :: (← passthroughRules lib keys)

/-- A key that selects headers of the client. -/
def isHeaderPassthroughRuleKey (key : String) : Bool :=
  let key := trimSpace key
  decide (key = "*") || startsWith (toLower key) "re:" || startsWith (toLower key) "regex:"

/-- The headers of the client that the rules select. -/
def passedHeaders (passAll : Bool) (rules : List (String → Bool)) (clientHeaders : HeaderMap) :
    HeaderMap :=
  clientHeaders.foldl (fun out e =>
    let value := trimSpace (getHeader clientHeaders e.1)
    if shouldSkipPassthroughHeader e.1 then out
    else if !passAll && !rules.any (fun rule => rule e.1) then out
    else if value = "" then out
    else HeaderMap.set out (toLower (trimSpace e.1)) value) []

/-- The named headers of a channel, with the placeholders replaced. -/
def overrideHeaders (isChannelTest : Bool) (clientHeaders : HeaderMap) (apiKey : String) :
    HeaderMap → HeaderMap → Except OverrideErr HeaderMap
  | [], out => .ok out
  | (k, v) :: rest, out =>
    let key := trimSpace (toLower k)
    if isHeaderPassthroughRuleKey k ∨ key = "" ∨
        (isChannelTest ∧ startsWith (trimSpace v) clientHeaderPlaceholder) then
      overrideHeaders isChannelTest clientHeaders apiKey rest out
    else do
      match ← applyHeaderOverridePlaceholders v clientHeaders apiKey with
      | none => overrideHeaders isChannelTest clientHeaders apiKey rest out
      | some value =>
        overrideHeaders isChannelTest clientHeaders apiKey rest (HeaderMap.set out key value)

/-- Rules that let client headers through come first, so that the other headers win. -/
def processHeaderOverride (lib : BodyLib) (info : RelayInfo) (clientHeaders : HeaderMap) :
    Except OverrideErr HeaderMap := do
  let source := getEffectiveHeaderOverride info
  let passAll := !info.isChannelTest && source.any fun e => trimSpace (toLower e.1) = "*"
  let rules ← if info.isChannelTest then pure [] else passthroughRules lib (source.map Prod.fst)
  overrideHeaders info.isChannelTest clientHeaders info.channel.apiKey source
    (passedHeaders passAll rules clientHeaders)

/-- What converting the request for an upstream leaves behind: the body, or `none` if it
cannot be converted, and the fields that some adaptors overwrite on the way. -/
structure Conversion where
  (body originModelName upstreamModelName requestURLPath contentType : Option String)
  forcesStream : Bool

/-- The conversion overwrites nothing that outlives the attempt. -/
structure Conversion.Quiet (c : Conversion) : Prop where
  model : c.originModelName = none
  path : c.requestURLPath = none
  contentType : c.contentType = none
  stream : c.forcesStream = false

/-- What the adaptors of the upstreams do. The headers of the channel types that the `openai`
adaptor serves are modelled below; only that adaptor reads the organization, and only the one
of Ali reads the plugin. -/
structure Upstreams where
  passThroughRequestEnabled : Bool
  openAICompatible : ℤ → Bool
  setupRequestHeader : RelayInfo → String → HeaderMap → Except OverrideErr HeaderMap
  convert : RelayInfo → Conversion
  /-- The adaptors that overwrite fields of the request. -/
  rewrites : ℤ → RelayMode → Bool
  convert_quiet : ∀ info, rewrites info.channel.channelType info.relayMode = false →
    (convert info).Quiet

/-- What an adaptor other than OpenAI's can read. -/
def RelayInfo.withoutOrganization (info : RelayInfo) : RelayInfo :=
  { info with channel := { info.channel with organization := "" } }

/-- The headers that every adaptor starts with; forms and sockets set their own. -/
def setupApiRequestHeader (info : RelayInfo) (clientHeaders : HeaderMap) : HeaderMap :=
  if info.relayMode = .audioTranscription ∨ info.relayMode = .audioTranslation ∨
      info.relayMode = .realtime then []
  else
    let accept := getHeader clientHeaders "Accept"
    [("content-type", getHeader clientHeaders "Content-Type"),
      ("accept", if info.isStream ∧ accept = "" then "text/event-stream" else accept)]

/-- What `DoFormRequest` has set before the adaptor, in the modes for which it adds nothing itself. -/
def formRequestHeader (info : RelayInfo) (clientHeaders : HeaderMap) : HeaderMap :=
  if info.relayMode = .audioTranscription ∨ info.relayMode = .audioTranslation then
    [("content-type", getHeader clientHeaders "Content-Type")]
  else []

/-- The channel sets the authorization itself. -/
def hasAuthOverride (info : RelayInfo) : Bool :=
  info.channel.headersOverride.any fun e => equalFold e.1 "Authorization"

/-- The channel's key, unless the channel sets the header. -/
def authorize (info : RelayInfo) (h : HeaderMap) : HeaderMap :=
  if hasAuthOverride info then h else h.set "authorization" ("Bearer " ++ info.channel.apiKey)

/-- Sets a header that has no value. -/
def setIfBlank (key value : String) (h : HeaderMap) : HeaderMap :=
  if (h.lookup key).getD "" = "" then h.set key value else h

/-- The organization is sent for OpenAI's own channels. -/
def organize (info : RelayInfo) (h : HeaderMap) : HeaderMap :=
  if info.channel.channelType = channelTypeOpenAI ∧ info.channel.organization ≠ "" then
    h.set "openai-organization" info.channel.organization
  else h

/-- The headers that OpenAI's adaptor sends. -/
def openAIHeaders (info : RelayInfo) (clientHeaders : HeaderMap) : HeaderMap :=
  let h := formRequestHeader info clientHeaders ++ setupApiRequestHeader info clientHeaders
  if info.channel.channelType = channelTypeAzure then h.set "api-key" info.channel.apiKey
  else
    let h := organize info h
    let h := if info.relayMode = .realtime then
        if getHeader clientHeaders "Sec-WebSocket-Protocol" ≠ "" then
          h.set "sec-websocket-protocol"
            ("realtime,openai-insecure-api-key." ++ info.channel.apiKey ++
              ",openai-beta.realtime-v1")
        else authorize info (h.set "openai-beta" "realtime=v1")
      else authorize info h
    if info.channel.channelType = channelTypeOpenRouter then
      setIfBlank "x-openrouter-title" "New API"
        (setIfBlank "http-referer" "https://www.newapi.ai" h)
    else h

/-- The types of channels that OpenAI's adaptor serves. -/
def servedByOpenAI (up : Upstreams) (channelType : ℤ) : Bool :=
  decide (channelType ∈ [channelTypeOpenAI, channelTypeAzure, channelTypeOpenRouter]) ||
    up.openAICompatible channelType

/-- The headers of the adaptor that serves the channel. -/
def adaptorHeaders (up : Upstreams) (c : GinContext) (info : RelayInfo) :
    Except OverrideErr HeaderMap :=
  if servedByOpenAI up info.channel.channelType then .ok (openAIHeaders info c.requestHeaders)
  else up.setupRequestHeader info.withoutOrganization
    (if info.channel.channelType = channelTypeAli then c.plugin else "") c.requestHeaders

/-- The channel's headers come last and win. -/
def applyHeaderOverrideToRequest (h override : HeaderMap) : HeaderMap :=
  override.foldl (fun h e => HeaderMap.set h e.1 e.2) h

/-- The headers of the request to the upstream. The override comes last, but for the content type
of a realtime session, which `DoWssRequest` sets after it. -/
def doApiRequest (lib : BodyLib) (up : Upstreams) (c : GinContext) (info : RelayInfo) :
    Except OverrideErr HeaderMap := do
  let h ← adaptorHeaders up c info
  let h := applyHeaderOverrideToRequest h (← processHeaderOverride lib info c.requestHeaders)
  return if servedByOpenAI up info.channel.channelType ∧ info.relayMode = .realtime then
      h.set "content-type" (getHeader c.requestHeaders "Content-Type")
    else h

/-- One attempt: the channel with the key it uses, its place in the loop, whether the upstream
answers with an event stream, and the error with which the attempt ends. -/
structure Attempt where
  channel : Channel
  key : String
  retryIndex : ℤ
  eventStream : Bool
  error : LastError

/-- The body is sent on as it came. -/
def Attempt.passesBody (up : Upstreams) (a : Attempt) : Bool :=
  up.passThroughRequestEnabled || a.channel.passThroughBodyEnabled

/-- What the conversion of the body leaves in the context and in the record. -/
def Conversion.applyTo (conv : Conversion) (s : RelayState) : RelayState where
  context := { s.context with
    requestHeaders := match conv.contentType with
      | some contentType => s.context.requestHeaders.set "Content-Type" contentType
      | none => s.context.requestHeaders }
  info := { s.info with
    originModelName := conv.originModelName.getD s.info.originModelName
    requestURLPath := conv.requestURLPath.getD s.info.requestURLPath
    isStream := s.info.isStream || conv.forcesStream
    channel := { s.info.channel with
      upstreamModelName := conv.upstreamModelName.getD s.info.channel.upstreamModelName } }

/-- The state after a channel was selected. -/
def selected (req : Request) (a : Attempt) (s : RelayState) : RelayState :=
  let c := setupContextForSelectedChannel req a.channel s.info.originModelName a.key s.context
  ⟨c, { s.info with retryIndex := a.retryIndex }.initChannelMeta c⟩

/-- The body is converted and its parameters overridden, unless the client's is passed on. The
flag tells whether the request can be sent. -/
def prepared (lib : BodyLib) (up : Upstreams) (passesBody : Bool) (s : RelayState) :
    RelayState × Bool :=
  if passesBody then (s, true)
  else
    let conv := up.convert s.info.withoutOrganization
    let s := conv.applyTo s
    match conv.body with
    | none => (s, false)
    | some body =>
      match applyParamOverrideWithRelayInfo lib body s.info with
      | .error _ => (s, false)
      | .ok r => ({ s with info := r.2 }, true)

/-- The headers sent to the selected channel, if the attempt gets so far, and the state that
it leaves. -/
def relayToSelected (lib : BodyLib) (up : Upstreams) (a : Attempt) (s : RelayState) :
    RelayState × Option HeaderMap :=
  match modelMappedHelper s.context s.info with
  | .error _ => (s, none)
  | .ok info =>
    match prepared lib up (a.passesBody up) { s with info := info } with
    | (s, false) => (s, none)
    | (s, true) =>
      match doApiRequest lib up s.context s.info with
      | .error _ => (s, none)
      | .ok headers =>
        ({ s with info := { s.info with isStream := s.info.isStream || a.eventStream } },
          some headers)

/-- One attempt on the channel that was selected for it. -/
def relayAttempt (lib : BodyLib) (up : Upstreams) (req : Request) (a : Attempt)
    (s : RelayState) : RelayState × Option HeaderMap :=
  relayToSelected lib up a (selected req a s)

/-- A failed attempt leaves its error for the next one. -/
def failedAttempt (lib : BodyLib) (up : Upstreams) (req : Request) (a : Attempt)
    (s : RelayState) : RelayState :=
  let s := (relayAttempt lib up req a s).1
  { s with info := { s.info with lastError := some a.error } }

/-- The headers sent to the channel of `b` after the attempts before it have failed. -/
def sentAfter (lib : BodyLib) (up : Upstreams) (req : Request) (earlier : List Attempt)
    (b : Attempt) : Option HeaderMap :=
  (relayAttempt lib up req b (run (failedAttempt lib up req) earlier req.start)).2

section
variable {lib : BodyLib} {up : Upstreams}

/-- The state with another organization and another plugin in it. -/
def RelayState.withKeys (organization plugin : String) (s : RelayState) : RelayState where
  context := { s.context with organization := organization, plugin := plugin }
  info := { s.info with channel := { s.info.channel with organization := organization } }

/-- The keys of the other state are the same where an adaptor reads them. -/
structure SameKeys (organization plugin : String) (s : RelayState) : Prop where
  organization : s.info.channel.channelType = channelTypeOpenAI →
    organization = s.info.channel.organization
  plugin : s.info.channel.channelType = channelTypeAli → plugin = s.context.plugin

variable {organization plugin : String} {s : RelayState}

theorem modelMappedHelper_ok {c : GinContext} {info info' : RelayInfo}
    (h : modelMappedHelper c info = .ok info') :
    ∃ names, mappedNames info.relayMode info.originModelName c.modelMapping = .ok names ∧
      { info with
        originModelName := names.origin
        channel := { info.channel with
          upstreamModelName := names.upstream
          isModelMapped := names.isMapped } } = info' := by
  unfold modelMappedHelper at h
  cases hnm : mappedNames info.relayMode info.originModelName c.modelMapping with
  | error e => rw [hnm] at h; cases h
  | ok names =>
    rw [hnm] at h
    exact ⟨names, rfl, Except.ok.inj h⟩

theorem modelMappedHelper_withKeys : modelMappedHelper (s.withKeys organization plugin).context
        (s.withKeys organization plugin).info =
      (modelMappedHelper s.context s.info).map fun info =>
        (RelayState.withKeys organization plugin ⟨s.context, info⟩).info := by
  simp only [modelMappedHelper, RelayState.withKeys]
  cases mappedNames s.info.relayMode s.info.originModelName s.context.modelMapping <;> rfl

theorem applyParamOverrideWithRelayInfo_withKeys (body : String) :
    applyParamOverrideWithRelayInfo lib body (s.withKeys organization plugin).info =
      (applyParamOverrideWithRelayInfo lib body s.info).map fun r =>
        (r.1, (RelayState.withKeys organization plugin ⟨s.context, r.2⟩).info) := by
  have hcont : buildParamOverrideContext (s.withKeys organization plugin).info =
      buildParamOverrideContext s.info := rfl
  have hpar : (s.withKeys organization plugin).info.channel.paramOverride =
      s.info.channel.paramOverride := rfl
  simp only [applyParamOverrideWithRelayInfo, hcont, hpar]
  split
  · rfl
  · cases applyParamOverride lib body s.info.channel.paramOverride
      (buildParamOverrideContext s.info) <;> rfl

theorem prepared_withKeys (lib : BodyLib) (up : Upstreams) (passesBody : Bool) :
    prepared lib up passesBody (s.withKeys organization plugin) =
      ((prepared lib up passesBody s).1.withKeys organization plugin,
        (prepared lib up passesBody s).2) := by
  have hconv : up.convert (s.withKeys organization plugin).info.withoutOrganization =
      up.convert s.info.withoutOrganization := rfl
  unfold prepared
  rw [hconv]
  generalize up.convert s.info.withoutOrganization = conv
  have happly : conv.applyTo (s.withKeys organization plugin) =
      (conv.applyTo s).withKeys organization plugin := rfl
  dsimp only
  rw [happly]
  generalize conv.applyTo s = t
  cases passesBody with
  | true => rfl
  | false =>
    cases conv.body with
    | none => rfl
    | some body =>
      simp only [applyParamOverrideWithRelayInfo_withKeys]
      cases applyParamOverrideWithRelayInfo lib body t.info <;> rfl

theorem applyParamOverrideWithRelayInfo_ok {body : String} {info : RelayInfo}
    {r : String × RelayInfo} (h : applyParamOverrideWithRelayInfo lib body info = .ok r) :
    r.2 = info ∨ info.channel.paramOverride ≠ [] ∧
      ∃ ctx, r.2 = syncRuntimeHeaderOverrideFromContext ctx info := by
  unfold applyParamOverrideWithRelayInfo at h
  split at h
  · cases h
    exact .inl rfl
  next hne =>
    cases hout : applyParamOverride lib body info.channel.paramOverride
      (buildParamOverrideContext info) with
    | error e => rw [hout] at h; cases h
    | ok out =>
      rw [hout] at h
      cases h
      exact .inr ⟨fun hnil => hne (by rw [hnil]; rfl), out.2, rfl⟩

/-- How the preparation of the body can change the state. -/
inductive Prepared (up : Upstreams) (passesBody : Bool) (s : RelayState) : RelayState → Prop
  | passed (h : passesBody = true) : Prepared up passesBody s s
  | converted (h : passesBody = false) :
      Prepared up passesBody s ((up.convert s.info.withoutOrganization).applyTo s)
  | overridden (h : passesBody = false) (hparams : s.info.channel.paramOverride ≠ [])
      (ctx : OverrideContext) :
      Prepared up passesBody s
        { (up.convert s.info.withoutOrganization).applyTo s with
          info := syncRuntimeHeaderOverrideFromContext ctx
            ((up.convert s.info.withoutOrganization).applyTo s).info }

/-- All that the preparation of the body can leave behind. -/
theorem prepared_cases (lib : BodyLib) (up : Upstreams) (passesBody : Bool) (s : RelayState) :
    Prepared up passesBody s (prepared lib up passesBody s).1 := by
  unfold prepared
  cases passesBody with
  | true => exact .passed rfl
  | false =>
    simp only [Bool.false_eq_true, if_false]
    cases (up.convert s.info.withoutOrganization).body with
    | none => exact .converted rfl
    | some body =>
      dsimp only
      cases hover : applyParamOverrideWithRelayInfo lib body
        ((up.convert s.info.withoutOrganization).applyTo s).info with
      | error e => exact .converted rfl
      | ok r =>
        obtain hsame | ⟨hpar, ctx, hsync⟩ := applyParamOverrideWithRelayInfo_ok hover
        · dsimp only
          rw [hsame]
          exact .converted rfl
        have hown : s.info.channel.paramOverride ≠ [] := hpar
        dsimp only
        rw [hsync]
        exact .overridden rfl hown ctx

theorem SameKeys.prepared (h : SameKeys organization plugin s) (lib : BodyLib) (up : Upstreams)
    (passesBody : Bool) : SameKeys organization plugin (prepared lib up passesBody s).1 := by
  have heff := prepared_cases lib up passesBody s
  generalize (Headers.prepared lib up passesBody s).1 = t at heff ⊢
  cases heff with
  | passed => exact h
  | converted | overridden => exact ⟨h.organization, h.plugin⟩

theorem openAIHeaders_withKeys (h : SameKeys organization plugin s) (clientHeaders : HeaderMap) :
    openAIHeaders (s.withKeys organization plugin).info clientHeaders =
      openAIHeaders s.info clientHeaders := by
  have horga (m : HeaderMap) :
      organize (s.withKeys organization plugin).info m = organize s.info m := by
    by_cases htype : s.info.channel.channelType = channelTypeOpenAI
    · rw [h.organization htype]
      rfl
    · rw [organize, organize, if_neg (fun hand => htype hand.1), if_neg (fun hand => htype hand.1)]
  unfold openAIHeaders
  dsimp only
  rw [horga]
  rfl

theorem doApiRequest_withKeys (lib : BodyLib) (up : Upstreams)
    (h : SameKeys organization plugin s) :
    doApiRequest lib up (s.withKeys organization plugin).context
        (s.withKeys organization plugin).info =
      doApiRequest lib up s.context s.info := by
  have hadap : adaptorHeaders up (s.withKeys organization plugin).context
      (s.withKeys organization plugin).info = adaptorHeaders up s.context s.info := by
    have hopenai := openAIHeaders_withKeys h s.context.requestHeaders
    simp only [adaptorHeaders]
    rw [show (s.withKeys organization plugin).info.channel.channelType =
      s.info.channel.channelType from rfl]
    split_ifs
    · exact congrArg Except.ok hopenai
    · rename_i hali
      rw [show (s.withKeys organization plugin).context.plugin = plugin from rfl, h.plugin hali]
      rfl
    · rfl
  rw [doApiRequest, hadap]
  rfl

/-- The headers sent to a channel do not depend on keys that its adaptor does not read. -/
theorem relayToSelected_withKeys (h : SameKeys organization plugin s) (a : Attempt) :
    (relayToSelected lib up a (s.withKeys organization plugin)).2 =
      (relayToSelected lib up a s).2 := by
  unfold relayToSelected
  rw [modelMappedHelper_withKeys]
  cases hmap : modelMappedHelper s.context s.info with
  | error e => rfl
  | ok info =>
    have hmapped : SameKeys organization plugin ⟨s.context, info⟩ := by
      obtain ⟨names, -, rfl⟩ := modelMappedHelper_ok hmap
      exact ⟨h.organization, h.plugin⟩
    have hkeys : prepared lib up (a.passesBody up) ⟨(s.withKeys organization plugin).context,
        (RelayState.withKeys organization plugin ⟨s.context, info⟩).info⟩ = _ :=
      prepared_withKeys lib up (s := ⟨s.context, info⟩) (a.passesBody up)
    have hsent := doApiRequest_withKeys lib up (hmapped.prepared lib up (a.passesBody up))
    dsimp only [Except.map]
    rw [hkeys]
    generalize prepared lib up (a.passesBody up) ⟨s.context, info⟩ = r at hsent ⊢
    obtain ⟨t, ready⟩ := r
    cases ready with
    | false => rfl
    | true =>
      dsimp only at hsent ⊢
      rw [hsent]
      cases doApiRequest lib up t.context t.info <;> rfl

end

/-- The state of a request on which nothing has been left but the last error and the keys of
channels. -/
structure Untouched (req : Request) (s : RelayState) : Prop where
  origin : s.info.originModelName = req.model
  mode : s.info.relayMode = req.relayMode
  stream : s.info.isStream = req.isStream
  path : s.info.requestURLPath = req.urlPath
  cloned : s.info.requestHeaders = cloneRequestHeaders req.headers
  test : s.info.isChannelTest = req.isChannelTest
  runtime : s.info.useRuntimeHeadersOverride = false
  overrides : s.info.runtimeHeadersOverride = []
  client : s.context.requestHeaders = req.headers

/-- The channel sends an organization if one is set, and has none of its own. -/
def Attempt.TakesOrganization (b : Attempt) : Prop :=
  b.channel.type = channelTypeOpenAI ∧ b.channel.organization.getD "" = ""

/-- An attempt that leaves nothing for the headers of a later attempt `b`: no parameters are
overridden, no adaptor overwrites the request, the model keeps the name it was asked for, a
stream is only answered to a request for one, and an organization is only set if `b` does not
send one that it does not have itself. -/
structure CleanFor (up : Upstreams) (req : Request) (b a : Attempt) : Prop where
  params : a.passesBody up = true ∨
    mergeChannelOverride a.channel.paramOverride req.paramTemplate = []
  quiet : a.passesBody up = true ∨ up.rewrites a.channel.type req.relayMode = false
  model : ∀ names, mappedNames req.relayMode req.model a.channel.modelMapping = .ok names →
    names.origin = req.model
  stream : a.eventStream = true → req.isStream = true
  organization : b.TakesOrganization → a.channel.organization.getD "" = ""

section
variable {lib : BodyLib} {up : Upstreams} {req : Request} {s : RelayState} {a b : Attempt}

theorem Untouched.start (req : Request) : Untouched req req.start :=
  ⟨rfl, rfl, rfl, rfl, rfl, rfl, rfl, rfl, rfl⟩

theorem Untouched.selected (h : Untouched req s) (a : Attempt) : Untouched req (selected req a s) :=
  { h with }

theorem Untouched.applyTo (h : Untouched req s) {conv : Conversion} (hq : conv.Quiet) :
    Untouched req (conv.applyTo s) :=
  { h with
    origin := by simp [Conversion.applyTo, hq.model, h.origin]
    stream := by simp [Conversion.applyTo, hq.stream, h.stream]
    path := by simp [Conversion.applyTo, hq.path, h.path]
    client := by simp only [Conversion.applyTo, hq.contentType, h.client] }

theorem Untouched.prepared (h : Untouched req s) (lib : BodyLib) (hc : CleanFor up req b a)
    (htype : s.info.channel.channelType = a.channel.type) (hpar : s.info.channel.paramOverride =
      mergeChannelOverride a.channel.paramOverride req.paramTemplate) :
    Untouched req (prepared lib up (a.passesBody up) s).1 := by
  have heff := prepared_cases lib up (a.passesBody up) s
  have hqt : a.passesBody up = false → (up.convert s.info.withoutOrganization).Quiet := by
    intro hno
    apply up.convert_quiet
    obtain hyes | hqt := hc.quiet
    · rw [hno] at hyes
      cases hyes
    · rw [← htype, ← h.mode] at hqt
      exact hqt
  generalize (Headers.prepared lib up (a.passesBody up) s).1 = t at heff ⊢
  cases heff with
  | passed => exact h
  | converted hno => exact h.applyTo (hqt hno)
  | overridden hno hsome =>
    obtain hyes | hnone := hc.params
    · rw [hno] at hyes
      cases hyes
    · exact absurd (hpar.trans hnone) hsome

theorem prepared_organization (lib : BodyLib) (up : Upstreams) (passesBody : Bool)
    (s : RelayState) :
    (prepared lib up passesBody s).1.context.organization = s.context.organization := by
  have heff := prepared_cases lib up passesBody s
  generalize (prepared lib up passesBody s).1 = t at heff ⊢
  cases heff <;> rfl

theorem Untouched.answered (h : Untouched req s) (hc : CleanFor up req b a) :
    Untouched req ⟨s.context, { s.info with isStream := s.info.isStream || a.eventStream }⟩ := by
  have hstr : (s.info.isStream || a.eventStream) = req.isStream := by
    have hcln := hc.stream
    rw [h.stream]
    cases hevent : a.eventStream with
    | false => exact Bool.or_false _
    | true => rw [hcln hevent]; rfl
  exact { h with stream := hstr }

/-- After a clean attempt the request is as it was, and the organization that of the selected
channel. -/
theorem relayToSelected_untouched (lib : BodyLib) (h : Untouched req s) (hc : CleanFor up req b a)
    (htype : s.info.channel.channelType = a.channel.type)
    (hmapping : s.context.modelMapping = a.channel.modelMapping)
    (hpar : s.info.channel.paramOverride =
      mergeChannelOverride a.channel.paramOverride req.paramTemplate) :
    Untouched req (relayToSelected lib up a s).1 ∧
      (relayToSelected lib up a s).1.context.organization = s.context.organization := by
  unfold relayToSelected
  cases hmap : modelMappedHelper s.context s.info with
  | error e => exact ⟨h, rfl⟩
  | ok info =>
    obtain ⟨names, hnm, hinfo⟩ := modelMappedHelper_ok hmap
    rw [h.mode, h.origin, hmapping] at hnm
    have hmapped : Untouched req ⟨s.context, info⟩ := by
      subst hinfo
      exact { h with origin := hc.model names hnm }
    have hprep := hmapped.prepared lib hc (by rw [← hinfo, ← htype]) (by rw [← hinfo, ← hpar])
    have horg := prepared_organization lib up (a.passesBody up) ⟨s.context, info⟩
    dsimp only
    generalize prepared lib up (a.passesBody up) _ = r at hprep horg ⊢
    obtain ⟨t, ready⟩ := r
    cases ready with
    | false => exact ⟨hprep, horg⟩
    | true =>
      dsimp only
      cases doApiRequest lib up t.context t.info with
      | error e => exact ⟨hprep, horg⟩
      | ok headers => exact ⟨hprep.answered hc, horg⟩

/-- What holds before the attempt `b` if all attempts before it were clean. -/
structure ReadyFor (req : Request) (b : Attempt) (s : RelayState) : Prop where
  untouched : Untouched req s
  organization : b.TakesOrganization → s.context.organization = ""

theorem selected_organization (req : Request) (a : Attempt) (s : RelayState) :
    (selected req a s).context.organization =
      if a.channel.organization.getD "" ≠ "" then a.channel.organization.getD ""
      else s.context.organization := by
  cases h : a.channel.organization <;> simp [selected, setupContextForSelectedChannel, h]

theorem ReadyFor.failedAttempt (h : ReadyFor req b s) (hc : CleanFor up req b a) :
    ReadyFor req b (failedAttempt lib up req a s) := by
  obtain ⟨hunto, horg⟩ := relayToSelected_untouched lib (h.untouched.selected a) hc rfl rfl rfl
  refine ⟨{ hunto with }, fun htk => ?_⟩
  refine horg.trans ?_
  rw [selected_organization, if_neg (not_not.mpr (hc.organization htk))]
  exact h.organization htk

variable {earlier : List Attempt}

/-- Clean attempts leave nothing behind for the next one. -/
theorem readyFor_run (lib : BodyLib) (hcln : ∀ a ∈ earlier, CleanFor up req b a) :
    ReadyFor req b (run (failedAttempt lib up req) earlier req.start) := by
  have hst : ReadyFor req b req.start := ⟨.start req, fun _ => rfl⟩
  exact run_invariant_of_forall (fun _ _ ha h => h.failedAttempt ha) hcln hst

theorem run_lastError (earlier : List Attempt) :
    (run (failedAttempt lib up req) earlier req.start).info.lastError =
      earlier.getLast?.map Attempt.error := by
  induction earlier using List.reverseRecOn with
  | nil => rfl
  | append_singleton earlier a _ =>
    rw [run_append, List.getLast?_concat]
    rfl

/-- The state before a first attempt, but with a last error. -/
def Request.startAfter (req : Request) (lastError : Option LastError) : RelayState :=
  { req.start with info := { req.start.info with lastError := lastError } }

/-- Selecting a channel on an untouched request leaves what selecting it first does, up to the
keys it does not write. -/
theorem Untouched.selected_eq (h : Untouched req s) (b : Attempt) : Headers.selected req b s =
      (Headers.selected req b (req.startAfter s.info.lastError)).withKeys
        (Headers.selected req b s).context.organization
        (Headers.selected req b s).context.plugin := by
  obtain ⟨context, info⟩ := s
  obtain ⟨channel, origin, mode, stream, path, headers, test, index, lastError, use, runtime⟩ :=
    info
  obtain ⟨originalModel, channelId, channelType, passes, settings, params, overrides, organization,
    mapping, key, plugin, clientHeaders⟩ := context
  obtain ⟨rfl, rfl, rfl, rfl, rfl, rfl, rfl, rfl, rfl⟩ := h
  rfl

/-- The keys that a ready state leaves to `b` are those of a first attempt, where they are
read. -/
theorem ReadyFor.sameKeys (h : ReadyFor req b s) (lastError : Option LastError) :
    SameKeys (selected req b s).context.organization (selected req b s).context.plugin
      (selected req b (req.startAfter lastError)) where
  organization := by
    intro htype
    change _ = (selected req b (req.startAfter lastError)).context.organization
    rw [selected_organization, selected_organization]
    split_ifs with hown
    · rfl
    · exact h.organization ⟨htype, not_not.mp hown⟩
  plugin := by
    intro htype
    have hali : b.channel.type = channelTypeAli := htype
    simp [selected, setupContextForSelectedChannel, hali]

/-- After clean attempts, what is sent to a channel is what would be sent to it first. -/
theorem sentAfter_eq_alone (hcln : ∀ a ∈ earlier, CleanFor up req b a) :
    sentAfter lib up req earlier b =
      (relayAttempt lib up req b (req.startAfter (earlier.getLast?.map Attempt.error))).2 := by
  have hrdy := readyFor_run lib hcln
  unfold sentAfter relayAttempt
  rw [hrdy.untouched.selected_eq b, run_lastError]
  exact relayToSelected_withKeys (hrdy.sameKeys _) b

/-- If every earlier attempt of two histories of a request was clean, and both end with the
same error, a channel is sent the same headers after either of them. -/
theorem retries_isolated (lib : BodyLib) (up : Upstreams) (req : Request)
    (first second : List Attempt) (b : Attempt)
    (hlast : first.getLast?.map Attempt.error = second.getLast?.map Attempt.error)
    (hfirst : ∀ a ∈ first, CleanFor up req b a) (hsecond : ∀ a ∈ second, CleanFor up req b a) :
    sentAfter lib up req first b = sentAfter lib up req second b := by
  rw [sentAfter_eq_alone hfirst, sentAfter_eq_alone hsecond, hlast]

end

def plainLib : BodyLib where
  conditionsParse := fun _ => true
  checkConditions := fun _ _ _ _ => .ok true
  applyLegacy := fun _ body => .ok body
  applyToBody := fun _ _ body => .ok body
  read := fun _ _ => none
  write := fun body _ _ => .ok body
  passThroughNames := fun _ => .ok []
  regexp := fun _ => none

def plainUpstreams : Upstreams where
  passThroughRequestEnabled := false
  openAICompatible := fun _ => false
  setupRequestHeader := fun _ _ _ => .ok []
  convert := fun _ => ⟨some "\x7b\x7d", none, none, none, none, false⟩
  rewrites := fun _ _ => false
  convert_quiet := fun _ _ => ⟨rfl, rfl, rfl, rfl⟩

def chatRequest : Request := ⟨"gpt-4o", .chatCompletions, false, "/v1/chat/completions", [], false, []⟩

def plainChannel (id : ℤ) : Channel := ⟨id, channelTypeOpenAI, [], [], none, some [], false, "", ""⟩

def unavailable : LastError := ⟨503, "unavailable", "bad_response", "upstream_error", false⟩

def attemptOn (channel : Channel) (key : String) (retryIndex : ℤ) : Attempt :=
  ⟨channel, key, retryIndex, false, unavailable⟩

def labelledChannel : Channel :=
  { plainChannel 3 with headerOverride := [("X-Channel", .str "three")] }

theorem retries_isolated_sample :
    sentAfter plainLib plainUpstreams chatRequest [attemptOn (plainChannel 1) "sk-1" 0]
        (attemptOn labelledChannel "sk-3" 1) =
      sentAfter plainLib plainUpstreams chatRequest [attemptOn (plainChannel 2) "sk-2" 0]
        (attemptOn labelledChannel "sk-3" 1) := by
  have hcln (id : ℤ) (key : String) : CleanFor plainUpstreams chatRequest
      (attemptOn labelledChannel "sk-3" 1) (attemptOn (plainChannel id) key 0) :=
    ⟨.inr rfl, .inr rfl, by rintro names ⟨⟩; rfl, by rintro ⟨⟩, fun _ => rfl⟩
  exact retries_isolated _ _ _ _ _ _ rfl
    (by rintro a ha; rw [List.mem_singleton.mp ha]; exact hcln 1 "sk-1")
    (by rintro a ha; rw [List.mem_singleton.mp ha]; exact hcln 2 "sk-2")

/-- A channel with a secret header, an organization and a parameter that it overrides. -/
def tenantChannel : Channel :=
  { plainChannel 1 with
    paramOverride := [("temperature", .num "0")]
    headerOverride := [("X-Secret", .str "tenant")]
    organization := some "org-1" }

/-- The secret header and the organization of a failed channel are sent to the next one, whose
own header is not. -/
theorem tenant_headers_sent_to_next_channel :
    sentAfter plainLib plainUpstreams chatRequest [attemptOn (plainChannel 2) "sk-2" 0]
        (attemptOn labelledChannel "sk-3" 1) =
      some [("content-type", ""), ("accept", ""), ("authorization", "Bearer sk-3"),
        ("x-channel", "three")] ∧
    sentAfter plainLib plainUpstreams chatRequest [attemptOn tenantChannel "sk-1" 0]
        (attemptOn labelledChannel "sk-3" 1) =
      some [("content-type", ""), ("accept", ""), ("openai-organization", "org-1"),
        ("authorization", "Bearer sk-3"), ("x-secret", "tenant")] := by
  decide +kernel

end NewApi.Headers
