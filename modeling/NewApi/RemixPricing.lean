import NewApi.TaskRatios
import NewApi.TaskSubmission

/-!
# The price of a remix

A remix is a video task made from an earlier one. `ResolveOriginTask` looks the earlier task up
before the first attempt and takes its ratios into the price data of the request.
`RelayTaskSubmit` then prices, charges and stores the task, once for each attempt
(`relay/relay_task.go`, `relay/helper/price.go`). The channel is the one of the earlier task, of
the Sora type, whose adaptor estimates the ratios of other requests
(`relay/channel/task/sora/adaptor.go`).

Tables of models, prices and ratios are parameters. So are the failures of the database and of the
upstream, and the amount that is reserved is the one that the session is opened with.
-/
namespace NewApi.TaskPricing

/-- The actions that the price depends on. -/
inductive TaskAction where
  | remix | imageGenerate | other (name : String)
  deriving DecidableEq

def TaskAction.text : TaskAction → String
  | .remix => "remixGenerate"
  | .imageGenerate => "imageGenerate"
  | .other name => name

/-- What the client is told. -/
structure TaskError where
  (code message : String)
  statusCode : ℕ
  localError : Bool

def taskErrorWrapper (message code : String) (statusCode : ℕ) : TaskError :=
  ⟨code, message, statusCode, false⟩

def taskErrorWrapperLocal (message code : String) (statusCode : ℕ) : TaskError :=
  ⟨code, message, statusCode, true⟩

/-- The fields of the task data that are read, as far as they are texts. -/
structure TaskData where
  (model seconds size : Option String)

/-- The earlier task. `billingContext` has the ratios that were stored with it. -/
structure OriginTask where
  (originModelName upstreamModelName : String)
  data : TaskData
  channelId : ℤ
  billingContext : Option Ratios

/-- The channel of the task that is remixed. -/
structure OriginChannel where
  enabled : Bool
  channelType : ChannelType
  baseURL : String
  /-- The next key, or the message and status of the error. -/
  nextEnabledKey : Except (String × ℕ) String

/-- The database, as it answers this request. -/
structure Store where
  getByTaskId : ℤ → String → Except String (Option OriginTask)
  getChannelById : ℤ → Except String OriginChannel

/-- What is read of the request. -/
structure TaskPath where
  (path videoID : String)
  userId : ℤ

def TaskPath.isRemix (req : TaskPath) : Bool :=
  containsText req.path "/v1/videos/" && hasSuffix req.path "/remix"

/-- The row of the new task, as far as it is about the charge. -/
structure StoredTask where
  (quota billingTargetQuota : ℤ)
  otherRatios : Ratios
  deriving DecidableEq

/-- The state of a request between its attempts. `billing` is the amount that was reserved. -/
structure RelayInfo where
  action : TaskAction
  (originTaskID originModelName : String)
  lockedChannel : Option OriginChannel
  channelId : ℤ
  channelType : ChannelType
  (channelBaseUrl apiKey : String)
  priceData : PriceData
  billing : Option ℤ
  persistentTask : Option StoredTask

open TaskPricing.RelayInfo

/-- The request is sent to another channel than the one selected. -/
def RelayInfo.useChannel (info : RelayInfo) (id : ℤ) (ch : OriginChannel) (key : String) :
    RelayInfo :=
  { info with
    channelBaseUrl := ch.baseURL
    channelId := id
    channelType := ch.channelType
    apiKey := key }

/-- The ratios of a task that has no billing context, from its data. -/
def legacyRatios (data : TaskData) (m : Ratios) : Ratios :=
  let seconds := (data.seconds.bind atoi).getD 0
  let seconds := if seconds ≤ 0 then 4 else seconds
  let size := data.size.getD ""
  let sizeRatio := if size = "1792x1024" ∨ size = "1024x1792" then 1666667 / 1000000 else 1
  (m.set "seconds" seconds).set "size" sizeRatio

/-- The ratios of the earlier task, taken into the price data. -/
def RelayInfo.takeRatios (info : RelayInfo) (origin : OriginTask) : RelayInfo :=
  match origin.billingContext with
  | some ratios =>
    { info with priceData :=
        ratios.entries.foldl (fun p e => p.addOtherRatio e.1 e.2) info.priceData }
  | none =>
    { info with priceData :=
        { info.priceData with
          otherRatios := legacyRatios origin.data info.priceData.otherRatios } }

/-- The model of the earlier task, if the request does not name one. -/
def RelayInfo.takeModel (info : RelayInfo) (origin : OriginTask) : RelayInfo :=
  if info.originModelName ≠ "" then info
  else if origin.originModelName ≠ "" then
    { info with originModelName := origin.originModelName }
  else if origin.upstreamModelName ≠ "" then
    { info with originModelName := origin.upstreamModelName }
  else { info with originModelName := origin.data.model.getD "" }

/-- Keep to the channel of the earlier task, with a key of its own if it is another one. -/
def RelayInfo.lockChannel (info : RelayInfo) (origin : OriginTask) (ch : OriginChannel) :
    Except TaskError RelayInfo :=
  if ch.enabled = false then
    .error (taskErrorWrapperLocal "the channel of the origin task is disabled"
      "task_channel_disable" 400)
  else
    let info := { info with lockedChannel := some ch }
    if origin.channelId ≠ info.channelId then
      match ch.nextEnabledKey with
      | .error e => .error (taskErrorWrapper e.1 "channel_no_available_key" e.2)
      | .ok key => .ok (info.useChannel origin.channelId ch key)
    else .ok info

/-- A remix takes over model, channel and parameters of its task. -/
def resolveOriginTask (store : Store) (req : TaskPath) (info : RelayInfo) :
    Except TaskError RelayInfo :=
  let info := if req.isRemix then { info with action := .remix } else info
  if info.action = .remix ∧ trimSpace req.videoID = "" then
    .error (taskErrorWrapperLocal "video_id is required" "invalid_request" 400)
  else
    let info := if info.action = .remix then { info with originTaskID := req.videoID } else info
    if info.originTaskID = "" then .ok info
    else match store.getByTaskId req.userId info.originTaskID with
      | .error e => .error (taskErrorWrapper e "get_origin_task_failed" 500)
      | .ok none =>
        .error (taskErrorWrapperLocal "task_origin_not_exist" "task_not_exist" 400)
      | .ok (some origin) =>
        match store.getChannelById origin.channelId with
        | .error e => .error (taskErrorWrapperLocal e "channel_not_found" 400)
        | .ok ch =>
          ((info.takeModel origin).lockChannel origin ch).map fun info =>
            if info.action = .remix then info.takeRatios origin else info

structure PriceConfig where
  (modelPrice defaultModelPrice : String → Option ℚ)
  /-- The ratio of a model, whether it is configured, and the name it was found under. -/
  modelRatio : String → ℚ × Bool × String
  videoBillingMode : String → Option String
  /-- The prices of a model by resolution, if there are any. -/
  resolutionPrices : String → Option (String → Option ℚ)
  (hasConfiguredModelRatio isXJZVideoModel isXJZPerCallVideoModel : String → Bool)
  referenceVideoMultiplier : String → ℚ
  isVideosModelName : String → Bool
  taskPricePatches : List String
  (groupRatio quotaPerUnit : ℚ)
  (enableFreeModelPreConsume acceptUnsetRatioModel isChannelTest isPlayground : Bool)
  priceNotConfigured : String → String

def VideoBillingMode.text : VideoBillingMode → String
  | .dynamic => "dynamic"
  | .fixed => "fixed"
  | .tieredSeconds => "tiered_seconds"
  | .tieredRequest => "tiered_request"

/-- The modes with a price for each resolution. -/
def VideoBillingMode.isTier : VideoBillingMode → Bool
  | .tieredSeconds | .tieredRequest => true
  | .dynamic | .fixed => false

namespace PriceConfig
variable (config : PriceConfig)

/-- A mode that is not known counts as dynamic. -/
def getVideoBillingMode (model : String) : VideoBillingMode :=
  (config.videoBillingMode model).elim .dynamic normalizeVideoBillingMode

/-- The model has prices by resolution. -/
def hasVideoResolutionTierPriceConfig (model : String) : Bool :=
  (config.getVideoBillingMode model).isTier && (config.resolutionPrices model).isSome

/-- A price for the call; without one, half the model's ratio is reserved. -/
def perCallPrice (price : ℚ) : PriceData :=
  let free := !config.enableFreeModelPreConsume &&
    (decide (config.groupRatio = 0) || decide (price = 0))
  { freeModel := free
    modelPrice := price
    modelRatio := 0
    otherRatios := .empty
    videoBillingMode := .dynamic
    appliedOtherRatios := false
    usePrice := true
    quota := if free then 0 else truncate (price * config.quotaPerUnit * config.groupRatio)
    groupRatio := config.groupRatio }

/-- A price that is computed from a ratio. -/
def perCallRatio (ratio : ℚ) : PriceData :=
  let free := !config.enableFreeModelPreConsume &&
    (decide (config.groupRatio = 0) || decide (ratio = 0))
  { freeModel := free
    modelPrice := -1
    modelRatio := ratio
    otherRatios := .empty
    videoBillingMode := .dynamic
    appliedOtherRatios := false
    usePrice := false
    quota := if free then 0 else truncate (ratio / 2 * config.quotaPerUnit * config.groupRatio)
    groupRatio := config.groupRatio }

/-- A fixed price comes first, then prices by resolution, then the ratio. -/
def modelPriceHelperPerCall (model : String) : Except String PriceData :=
  match (config.modelPrice model).or (config.defaultModelPrice model) with
  | some price => .ok (config.perCallPrice price)
  | none =>
    if config.hasVideoResolutionTierPriceConfig model then .ok (config.perCallPrice 0)
    else
      let (ratio, success, matchName) := config.modelRatio model
      if config.isChannelTest then .ok (config.perCallRatio (if success then ratio else 1))
      else if success || config.acceptUnsetRatioModel then .ok (config.perCallRatio ratio)
      else .error (config.priceNotConfigured matchName)

end PriceConfig

/-- The part of a task request that ratios are estimated from. -/
structure TaskRequest where
  (model seconds : String)
  duration : ℤ
  size : String
  videos : List String

/-- One attempt. `rejected` is the error of the model mapping or of the validation, and
`enumerate` the order in which the map of ratios is enumerated. -/
structure PriceAttempt where
  upstreamModelName : String
  channelType : ChannelType
  rejected : Option TaskError
  request : Option TaskRequest
  resolution : String
  enumerate : Ratios → Ratios
  enumerate_same : ∀ m, (enumerate m).Same m
  preConsumeFails : Option TaskError
  persistFails : Option String
  upstreamFails : Option TaskError

section
variable (config : PriceConfig)

/-- The name that these prices are looked up with. -/
def xjzVideoModelName (a : PriceAttempt) (model : String) : String :=
  if config.isXJZVideoModel a.upstreamModelName then a.upstreamModelName else model

/-- The ratios that the Sora adaptor estimates. Those of a remix are left to
`resolveOriginTask`. -/
def estimateBilling (a : PriceAttempt) (action : TaskAction) (model : String) : Ratios :=
  if action = .remix ∨ action = .imageGenerate then .empty
  else match a.request with
    | none => .empty
    | some req =>
      let seconds := (atoi req.seconds).getD 0
      let seconds := if seconds = 0 then req.duration else seconds
      let seconds := if seconds ≤ 0 then
        (if config.isVideosModelName req.model then 5 else 4) else seconds
      let size := if req.size = "" then "720x1280" else req.size
      let sizeRatio := if size = "1792x1024" ∨ size = "1024x1792" then 1666667 / 1000000 else 1
      let ratios := (Ratios.empty.set "seconds" seconds).set "size" sizeRatio
      let multiplier := config.referenceVideoMultiplier (xjzVideoModelName config a model)
      if 1 < multiplier ∧ req.videos ≠ [] then ratios.set "reference_video" multiplier
      else ratios

/-- The price of the resolution replaces the model's. -/
def applyVideoResolutionTierPrice (a : PriceAttempt) (p : PriceData)
    (prices : String → Option ℚ) : Except String PriceData :=
  match prices a.resolution with
  | none => .error ("video resolution price for " ++ a.resolution ++ " is not configured")
  | some price =>
    .ok { p with
      modelPrice := price
      usePrice := true
      quota := truncate (price * config.quotaPerUnit * p.groupRatio)
      freeModel := !config.enableFreeModelPreConsume &&
        (decide (price = 0) || decide (p.groupRatio = 0)) }

/-- A task is refused if nothing says what it costs. -/
def ensureTaskBillingConfigured (a : PriceAttempt) (model : String) (p : PriceData)
    (mode : VideoBillingMode) : Except String Unit :=
  let configured := p.usePrice || config.hasConfiguredModelRatio model
  let missing := Except.error ("模型 " ++ model ++ " 未配置价格或倍率，请按完整模型名配置定价后再使用")
  if a.channelType = .zongheng ∨ a.channelType = .v6k then
    if configured then .ok () else missing
  else
    let xjzModel := xjzVideoModelName config a model
    if config.isXJZPerCallVideoModel xjzModel then
      if !p.usePrice || decide (mode ≠ .fixed ∧ mode ≠ .tieredRequest) then
        .error ("模型 " ++ model ++ " 按次计费，请配置按次价格和 fixed 或 tiered_request 计费模式")
      else .ok ()
    else if configured then .ok ()
    else if !config.isPlayground && !config.isXJZVideoModel xjzModel then .ok ()
    else missing

/-- The price by resolution, where the model has this mode. -/
def tierPrice (a : PriceAttempt) (model : String) (p : PriceData) : Except TaskError PriceData :=
  if (config.getVideoBillingMode model).isTier then
    match config.resolutionPrices model with
    | none => .error (taskErrorWrapperLocal
        ("video resolution prices for model " ++ model ++ " are not configured")
        "invalid_billing_config" 400)
    | some prices =>
      (applyVideoResolutionTierPrice config a p prices).mapError fun e =>
        taskErrorWrapperLocal e "invalid_billing_config" 400
  else .ok p

/-- The price of an attempt. The price data is made anew each time. -/
def priceTask (a : PriceAttempt) (action : TaskAction) (model : String) :
    Except TaskError PriceData := do
  let base ← (config.modelPriceHelperPerCall model).mapError fun e =>
    taskErrorWrapper e "model_price_error" 400
  let estimated := (estimateBilling config a action model).entries.foldl
    (fun p e => p.addOtherRatio e.1 e.2) base
  let p ← tierPrice config a model estimated
  let mode := config.getVideoBillingMode model
  (ensureTaskBillingConfigured config a model p mode).mapError fun e =>
    taskErrorWrapperLocal e "model_price_error" 400
  (applyTaskOtherRatiosToQuota { p with otherRatios := a.enumerate p.otherRatios } mode.text
    (config.taskPricePatches.contains model)).mapError fun e =>
      taskErrorWrapperLocal e "invalid_billing_config" 400

/-- The model of a task without one. -/
def coverTaskActionToModelName (platform : String) (action : TaskAction) : String :=
  toLower platform ++ "_" ++ toLower action.text

def requestModel (platform : String) (info : RelayInfo) : String :=
  if info.originModelName = "" then coverTaskActionToModelName platform info.action
  else info.originModelName

/-- The row of the task is inserted by the first attempt that gets so far. -/
def RelayInfo.persist (info : RelayInfo) : RelayInfo :=
  match info.persistentTask with
  | some _ => info
  | none => { info with
      persistentTask := some ⟨info.billing.getD 0, info.priceData.quota,
        info.priceData.otherRatios⟩ }

/-- The first attempt that is not free reserves its price. -/
def RelayInfo.reserves (info : RelayInfo) (p : PriceData) : Bool :=
  info.billing.isNone && !p.freeModel

/-- The quota is reserved once, by the first attempt. -/
def RelayInfo.reserve (info : RelayInfo) (p : PriceData) : RelayInfo :=
  if info.reserves p then { info with billing := some p.quota } else info

/-- The reservation, the row, and then the upstream. No adaptor adjusts the ratios after the
submission. -/
def RelayInfo.charge (info : RelayInfo) (a : PriceAttempt) (p : PriceData) :
    Except TaskError ℤ × RelayInfo :=
  match if info.reserves p then a.preConsumeFails else none with
  | some e => (.error e, info)
  | none =>
    match a.persistFails with
    | some e =>
      (.error (taskErrorWrapperLocal e "persist_task_submission_failed" 500), info.reserve p)
    | none =>
      match a.upstreamFails with
      | some e => (.error e, (info.reserve p).persist)
      | none => (.ok p.quota, (info.reserve p).persist)

/-- One attempt: the price, and then the charge. -/
def relayTaskSubmit (platform : String) (a : PriceAttempt) (info : RelayInfo) :
    Except TaskError ℤ × RelayInfo :=
  match a.rejected with
  | some e => (.error e, info)
  | none =>
    let model := requestModel platform info
    match priceTask config a info.action model with
    | .error e => (.error e, { info with originModelName := model })
    | .ok p => RelayInfo.charge { info with originModelName := model, priceData := p } a p

/-- The attempts until one succeeds. The amount is the one that is settled then. -/
def relayTask (platform : String) : List PriceAttempt → RelayInfo → Option ℤ × RelayInfo
  | [], info => (none, info)
  | a :: rest, info =>
    match relayTaskSubmit config platform a info with
    | (.ok quota, info) => (some quota, info)
    | (.error _, info) => relayTask platform rest info

end

variable {e : String × ℚ}

theorem Ratios.mem_set {m : Ratios} {key : String} {ratio : ℚ} :
    e ∈ (m.set key ratio).entries ↔ e = (key, ratio) ∨ e ∈ m.entries ∧ e.1 ≠ key := by
  simp [Ratios.set]

/-- The positive ratios are all taken over. -/
theorem mem_foldl_addOtherRatio {entries : List (String × ℚ)}
    (hnd : (entries.map Prod.fst).Nodup) (p : PriceData) (hpos : 0 < e.2)
    (hmem : e ∈ entries ∨ e ∈ p.otherRatios.entries ∧ e.1 ∉ entries.map Prod.fst) :
    e ∈ (entries.foldl (fun p e => p.addOtherRatio e.1 e.2) p).otherRatios.entries := by
  induction entries generalizing p with
  | nil => simpa using hmem
  | cons d entries ih =>
    rw [List.map_cons, List.nodup_cons] at hnd
    rw [List.foldl_cons]
    apply ih hnd.2
    rcases hmem with hmem | ⟨hmem, hkey⟩
    · rcases List.mem_cons.mp hmem with rfl | hmem
      · have hadd : p.addOtherRatio e.1 e.2 =
            { p with otherRatios := p.otherRatios.set e.1 e.2 } := if_neg hpos.not_ge
        rw [hadd]
        exact .inr ⟨Ratios.mem_set.mpr (.inl rfl), hnd.1⟩
      · exact .inl hmem
    rw [List.map_cons, List.mem_cons, not_or] at hkey
    refine .inr ⟨?_, hkey.2⟩
    unfold PriceData.addOtherRatio
    split_ifs
    · exact hmem
    · exact Ratios.mem_set.mpr (.inr ⟨hmem, hkey.1⟩)

/-- The action and the charges of a request, which the look-up of the earlier task leaves
alone. -/
def RelayInfo.charges (info : RelayInfo) : TaskAction × Option ℤ × Option StoredTask :=
  (info.action, info.billing, info.persistentTask)

@[simp] theorem RelayInfo.charges_takeModel (info : RelayInfo) (origin : OriginTask) :
    (info.takeModel origin).charges = info.charges := by
  unfold takeModel
  split_ifs <;> rfl

@[simp] theorem RelayInfo.charges_takeRatios (info : RelayInfo) (origin : OriginTask) :
    (info.takeRatios origin).charges = info.charges := by
  unfold takeRatios
  split <;> rfl

variable {origin : OriginTask}

theorem RelayInfo.charges_lockChannel {info info' : RelayInfo}
    {ch : OriginChannel} (h : info.lockChannel origin ch = .ok info') :
    info'.charges = info.charges := by
  unfold lockChannel at h
  dsimp only at h
  split_ifs at h
  · cases hkey : ch.nextEnabledKey with
    | error e => simp [hkey] at h
    | ok key =>
      simp only [hkey] at h
      cases h
      rfl
  · cases h
    rfl

/-- A remix that is resolved has taken the ratios of the earlier task, and nothing has been
charged. -/
theorem resolveOriginTask_remix {store : Store} {req : TaskPath} {info info' : RelayInfo}
    (hremix : req.isRemix = true) (hres : resolveOriginTask store req info = .ok info')
    (hor : store.getByTaskId req.userId req.videoID = .ok (some origin)) :
    ∃ start : RelayInfo, info' = start.takeRatios origin ∧
      start.charges = (.remix, info.billing, info.persistentTask) := by
  unfold resolveOriginTask at hres
  simp only [hremix, if_true] at hres
  split_ifs at hres with hbl hemp
  · have hvideo : req.videoID = "" := hemp
    exact absurd ⟨trivial, by rw [hvideo]; rfl⟩ hbl
  rw [hor] at hres
  dsimp only at hres
  cases hch : store.getChannelById origin.channelId with
  | error e => simp [hch] at hres
  | ok ch =>
    rw [hch] at hres
    generalize hst : takeModel _ origin = start at hres
    cases hlock : start.lockChannel origin ch with
    | error e => simp [hlock, Except.map] at hres
    | ok locked =>
      have hchar : locked.charges = (.remix, info.billing, info.persistentTask) := by
        rw [charges_lockChannel hlock, ← hst, charges_takeModel]
        rfl
      have hact : locked.action = .remix := congrArg Prod.fst hchar
      simp only [hlock, Except.map, hact, if_true, Except.ok.injEq] at hres
      exact ⟨locked, hres.symm, hchar⟩

section
variable {config : PriceConfig} {platform model : String} {base : PriceData}

/-- The base price has no ratios, and a free model costs nothing. -/
theorem modelPriceHelperPerCall_ok (hbase : config.modelPriceHelperPerCall model = .ok base) :
    base.otherRatios = .empty ∧ (base.freeModel = true → base.quota = 0) := by
  have hshape : (∃ price, base = config.perCallPrice price) ∨
      ∃ ratio, base = config.perCallRatio ratio := by
    unfold PriceConfig.modelPriceHelperPerCall at hbase
    split at hbase
    · exact .inl ⟨_, (Except.ok.inj hbase).symm⟩
    obtain ⟨ratio, success, matchName⟩ := config.modelRatio model
    dsimp only at hbase
    split_ifs at hbase
    · exact .inl ⟨_, (Except.ok.inj hbase).symm⟩
    · exact .inr ⟨_, (Except.ok.inj hbase).symm⟩
    · exact .inr ⟨_, (Except.ok.inj hbase).symm⟩
    · exact .inr ⟨_, (Except.ok.inj hbase).symm⟩
  rcases hshape with ⟨price, rfl⟩ | ⟨ratio, rfl⟩
  · exact ⟨rfl, fun hfree => if_pos hfree⟩
  · exact ⟨rfl, fun hfree => if_pos hfree⟩

/-- The price of an attempt at a remix is the base price: there are no ratios in it. -/
theorem priceTask_remix {a : PriceAttempt} {p : PriceData}
    (hmode : config.getVideoBillingMode model = .dynamic)
    (hbase : config.modelPriceHelperPerCall model = .ok base)
    (hpr : priceTask config a .remix model = .ok p) :
    p.quota = base.quota ∧ p.freeModel = base.freeModel := by
  have hratios := (modelPriceHelperPerCall_ok hbase).1
  have henum : (a.enumerate base.otherRatios).values = [] := by
    have hsame := (a.enumerate_same base.otherRatios).values
    rw [hratios] at hsame ⊢
    exact List.perm_nil.mp hsame
  have hest : estimateBilling config a .remix model = .empty := if_pos (.inl rfl)
  have htier : tierPrice config a model base = .ok base := by simp [tierPrice, hmode,
    VideoBillingMode.isTier]
  have hnormal : normalizeVideoBillingMode VideoBillingMode.dynamic.text = .dynamic := by
    decide +kernel
  simp only [priceTask, hbase, hest, Ratios.empty, List.foldl_nil, htier, hmode,
    Except.mapError, bind, Except.bind] at hpr
  cases hconf : ensureTaskBillingConfigured config a model base .dynamic with
  | error e => simp [hconf] at hpr
  | ok _ =>
    simp only [hconf, applyTaskOtherRatiosToQuota, hnormal, henum,
      List.foldl_nil] at hpr
    split_ifs at hpr <;>
    · have hp := Except.ok.inj hpr
      rw [← hp]
      exact ⟨rfl, rfl⟩

/-- Between the attempts at a remix of the model, whatever is charged is the base quota. -/
structure ChargedBase (platform model : String) (base : PriceData) (info : RelayInfo) : Prop where
  action : info.action = .remix
  model : requestModel platform info = model
  billing : ∀ q, info.billing = some q → q = base.quota
  task : ∀ t, info.persistentTask = some t →
    t.quota = base.quota ∧ t.billingTargetQuota = base.quota

theorem requestModel_named (info : RelayInfo) :
    requestModel platform { info with originModelName := requestModel platform info } =
      requestModel platform info := by
  unfold requestModel
  split_ifs <;> rfl

namespace ChargedBase
variable {info : RelayInfo}

theorem priced (h : ChargedBase platform model base info) (p : PriceData) :
    ChargedBase platform model base
      { info with originModelName := requestModel platform info, priceData := p } :=
  ⟨h.action, (requestModel_named info).trans h.model, h.billing, h.task⟩

variable {p : PriceData}

section
variable (h : ChargedBase platform model base info)
include h

theorem reserve
    (hqt : p.quota = base.quota) : ChargedBase platform model base (info.reserve p) := by
  unfold RelayInfo.reserve
  split_ifs
  · refine ⟨h.action, h.model, fun q hq => ?_, h.task⟩
    rw [← Option.some.inj hq, hqt]
  · exact h

/-- What is reserved by then is the base quota, which a free model does not have. -/
theorem reserve_billing (hqt : p.quota = base.quota) (hfree : p.freeModel = true → base.quota = 0) :
    (info.reserve p).billing.getD 0 = base.quota := by
  unfold RelayInfo.reserve reserves
  cases hbil : info.billing with
  | some q => simpa [hbil] using h.billing q hbil
  | none =>
    cases hp : p.freeModel with
    | true => simp [hbil, hfree hp]
    | false => simp [hqt]

theorem persist
    (hpr : info.priceData.quota = base.quota) (hbil : info.billing.getD 0 = base.quota) :
    ChargedBase platform model base info.persist := by
  unfold RelayInfo.persist
  cases htask : info.persistentTask with
  | some t => exact h
  | none =>
    refine ⟨h.action, h.model, h.billing, fun t ht => ?_⟩
    rw [← Option.some.inj ht]
    exact ⟨hbil, hpr⟩

theorem charge (a : PriceAttempt) (hpr : info.priceData = p) (hqt : p.quota = base.quota)
    (hfree : p.freeModel = true → base.quota = 0) :
    ChargedBase platform model base (info.charge a p).2 ∧
      ∀ q, (info.charge a p).1 = .ok q → q = base.quota := by
  have hrese := h.reserve hqt
  have hpriced : (info.reserve p).priceData.quota = base.quota := by
    unfold RelayInfo.reserve
    split_ifs <;> simpa [hpr] using hqt
  have hsto := hrese.persist hpriced (h.reserve_billing hqt hfree)
  unfold RelayInfo.charge
  split
  · exact ⟨h, nofun⟩
  split
  · exact ⟨hrese, nofun⟩
  · split
    · exact ⟨hsto, nofun⟩
    · exact ⟨hsto, fun q hq => (Except.ok.inj hq).symm.trans hqt⟩

end

section
variable (hmode : config.getVideoBillingMode model = .dynamic)
  (hbase : config.modelPriceHelperPerCall model = .ok base)
  (h : ChargedBase platform model base info)
include hmode hbase h

/-- One attempt reserves, stores and settles the base quota or nothing. -/
theorem submit (a : PriceAttempt) :
    ChargedBase platform model base (relayTaskSubmit config platform a info).2 ∧
      ∀ q, (relayTaskSubmit config platform a info).1 = .ok q → q = base.quota := by
  unfold relayTaskSubmit
  cases a.rejected with
  | some e => exact ⟨h, nofun⟩
  | none =>
    dsimp only
    cases hpr : priceTask config a info.action (requestModel platform info) with
    | error e => exact ⟨h.priced info.priceData, nofun⟩
    | ok p =>
      rw [h.action, h.model] at hpr
      obtain ⟨hqt, hfree⟩ := priceTask_remix hmode hbase hpr
      refine (h.priced p).charge a rfl hqt fun hp => ?_
      exact (modelPriceHelperPerCall_ok hbase).2 (hfree ▸ hp)

theorem run (attempts : List PriceAttempt) :
    ChargedBase platform model base (relayTask config platform attempts info).2 ∧
      ∀ q, (relayTask config platform attempts info).1 = some q → q = base.quota := by
  induction attempts generalizing info with
  | nil => exact ⟨h, nofun⟩
  | cons a attempts ih =>
    obtain ⟨hstep, hqt⟩ := h.submit hmode hbase a
    rw [relayTask]
    cases hsubmit : relayTaskSubmit config platform a info with
    | mk result next =>
      rw [hsubmit] at hstep hqt
      cases result with
      | ok quota =>
        refine ⟨hstep, fun q hq => ?_⟩
        rw [← Option.some.inj hq]
        exact hqt quota rfl
      | error e => exact ih hstep

end

end ChargedBase

/-- A remix has the ratios of the earlier task in its price data before the first attempt, but
every attempt makes the price data anew. So what is reserved, stored and settled is the base
quota, and it is the quota with the ratios iff the two are the same number. -/
theorem remix_charge_iff {store : Store} {req : TaskPath} {info info' : RelayInfo}
    {origin : OriginTask} {ratios : Ratios} (hremix : req.isRemix = true)
    (horigin : store.getByTaskId req.userId req.videoID = .ok (some origin))
    (hratios : origin.billingContext = some ratios)
    (hnew : info.billing = none ∧ info.persistentTask = none)
    (hresolve : resolveOriginTask store req info = .ok info')
    (hmode : config.getVideoBillingMode (requestModel platform info') = .dynamic)
    (hbase : config.modelPriceHelperPerCall (requestModel platform info') = .ok base)
    (attempts : List PriceAttempt) :
    let due := truncate (base.quota * ratios.values.prod)
    let out := relayTask config platform attempts info'
    (∀ e ∈ ratios.entries, 0 < e.2 → e ∈ info'.priceData.otherRatios.entries) ∧
    (∀ q, out.2.billing = some q → (q = due ↔ base.quota = due)) ∧
    (∀ t, out.2.persistentTask = some t →
      (t.quota = due ∧ t.billingTargetQuota = due ↔ base.quota = due)) ∧
    ∀ q, out.1 = some q → (q = due ↔ base.quota = due) := by
  obtain ⟨start, hst, hchar⟩ := resolveOriginTask_remix hremix hresolve horigin
  have hchar' : info'.charges = (.remix, none, none) := by
    rw [hst, charges_takeRatios, hchar, hnew.1, hnew.2]
  have htk : info'.priceData =
      ratios.entries.foldl (fun p e => p.addOtherRatio e.1 e.2) start.priceData := by
    rw [hst]
    unfold takeRatios
    rw [hratios]
  have hchg : ChargedBase platform (requestModel platform info') base info' := by
    simp only [charges, Prod.mk.injEq] at hchar'
    refine ⟨hchar'.1, rfl, fun q hq => ?_, fun t ht => ?_⟩
    · rw [hchar'.2.1] at hq
      cases hq
    · rw [hchar'.2.2] at ht
      cases ht
  obtain ⟨hend, hset⟩ := hchg.run hmode hbase attempts
  refine ⟨fun e he hpos => ?_, fun q hq => ?_, fun t ht => ?_, fun q hq => ?_⟩
  · rw [htk]
    exact mem_foldl_addOtherRatio ratios.nodup _ hpos (.inl he)
  · rw [hend.billing q hq]
  · rw [(hend.task t ht).1, (hend.task t ht).2, and_self]
  · rw [hset q hq]

end

def sampleConfig : PriceConfig where
  modelPrice := fun _ => some (2 / 1000)
  defaultModelPrice := fun _ => none
  modelRatio := fun model => (0, false, model)
  videoBillingMode := fun _ => none
  resolutionPrices := fun _ => none
  hasConfiguredModelRatio := fun _ => false
  isXJZVideoModel := fun _ => false
  isXJZPerCallVideoModel := fun _ => false
  referenceVideoMultiplier := fun _ => 0
  isVideosModelName := fun _ => false
  taskPricePatches := []
  groupRatio := 1
  quotaPerUnit := 500000
  enableFreeModelPreConsume := false
  acceptUnsetRatioModel := false
  isChannelTest := false
  isPlayground := false
  priceNotConfigured := id

def sampleRatios (seconds : ℚ) : Ratios := ⟨[("seconds", seconds)], by simp⟩

def sampleOrigin (seconds : ℚ) : OriginTask :=
  ⟨"sora-2", "sora-2", ⟨none, none, none⟩, 7, some (sampleRatios seconds)⟩

def sampleStore (seconds : ℚ) : Store where
  getByTaskId := fun _ _ => .ok (some (sampleOrigin seconds))
  getChannelById := fun _ => .ok ⟨true, .other, "https://upstream", .ok "key"⟩

def samplePath : TaskPath := ⟨"/v1/videos/task_1/remix", "task_1", 1⟩

def sampleInfo : RelayInfo where
  action := .other ""
  originTaskID := ""
  originModelName := ""
  lockedChannel := none
  channelId := 7
  channelType := .other
  channelBaseUrl := ""
  apiKey := ""
  priceData := samplePrice 0 .empty
  billing := none
  persistentTask := none

def sampleAttempt (upstreamFails : Option TaskError) : PriceAttempt where
  upstreamModelName := "sora-2"
  channelType := .other
  rejected := none
  request := none
  resolution := "720p"
  enumerate := id
  enumerate_same := fun m => List.Perm.refl m.entries
  preConsumeFails := none
  persistFails := none
  upstreamFails := upstreamFails

def sampleRemix (seconds : ℚ) : RelayInfo :=
  ((resolveOriginTask (sampleStore seconds) samplePath sampleInfo).toOption).getD sampleInfo

/-- A first attempt that the upstream refuses, and a second one. -/
def sampleAttempts : List PriceAttempt :=
  [sampleAttempt (some (taskErrorWrapper "busy" "fail_to_fetch_task" 503)), sampleAttempt none]

theorem remix_charge_iff_sample :
    let base := sampleConfig.perCallPrice (2 / 1000)
    (relayTask sampleConfig "55" sampleAttempts (sampleRemix 1)).2.billing = some 1000 ∧
      1000 = truncate (base.quota * (sampleRatios 1).values.prod) := by
  have hchg : (relayTask sampleConfig "55" sampleAttempts (sampleRemix 1)).2.billing =
      some 1000 := by decide +kernel
  have hremix : samplePath.isRemix = true := by decide +kernel
  have hor : (sampleStore 1).getByTaskId samplePath.userId samplePath.videoID =
      .ok (some (sampleOrigin 1)) := rfl
  have hres : resolveOriginTask (sampleStore 1) samplePath sampleInfo =
      .ok (sampleRemix 1) := rfl
  have hmode : sampleConfig.getVideoBillingMode (requestModel "55" (sampleRemix 1)) = .dynamic :=
    rfl
  have hbase : sampleConfig.modelPriceHelperPerCall (requestModel "55" (sampleRemix 1)) =
      .ok (sampleConfig.perCallPrice (2 / 1000)) := rfl
  have hiff := (remix_charge_iff hremix hor rfl ⟨rfl, rfl⟩ hres hmode hbase
    sampleAttempts).2.1 1000 hchg
  exact ⟨hchg, hiff.mpr (by decide +kernel)⟩

/-- A remix of a video of 8 seconds is charged 1000 instead of 8000, with and without a retry. -/
theorem remix_charged_without_ratios :
    let once := relayTask sampleConfig "55" [sampleAttempt none] (sampleRemix 8)
    let retried := relayTask sampleConfig "55" sampleAttempts (sampleRemix 8)
    truncate (1000 * (sampleRatios 8).values.prod) = 8000 ∧
      once.1 = some 1000 ∧ once.2.billing = some 1000 ∧
      once.2.persistentTask = some ⟨1000, 1000, .empty⟩ ∧
      retried.1 = some 1000 ∧ retried.2.billing = some 1000 ∧
      retried.2.persistentTask = some ⟨1000, 1000, .empty⟩ := by
  decide +kernel

end NewApi.TaskPricing
