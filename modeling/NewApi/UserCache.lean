import NewApi.GoStrings
import NewApi.UserEdits

/-!
# The caches of users and tokens

A request with a token reads the token and then its user, each from the cache or, on a miss,
from the database; what was read there is written to the cache some time later. A call of an
administrator changes the row and then removes the cached copies. The model numbers the states
of the row and remembers, beside what the code knows, the newest change that has removed the
cached user and the newest one whose call has returned.
-/
namespace NewApi.Cache

/-- The columns of a user that decide about requests. -/
structure Account where
  (status role : ℤ)
  group : String
  deriving DecidableEq

/-- A copy of the row, with the number of the state that it was read from. -/
structure Snapshot where
  account : Account
  version : ℕ
  deriving DecidableEq

/-- A token as it is cached. -/
structure ApiToken where
  (status expiredTime remainQuota : ℤ)
  unlimitedQuota : Bool
  group : String
  deriving DecidableEq

/-- The groups that users of a group may choose, and the groups that have a ratio. -/
structure GroupSettings where
  usable : String → String → Bool
  hasRatio : String → Bool

/-- A token must be enabled, not expired and have quota. -/
def validateUserToken (now : ℤ) (t : ApiToken) : Bool :=
  decide (t.status = tokenStatusEnabled) &&
    (decide (t.expiredTime = -1) || decide (now ≤ t.expiredTime)) &&
    (t.unlimitedQuota || decide (0 < t.remainQuota))

/-- The check of the user, and of the token's group against the user's. -/
def tokenAuth (groups : GroupSettings) (t : ApiToken) (account : Account) : Bool :=
  decide (account.status = userStatusEnabled) &&
    (decide (t.group = "") || (groups.usable account.group t.group &&
      (groups.hasRatio t.group || decide (t.group = "auto"))))

/-- Where a request stands: it looks for the token and then for the user. -/
inductive RequestStage where
  | started
  | tokenMissed
  | tokenKnown (t : ApiToken)
  | userMissed (t : ApiToken)
  | userKnown (t : ApiToken) (u : Snapshot)
  | accepted (t : ApiToken) (u : Snapshot)
  | rejected
  deriving DecidableEq

/-- A request. `floor` is the newest change whose call had returned when it started. -/
structure TokenRequest where
  floor : ℕ
  stage : RequestStage
  deriving DecidableEq

/-- The changes of an administrator. -/
inductive AdminChange where
  | disable
  | edit (status role : ℤ) (group : String)
  | delete
  | hardDelete
  deriving DecidableEq

/-- How far a call has come. `v` is the number of the state that its change has made. -/
inductive AdminStage where
  | loaded
  | written (v : ℕ)
  | reloaded (v : ℕ) (u : Snapshot)
  | cached (v : ℕ) (invalidates : Bool)
  | userInvalidated (v : ℕ)
  | tokensInvalidated (v : ℕ)
  | returned

/-- A call, with the row that it read first. -/
structure AdminCall where
  change : AdminChange
  origin : Account
  stage : AdminStage

/-- The row after the change. An update from a struct leaves out fields that are zero; a deleted
row is not found by the transaction. -/
def AdminChange.write (origin : Account) (row : Option Account) : AdminChange → Option Account
  | .disable => row.map fun row =>
    ⟨userStatusDisabled, nonzero origin.role row.role, nonempty origin.group row.group⟩
  | .edit status role group => row.map fun row =>
    ⟨nonzero status row.status, nonzero role row.role, group⟩
  | .delete | .hardDelete => none

/-- The change is made although the row is deleted. -/
def AdminChange.deletes : AdminChange → Bool
  | .delete | .hardDelete => true
  | _ => false

/-- The caches are cleared after the cached user was replaced. -/
def AdminChange.invalidates (origin reloaded : Account) : AdminChange → Bool
  | .edit .. =>
    decide (trimSpace origin.group ≠ trimSpace reloaded.group) ||
      decide (origin.status ≠ reloaded.status) || decide (origin.role ≠ reloaded.role)
  | _ => true

/-- All versions of the row, the caches, and the requests and calls under way. -/
structure CacheState where
  version : ℕ
  rowAt : ℕ → Option Account
  token : Option ApiToken
  cachedUser : Option Snapshot
  cachedToken : Option ApiToken
  userFills : List Snapshot
  tokenFills : List ApiToken
  calls : List AdminCall
  requests : List TokenRequest
  (purged returned : ℕ)

open CacheState

/-- What can happen next. -/
inductive CacheCall where
  | request
  | advance (request : ℕ) (now : ℤ)
  | fillUser (fill : ℕ)
  | fillToken (fill : ℕ)
  | expireUser
  | expireToken
  | manage (change : AdminChange)
  | admin (call : ℕ)

namespace CacheState
variable (s : CacheState)

/-- The row as it is stored; `none` if it is deleted. -/
def row : Option Account := s.rowAt s.version

/-- Nothing is cached yet. -/
def start (row : Option Account) (token : Option ApiToken) : CacheState where
  version := 0
  rowAt := fun _ => row
  token := token
  cachedUser := none
  cachedToken := none
  userFills := []
  tokenFills := []
  calls := []
  requests := []
  purged := 0
  returned := 0

/-- The row gets a new version. -/
def setRow (row : Option Account) : CacheState :=
  { s with version := s.version + 1, rowAt := Function.update s.rowAt (s.version + 1) row }

/-- Nothing older than the change is in the cache. -/
def purge (v : ℕ) : CacheState := { s with purged := max s.purged v }

/-- A call has returned, and its version is known to the administrator. -/
def answer (v : ℕ) : CacheState := { s with returned := max s.returned v }

/-- The token is checked before the user is looked up. -/
def tokenFound (now : ℤ) (t : ApiToken) : RequestStage :=
  if validateUserToken now t then .tokenKnown t else .rejected

def advance (groups : GroupSettings) (now : ℤ) : RequestStage → CacheState × RequestStage
  | .started =>
    match s.cachedToken with
    | some t => (s, tokenFound now t)
    | none => (s, .tokenMissed)
  | .tokenMissed =>
    match s.token with
    | some t => ({ s with tokenFills := s.tokenFills ++ [t] }, tokenFound now t)
    | none => (s, .rejected)
  | .tokenKnown t =>
    match s.cachedUser with
    | some u => (s, .userKnown t u)
    | none => (s, .userMissed t)
  | .userMissed t =>
    match s.row with
    | some account =>
      ({ s with userFills := s.userFills ++ [⟨account, s.version⟩] },
        .userKnown t ⟨account, s.version⟩)
    | none => (s, .rejected)
  | .userKnown t u => (s, if tokenAuth groups t u.account then .accepted t u else .rejected)
  | .accepted t u => (s, .accepted t u)
  | .rejected => (s, .rejected)

/-- The next step of a call. A call that does not find the row ends with an error. -/
def proceed (call : AdminCall) : CacheState × AdminStage :=
  match call.stage with
  | .loaded =>
    if s.row.isSome || call.change.deletes then
      (s.setRow (call.change.write call.origin s.row), .written (s.version + 1))
    else (s, .returned)
  | .written v =>
    match call.change with
    | .hardDelete => (s.answer v, .returned)
    | .delete => ({ s with cachedUser := none }.purge v, .userInvalidated v)
    | _ =>
      match s.row with
      | some account => (s, .reloaded v ⟨account, s.version⟩)
      | none => (s, .returned)
  | .reloaded v u =>
    if call.change.invalidates call.origin u.account then
      ({ s with cachedUser := some u }, .cached v true)
    else ({ s with cachedUser := some u }.purge v, .cached v false)
  | .cached v invalidates =>
    if invalidates then ({ s with cachedUser := none }.purge v, .userInvalidated v)
    else (s.answer v, .returned)
  | .userInvalidated v => ({ s with cachedToken := none }, .tokensInvalidated v)
  | .tokensInvalidated v => (s.answer v, .returned)
  | .returned => (s, .returned)

end CacheState

def CacheCall.step (groups : GroupSettings) : CacheCall → CacheState → CacheState
  | .request, s => { s with requests := s.requests ++ [⟨s.returned, .started⟩] }
  | .advance n now, s =>
    match s.requests[n]? with
    | some r =>
      let (s', stage) := s.advance groups now r.stage
      { s' with requests := s'.requests.set n ⟨r.floor, stage⟩ }
    | none => s
  | .fillUser n, s =>
    match s.userFills[n]? with
    | some u => { s with cachedUser := some u }
    | none => s
  | .fillToken n, s =>
    match s.tokenFills[n]? with
    | some t => { s with cachedToken := some t }
    | none => s
  | .expireUser, s => { s with cachedUser := none }
  | .expireToken, s => { s with cachedToken := none }
  | .manage change, s =>
    match s.row with
    | some account => { s with calls := s.calls ++ [⟨change, account, .loaded⟩] }
    | none => s
  | .admin n, s =>
    match s.calls[n]? with
    | some call =>
      let (s', stage) := s.proceed call
      { s' with calls := s'.calls.set n { call with stage := stage } }
    | none => s

/-- The row that the call writes to the cache next. -/
def AdminStage.toBeCached : AdminStage → Option Snapshot
  | .reloaded _ u => some u
  | _ => none

/-- What is written to the cache is not older than a change that has removed the cached user,
and no user is deleted by the call that leaves the caches alone. -/
def AdminCall.Timely (s : CacheState) (call : AdminCall) : Prop :=
  call.change ≠ .hardDelete ∧ ∀ u ∈ call.stage.toBeCached, s.purged ≤ u.version

/-- A cache is not filled with a version from before the last invalidation. -/
def CacheCall.Timely : CacheCall → CacheState → Prop
  | .fillUser n, s => ∀ u ∈ s.userFills[n]?, s.purged ≤ u.version
  | .admin n, s => ∀ call ∈ s.calls[n]?, call.Timely s
  | _, _ => True

instance (s : CacheState) (call : AdminCall) : Decidable (call.Timely s) :=
  inferInstanceAs (Decidable (_ ∧ _))

instance (c : CacheCall) (s) : Decidable (c.Timely s) := by
  cases c <;> dsimp only [CacheCall.Timely] <;> infer_instance

/-- A request was accepted with a state of the row that is not older than any change whose call
had returned when the request started. -/
def AcceptedFresh (s : CacheState) : Prop :=
  ∀ r ∈ s.requests, ∀ t u, r.stage = .accepted t u →
    r.floor ≤ u.version ∧ s.rowAt u.version = some u.account

/-- The copy was read from a state of the row. -/
def Valid (s : CacheState) (u : Snapshot) : Prop :=
  u.version ≤ s.version ∧ s.rowAt u.version = some u.account

/-- The user that a request has is no older than the request's floor. -/
def StageOk (s : CacheState) (floor : ℕ) : RequestStage → Prop
  | .userKnown _ u | .accepted _ u => floor ≤ u.version ∧ Valid s u
  | _ => True

/-- What a call has written and invalidated so far. -/
def AdminOk (s : CacheState) : AdminStage → Prop
  | .loaded | .returned => True
  | .written v => v ≤ s.version
  | .reloaded v u => v ≤ u.version ∧ Valid s u
  | .cached v invalidates => v ≤ s.version ∧ (invalidates = false → v ≤ s.purged)
  | .userInvalidated v | .tokensInvalidated v => v ≤ s.purged

/-- The caches and what is about to be written to them. -/
structure CachesOk (s : CacheState) : Prop where
  returned : s.returned ≤ s.purged
  purged : s.purged ≤ s.version
  cached : ∀ u ∈ s.cachedUser, s.purged ≤ u.version ∧ Valid s u
  fills : ∀ u ∈ s.userFills, Valid s u

/-- What holds after every timely run. -/
structure CacheInvariant (s : CacheState) : Prop where
  caches : CachesOk s
  calls : ∀ call ∈ s.calls, AdminOk s call.stage
  requests : ∀ r ∈ s.requests, r.floor ≤ s.returned ∧ StageOk s r.floor r.stage

/-- Numbers only grow, and past states of the row stay. -/
structure Grows (s s' : CacheState) : Prop where
  version : s.version ≤ s'.version
  purged : s.purged ≤ s'.purged
  returned : s.returned ≤ s'.returned
  past : ∀ v ≤ s.version, s'.rowAt v = s.rowAt v

section
variable {s s' : CacheState} {groups : GroupSettings}

theorem Valid.grow {u : Snapshot} (h : Valid s u) (hg : Grows s s') : Valid s' u :=
  ⟨h.1.trans hg.version, (hg.past _ h.1).trans h.2⟩

variable {floor v : ℕ} {stage : RequestStage}

theorem StageOk.grow (h : StageOk s floor stage) (hg : Grows s s') : StageOk s' floor stage := by
  cases stage with
  | userKnown t u | accepted t u => exact ⟨h.1, h.2.grow hg⟩
  | _ => trivial

theorem AdminOk.grow {stage : AdminStage} (h : AdminOk s stage) (hg : Grows s s') :
    AdminOk s' stage := by
  cases stage with
  | loaded | returned => trivial
  | written v => exact le_trans h hg.version
  | reloaded v u => exact ⟨h.1, h.2.grow hg⟩
  | cached v invalidates =>
    exact ⟨h.1.trans hg.version, fun hno => (h.2 hno).trans hg.purged⟩
  | userInvalidated v | tokensInvalidated v => exact le_trans h hg.purged

theorem Grows.same (hver : s'.version = s.version) (hrow : s'.rowAt = s.rowAt)
    (hpurged : s.purged ≤ s'.purged) (hret : s.returned ≤ s'.returned) : Grows s s' :=
  ⟨hver.ge, hpurged, hret, fun v _ => by rw [hrow]⟩

/-- The invariant after a step that changes the caches, the call `n` or the request `n`. -/
theorem CacheInvariant.step_to (h : CacheInvariant s) (hg : Grows s s') (hcaches : CachesOk s')
    (hcs : ∀ call ∈ s'.calls, call ∈ s.calls ∨ AdminOk s' call.stage)
    (hrequ : ∀ r ∈ s'.requests, r ∈ s.requests ∨
      r.floor ≤ s'.returned ∧ StageOk s' r.floor r.stage) : CacheInvariant s' where
  caches := hcaches
  calls := fun call hcall => (hcs call hcall).elim (fun hold => (h.calls call hold).grow hg) id
  requests := fun r hr => (hrequ r hr).elim
    (fun hold => ⟨(h.requests r hold).1.trans hg.returned, (h.requests r hold).2.grow hg⟩) id

theorem valid_current {account : Account} (h : s.row = some account) :
    Valid s ⟨account, s.version⟩ := ⟨le_rfl, h⟩

/-- What one step of a request keeps. -/
structure Advanced (s : CacheState) (floor : ℕ) (r : CacheState × RequestStage) : Prop where
  grows : Grows s r.1
  caches : CachesOk r.1
  calls : r.1.calls = s.calls
  requests : r.1.requests = s.requests
  stage : StageOk r.1 floor r.2

theorem Advanced.still (h : CachesOk s) (hst : StageOk s floor stage) :
    Advanced s floor (s, stage) :=
  ⟨.same rfl rfl le_rfl le_rfl, h, rfl, rfl, hst⟩

theorem stageOk_tokenFound (s : CacheState) (floor : ℕ) (now : ℤ) (t : ApiToken) :
    StageOk s floor (tokenFound now t) := by
  unfold tokenFound
  split <;> trivial

theorem advance_advanced (groups : GroupSettings) (h : CachesOk s) (hfloor : floor ≤ s.returned)
    (hst : StageOk s floor stage) (now : ℤ) : Advanced s floor (s.advance groups now stage) := by
  cases stage with
  | started =>
    simp only [advance]
    split
    · exact .still h (stageOk_tokenFound s floor now _)
    · exact .still h trivial
  | tokenMissed =>
    simp only [advance]
    split
    · exact ⟨.same rfl rfl le_rfl le_rfl, { h with }, rfl, rfl, stageOk_tokenFound _ floor now _⟩
    · exact .still h trivial
  | tokenKnown t =>
    simp only [advance]
    split
    next u hu =>
      obtain ⟨hpurged, hval⟩ := h.cached u hu
      exact .still h ⟨hfloor.trans (h.returned.trans hpurged), hval⟩
    · exact .still h trivial
  | userMissed t =>
    simp only [advance]
    split
    next account hrow =>
      have hval := valid_current hrow
      have hfr : floor ≤ s.version := hfloor.trans (h.returned.trans h.purged)
      refine ⟨.same rfl rfl le_rfl le_rfl, ⟨h.returned, h.purged, h.cached, ?_⟩, rfl, rfl,
        ⟨hfr, hval⟩⟩
      intro u hu
      obtain hold | rfl := (List.mem_append.mp hu).imp_right List.mem_singleton.mp
      · exact h.fills u hold
      · exact hval
    · exact .still h trivial
  | userKnown t u =>
    simp only [advance]
    split
    · exact .still h hst
    · exact .still h trivial
  | accepted t u => exact .still h hst
  | rejected => exact .still h trivial

/-- What one step of a call keeps. -/
structure Proceeded (s : CacheState) (r : CacheState × AdminStage) : Prop where
  grows : Grows s r.1
  caches : CachesOk r.1
  calls : r.1.calls = s.calls
  requests : r.1.requests = s.requests
  stage : AdminOk r.1 r.2

theorem Proceeded.still {stage : AdminStage} (h : CachesOk s) (hst : AdminOk s stage) :
    Proceeded s (s, stage) :=
  ⟨.same rfl rfl le_rfl le_rfl, h, rfl, rfl, hst⟩

theorem Grows.setRow (s : CacheState) (row : Option Account) : Grows s (s.setRow row) where
  version := Nat.le_succ _
  purged := le_rfl
  returned := le_rfl
  past := fun _ hv => Function.update_of_ne (Nat.lt_succ_of_le hv).ne _ _

section
variable (h : CachesOk s)
include h

theorem CachesOk.setRow (row : Option Account) : CachesOk (s.setRow row) where
  returned := h.returned
  purged := h.purged.trans (Nat.le_succ _)
  cached := fun u hu => ⟨(h.cached u hu).1, (h.cached u hu).2.grow (.setRow s row)⟩
  fills := fun u hu => (h.fills u hu).grow (.setRow s row)

theorem proceeded_written (row : Option Account) :
    Proceeded s (s.setRow row, .written (s.version + 1)) :=
  ⟨.setRow s row, h.setRow row, rfl, rfl, le_refl (s.version + 1)⟩

theorem proceeded_invalidated (hv : v ≤ s.version) :
    Proceeded s ({ s with cachedUser := none }.purge v, .userInvalidated v) where
  grows := .same rfl rfl (le_max_left _ _) le_rfl
  caches := ⟨h.returned.trans (le_max_left _ _), max_le h.purged hv, (fun _ hu => nomatch hu),
    h.fills⟩
  calls := rfl
  requests := rfl
  stage := le_max_right s.purged v

theorem proceeded_answer (hv : v ≤ s.purged) :
    Proceeded s (s.answer v, .returned) where
  grows := .same rfl rfl le_rfl (le_max_left _ _)
  caches := ⟨max_le h.returned hv, h.purged, h.cached, h.fills⟩
  calls := rfl
  requests := rfl
  stage := trivial

theorem proceeded_cached {call : AdminCall} {u : Snapshot}
    (hfr : s.purged ≤ u.version) (hv : v ≤ u.version) (hval : Valid s u)
    (hst : call.stage = .reloaded v u) : Proceeded s (s.proceed call) := by
  have hver : v ≤ s.version := hv.trans hval.1
  simp only [proceed, hst]
  split
  · refine ⟨.same rfl rfl le_rfl le_rfl, ⟨h.returned, h.purged, ?_, h.fills⟩, rfl, rfl,
      ⟨hver, fun hno => by cases hno⟩⟩
    rintro _ ⟨⟩
    exact ⟨hfr, hval⟩
  refine ⟨.same rfl rfl (le_max_left _ _) le_rfl, ⟨h.returned.trans (le_max_left _ _),
    max_le h.purged hver, ?_, h.fills⟩, rfl, rfl, ⟨hver, fun _ => le_max_right _ _⟩⟩
  rintro _ ⟨⟩
  exact ⟨max_le hfr hv, hval⟩

theorem proceed_proceeded {call : AdminCall} (hst : AdminOk s call.stage)
    (htimely : call.Timely s) : Proceeded s (s.proceed call) := by
  obtain ⟨hch, htimely⟩ := htimely
  cases hcall : call.stage with
  | loaded =>
    simp only [proceed, hcall]
    split
    · exact proceeded_written h _
    · exact .still h trivial
  | written v =>
    rw [hcall] at hst
    have hreload : Proceeded s (match s.row with
        | some account => (s, .reloaded v ⟨account, s.version⟩)
        | none => (s, .returned)) := by
      split
      next account hrow => exact .still h ⟨hst, valid_current hrow⟩
      · exact .still h trivial
    simp only [proceed, hcall]
    cases hkind : call.change with
    | hardDelete => exact absurd hkind hch
    | delete => exact proceeded_invalidated h hst
    | disable | edit status role group => exact hreload
  | reloaded v u =>
    rw [hcall] at hst htimely
    exact proceeded_cached h (htimely u rfl) hst.1 hst.2 hcall
  | cached v invalidates =>
    rw [hcall] at hst
    simp only [proceed, hcall]
    cases invalidates with
    | true => exact proceeded_invalidated h hst.1
    | false => exact proceeded_answer h (hst.2 rfl)
  | userInvalidated v =>
    rw [hcall] at hst
    simp only [proceed, hcall]
    exact ⟨.same rfl rfl le_rfl le_rfl, { h with }, rfl, rfl, hst⟩
  | tokensInvalidated v =>
    rw [hcall] at hst
    simp only [proceed, hcall]
    exact proceeded_answer h hst
  | returned =>
    simp only [proceed, hcall]
    exact .still h trivial

end

theorem CacheInvariant.start (row : Option Account) (token : Option ApiToken) :
    CacheInvariant (.start row token) where
  caches := ⟨le_rfl, le_rfl, (fun _ hu => nomatch hu), fun _ hu => nomatch hu⟩
  calls := fun _ hcall => nomatch hcall
  requests := fun _ hr => nomatch hr

section
variable (h : CacheInvariant s)
include h

theorem CacheInvariant.recache {user : Option Snapshot}
    {token : Option ApiToken} (huser : ∀ u ∈ user, s.purged ≤ u.version ∧ Valid s u) :
    CacheInvariant { s with cachedUser := user, cachedToken := token } :=
  h.step_to (.same rfl rfl le_rfl le_rfl)
    ⟨h.caches.returned, h.caches.purged, huser, h.caches.fills⟩
    (fun _ hcall => .inl hcall) (fun _ hr => .inl hr)

theorem CacheInvariant.advanced {out : CacheState × RequestStage}
    (hfloor : floor ≤ s.returned) (hadv : Advanced s floor out) (n : ℕ) :
    CacheInvariant { out.1 with requests := out.1.requests.set n ⟨floor, out.2⟩ } := by
  have hgrows := hadv.grows
  have hcaches := hadv.caches
  refine h.step_to { hgrows with }
    { hcaches with }
    (fun call hcall => .inl (hadv.calls ▸ hcall)) fun r hr => ?_
  obtain hold | rfl := List.mem_or_eq_of_mem_set hr
  · exact .inl (hadv.requests ▸ hold)
  · exact .inr ⟨hfloor.trans hgrows.returned, hadv.stage⟩

theorem CacheInvariant.proceeded {out : CacheState × AdminStage}
    (hproc : Proceeded s out) (n : ℕ) (call : AdminCall) :
    CacheInvariant { out.1 with calls := out.1.calls.set n { call with stage := out.2 } } := by
  have hgrows := hproc.grows
  have hcaches := hproc.caches
  refine h.step_to { hgrows with }
    { hcaches with }
    (fun call' hcall' => ?_) (fun r hr => .inl (hproc.requests ▸ hr))
  obtain hold | rfl := List.mem_or_eq_of_mem_set hcall'
  · exact .inl (hproc.calls ▸ hold)
  · exact .inr hproc.stage

/-- One timely step. -/
theorem CacheInvariant.step (c : CacheCall) (htimely : c.Timely s) :
    CacheInvariant (c.step groups s) := by
  cases c with
  | request =>
    refine h.step_to (.same rfl rfl le_rfl le_rfl)
      ⟨h.caches.returned, h.caches.purged, h.caches.cached, h.caches.fills⟩
      (fun _ hcall => .inl hcall) fun r hr => ?_
    obtain hold | rfl := (List.mem_append.mp hr).imp_right List.mem_singleton.mp
    · exact .inl hold
    · exact .inr ⟨le_rfl, trivial⟩
  | advance n now =>
    simp only [CacheCall.step]
    cases hr : s.requests[n]? with
    | none => exact h
    | some r =>
      obtain ⟨hfloor, hst⟩ := h.requests r (List.mem_of_getElem? hr)
      have hadv := advance_advanced groups h.caches hfloor hst now
      exact h.advanced hfloor hadv n
  | fillUser n =>
    simp only [CacheCall.step]
    cases hu : s.userFills[n]? with
    | none => exact h
    | some u =>
      refine h.recache ?_
      rintro _ ⟨⟩
      exact ⟨htimely u hu, h.caches.fills u (List.mem_of_getElem? hu)⟩
  | fillToken n =>
    simp only [CacheCall.step]
    split
    · exact h.recache h.caches.cached
    · exact h
  | expireUser => exact h.recache fun _ hu => nomatch hu
  | expireToken => exact h.recache h.caches.cached
  | manage change =>
    simp only [CacheCall.step]
    split
    · refine h.step_to (.same rfl rfl le_rfl le_rfl)
        ⟨h.caches.returned, h.caches.purged, h.caches.cached, h.caches.fills⟩ ?_
        (fun _ hr => .inl hr)
      intro call hcall
      obtain hold | rfl := (List.mem_append.mp hcall).imp_right List.mem_singleton.mp
      · exact .inl hold
      · exact .inr trivial
    · exact h
  | admin n =>
    simp only [CacheCall.step]
    cases hcall : s.calls[n]? with
    | none => exact h
    | some call =>
      have hproc := proceed_proceeded h.caches
        (h.calls call (List.mem_of_getElem? hcall)) (htimely call hcall)
      exact h.proceeded hproc n call

end

end

/-- In every run in which nothing is written to the cache that is older than a change which has
removed the cached user, and no user is deleted without clearing the caches, a request is
accepted only with a state of the row that is not older than any change whose call had returned
when the request started. -/
theorem disabled_users_blocked (groups : GroupSettings) (row : Option Account)
    (token : Option ApiToken) (calls : List CacheCall)
    (h : Along (CacheCall.step groups) CacheCall.Timely calls (.start row token)) :
    AcceptedFresh (run (CacheCall.step groups) calls (.start row token)) := by
  have hinv := run_invariant (I := CacheInvariant) (fun c s hok hs => hs.step c hok) h
    (.start row token)
  intro r hr t u hst
  have hok := (hinv.requests r hr).2
  rw [hst] at hok
  exact ⟨hok.1, hok.2.2⟩

def noGroups : GroupSettings := ⟨fun _ _ => false, fun _ => false⟩

def enabledAccount : Account := ⟨userStatusEnabled, roleCommonUser, "default"⟩

def usableToken : ApiToken := ⟨tokenStatusEnabled, -1, 0, true, ""⟩

def requestOnMiss (n : ℕ) : List CacheCall :=
  [.request, .advance n 0, .advance n 0, .advance n 0, .advance n 0]

def disableCall : List CacheCall := .manage .disable :: List.replicate 7 (.admin 0)

/-- The row is written to the cache before the user is disabled, and the next request reads the
new row. -/
def disabledInTime : List CacheCall :=
  requestOnMiss 0 ++ [.advance 0 0, .fillUser 0] ++ disableCall ++ requestOnMiss 1 ++ [.advance 1 0]

theorem disabled_users_blocked_sample : AcceptedFresh (run (CacheCall.step noGroups) disabledInTime
      (.start (some enabledAccount) (some usableToken))) ∧
    (run (CacheCall.step noGroups) disabledInTime
      (.start (some enabledAccount) (some usableToken))).requests =
      [⟨0, .accepted usableToken ⟨enabledAccount, 0⟩⟩, ⟨1, .rejected⟩] :=
  ⟨disabled_users_blocked noGroups _ _ _ (by decide +kernel), by decide +kernel⟩

/-- A request has read the row before the user is disabled and writes it to the cache after the
call has returned. The next request is accepted with the old status. -/
theorem late_fill_unblocks_user : (run (CacheCall.step noGroups)
      (requestOnMiss 0 ++ disableCall ++ [.fillUser 0] ++ [.request, .advance 1 0, .advance 1 0,
        .advance 1 0, .advance 1 0])
      (.start (some enabledAccount) (some usableToken))).requests[1]? =
      some ⟨1, .accepted usableToken ⟨enabledAccount, 0⟩⟩ := by
  decide +kernel

end NewApi.Cache
