import NewApi.UserEdits
import NewApi.GoStrings

/-!
# Revocation of sessions

A login is bound to the session version that the authenticated row had, and a change of the
password, the role, the status or a second factor raises the version. Cookies are in the hands
of the client, so everything that was ever issued may be presented again: a login keeps all its
stages. For each one the model remembers how many security changes had been committed when it
was authenticated; the code does not know this number.
-/
namespace NewApi.Auth

/-- How far a login has come. A cookie from before versions were stored has none. -/
inductive Stage where
  | validated
  | pending (createdAt : ℤ)
  | verifying
  | loaded
  | ready
  | session
  | unversioned
  deriving DecidableEq

/-- A stage of a login, with the version it is bound to. `since` counts the security changes
that had been committed when it was authenticated. -/
structure Login where
  stage : Stage
  version : ℤ
  since : ℕ
  deriving DecidableEq

/-- The roles that exist. -/
def isValidateRole (role : ℤ) : Bool :=
  decide (role = 0 ∨ role = roleCommonUser ∨ role = roleAdminUser ∨ role = roleRootUser)

/-- A session must name a user and a role. -/
def validUserInfo (row : UserRow) : Bool :=
  decide (trimSpace (row.profile .username) ≠ "") && isValidateRole (row.security .role)

/-- The user is not disabled. -/
def enabled (row : UserRow) : Bool := decide (row.security .status = userStatusEnabled)

/-- How a session is judged. -/
inductive SessionAuth where
  | ok | invalid | revoked
  deriving DecidableEq

/-- The check of a request's session against the stored version. -/
def resolveSessionAuth (row : UserRow) (version : Option ℤ) : SessionAuth :=
  if row.sessionVersion < 1 then .invalid
  else
    match version with
    | none => if row.sessionVersion ≠ 1 then .revoked else .ok
    | some version => if version ≠ row.sessionVersion then .revoked else .ok

/-- The last check of a login. `version` is that of the row the login has read. -/
def setupLoginAccepts (row : UserRow) (version : ℤ) : Bool :=
  enabled row && decide (1 ≤ row.sessionVersion) && validUserInfo row &&
    decide (1 ≤ version) && decide (version = row.sessionVersion)

def pending2FAMaxAge : ℤ := 300

/-- The check with which the second step of a login begins. -/
def pendingAccepts (row : UserRow) (now createdAt version : ℤ) : Bool :=
  decide (1 ≤ version) && decide (createdAt ≤ now) && decide (now - createdAt < pending2FAMaxAge) &&
    enabled row && decide (row.sessionVersion = version)

/-- What is done to the record of the second factor after it was read: a setup replaces a
record that is not enabled, a check of a code saves the record as it was read, and the record
or its backup codes are replaced. -/
inductive FactorChange where
  | setup | usage | delete | backupCodes
  deriving DecidableEq

/-- The record after the change; `some true` is one that is enabled. A save of a record that is
gone inserts it. -/
def FactorChange.write (selected current : Option Bool) : FactorChange → Option Bool
  | .setup =>
    match selected with
    | none => if current = none then some false else current
    | some isEnabled => if isEnabled then current else some false
  | .usage => if selected = none then current else selected
  | .delete => if selected = none then current else none
  | .backupCodes => current

/-- The session version is raised with the change. -/
def FactorChange.bumps (selected current : Option Bool) : FactorChange → Bool
  | .setup | .usage => false
  | .delete => decide (selected = some true) && current.isSome
  | .backupCodes => decide (selected = some true)

/-- The change turns the factor on or off, or replaces the backup codes of one that is on. -/
def FactorChange.changesSecurity (selected current : Option Bool) (change : FactorChange) : Bool :=
  decide (¬(change.write selected current = some true ↔ current = some true)) ||
    (decide (change = .backupCodes) && decide (current = some true))

/-- The user with the operations under way, the second factor with its changes under way and
what they have read, and the logins. -/
structure AuthState where
  edits : EditState
  twoFA : Option Bool
  factorChanges : List (FactorChange × Option Bool)
  logins : List Login
  changes : ℕ

open AuthState

/-- The steps of logins, edits and the second factor. -/
inductive AuthCall where
  | edit (c : EditCall)
  | resetPassword (password : String)
  | enableTwoFA
  | selectFactor (change : FactorChange)
  | writeFactor (change : ℕ)
  | changePasskey
  | backfillVersion
  | login (password : String)
  | checkTwoFA (login : ℕ) (now : ℤ)
  | verify (login : ℕ) (now : ℤ)
  | loadUser (login : ℕ)
  | checkCode (login : ℕ) (valid : Bool)
  | setupLogin (login : ℕ)
  | request (login : ℕ)

open AuthCall

namespace AuthState
variable (s : AuthState)

def row : UserRow := s.edits.user

/-- The version that a session must have now. -/
def version : ℤ := s.row.sessionVersion

/-- A login is added. -/
def issue (stage : Stage) (version : ℤ) (since : ℕ) : AuthState :=
  { s with logins := s.logins ++ [⟨stage, version, since⟩] }

def setRow (row : UserRow) : AuthState := { s with edits := { s.edits with user := row } }

/-- The ghost counter of changes of the security. -/
def count (changed : Bool) : AuthState :=
  { s with changes := if changed then s.changes + 1 else s.changes }

/-- The version is raised if the code does so. -/
def bumpIf (bump : Bool) : AuthState :=
  if bump then s.setRow s.row.bumpSessionVersion else s

variable (stage : Stage) (v : ℤ) (since : ℕ) (b : Bool)

@[simp] theorem issue_logins :
    (s.issue stage v since).logins = s.logins ++ [⟨stage, v, since⟩] := rfl

@[simp] theorem issue_version : (s.issue stage v since).version = s.version := rfl

@[simp] theorem issue_changes : (s.issue stage v since).changes = s.changes := rfl

@[simp] theorem count_edits : (s.count b).edits = s.edits := rfl

@[simp] theorem count_version : (s.count b).version = s.version := rfl

@[simp] theorem count_logins : (s.count b).logins = s.logins := rfl

@[simp] theorem count_changes :
    (s.count b).changes = if b then s.changes + 1 else s.changes := rfl

@[simp] theorem bumpIf_version : (s.bumpIf b).version =
    if b then s.row.bumpSessionVersion.sessionVersion else s.version := by
  cases b <;> rfl

@[simp] theorem bumpIf_changes : (s.bumpIf b).changes = s.changes := by
  cases b <;> rfl

@[simp] theorem bumpIf_logins : (s.bumpIf b).logins = s.logins := by
  cases b <;> rfl

end AuthState

/-- The statement sets a password, or a role or status other than the stored one. -/
def changesSecurity (row : UserRow) (w : UserWrite) : Bool :=
  w.setsPassword.isSome ||
    [SecurityColumn.role, .status].any fun c => (w.sets c).any fun v => decide (v ≠ row.security c)

/-- The edit changes what the sessions should depend on. -/
def editChangesSecurity (s : EditState) : EditCall → Bool
  | .writeUser n => (s.due n).any fun d => changesSecurity s.user d.1
  | _ => false

/-- The second factor is changed after it was read. -/
def AuthState.writeFactor (s : AuthState) (change : FactorChange) (selected : Option Bool) :
    AuthState :=
  ({ s with twoFA := change.write selected s.twoFA }.bumpIf (change.bumps selected s.twoFA)).count
    (change.changesSecurity selected s.twoFA)

def AuthCall.step : AuthCall → AuthState → AuthState
  | .edit c, s => { s with edits := c.step s.edits }.count (editChangesSecurity s.edits c)
  | .resetPassword password, s =>
    (s.setRow { s.row with password := password }.bumpSessionVersion).count true
  | .enableTwoFA, s =>
    if s.twoFA = some false then ({ s with twoFA := some true }.bumpIf true).count true else s
  | .selectFactor change, s =>
    { s with factorChanges := s.factorChanges ++ [(change, s.twoFA)] }
  | .writeFactor n, s =>
    match s.factorChanges[n]? with
    | some (change, selected) => s.writeFactor change selected
    | none => s
  | .changePasskey, s => (s.bumpIf true).count true
  | .backfillVersion, s =>
    if s.version < 1 then s.setRow { s.row with sessionVersion := 1 } else s
  | .login password, s =>
    if password ≠ "" ∧ password = s.row.password ∧ enabled s.row then
      s.issue .validated s.version s.changes
    else s
  | .checkTwoFA n now, s =>
    match s.logins[n]? with
    | some ⟨.validated, version, since⟩ =>
      s.issue (if s.twoFA = some true then .pending now else .ready) version since
    | _ => s
  | .verify n now, s =>
    match s.logins[n]? with
    | some ⟨.pending createdAt, version, since⟩ =>
      if pendingAccepts s.row now createdAt version then s.issue .verifying version since
      else s
    | _ => s
  | .loadUser n, s =>
    match s.logins[n]? with
    | some ⟨.verifying, _, since⟩ => s.issue .loaded s.version since
    | _ => s
  | .checkCode n valid, s =>
    match s.logins[n]? with
    | some ⟨.loaded, version, since⟩ =>
      if s.twoFA = some true ∧ valid then s.issue .ready version since else s
    | _ => s
  | .setupLogin n, s =>
    match s.logins[n]? with
    | some ⟨.ready, version, since⟩ =>
      if setupLoginAccepts s.row version then s.issue .session s.version since else s
    | _ => s
  | .request n, s =>
    match s.logins[n]? with
    | some ⟨.unversioned, _, since⟩ =>
      if resolveSessionAuth s.row none = .ok ∧ enabled s.row ∧ validUserInfo s.row then
        s.issue .session s.version since
      else s
    | _ => s

/-- Any user, with cookies from before versions were stored. -/
def AuthState.start (user : UserRow) (token : TokenRow) (twoFA : Option Bool) (cookies : ℕ) :
    AuthState :=
  ⟨⟨user, token, [], []⟩, twoFA, [], List.replicate cookies ⟨.unversioned, 1, 0⟩, 0⟩

/-- The login would be accepted now, at the check that is next for it. -/
def Login.Accepted (row : UserRow) (l : Login) : Prop :=
  match l.stage with
  | .pending createdAt => ∃ now, pendingAccepts row now createdAt l.version = true
  | .ready => setupLoginAccepts row l.version = true
  | .session => resolveSessionAuth row (some l.version) = .ok
  | .unversioned => resolveSessionAuth row none = .ok
  | _ => False

/-- Nothing that was authenticated before the last security change is accepted. -/
def Revoked (s : AuthState) : Prop := ∀ l ∈ s.logins, l.Accepted s.row → l.since = s.changes

variable {row : UserRow} {version : ℤ} {s s' : AuthState}

theorem resolveSessionAuth_ok (h : resolveSessionAuth row (some version) = .ok) :
    version = row.sessionVersion := by
  simp only [resolveSessionAuth] at h
  split_ifs at h with hlow hne
  exact not_not.mp hne

theorem resolveSessionAuth_none_ok (h : resolveSessionAuth row none = .ok) :
    row.sessionVersion = 1 := by
  simp only [resolveSessionAuth] at h
  split_ifs at h with hlow hne
  exact not_not.mp hne

theorem setupLoginAccepts_version (h : setupLoginAccepts row version = true) :
    version = row.sessionVersion := by
  simp only [setupLoginAccepts, Bool.and_eq_true, decide_eq_true_eq] at h
  exact h.2

theorem pendingAccepts_version {now createdAt : ℤ}
    (h : pendingAccepts row now createdAt version = true) : version = row.sessionVersion := by
  simp only [pendingAccepts, Bool.and_eq_true, decide_eq_true_eq] at h
  exact h.2.symm

/-- An invitation saves the version that is stored, and an update or edit writes while the role
and status are those that its transaction has selected. -/
def writeUndisturbed (row : UserRow) : UserWrite × (SecurityColumn → ℤ) → Prop
  | (.invite copy _, _) => copy.sessionVersion = row.sessionVersion
  | (_, current) => current = row.security

/-- No other statement has come between a read and the statement that relies on it: the write
of the user, the change of the second factor, and, in the second step of a login, the read of
the user after the check of the version. -/
def AuthCall.Undisturbed : AuthCall → AuthState → Prop
  | .edit (.writeUser n), s => ∀ d ∈ s.edits.due n, writeUndisturbed s.row d
  | .writeFactor n, s => ∀ d ∈ s.factorChanges[n]?, d.2 = s.twoFA
  | .loadUser n, s => ∀ l ∈ s.logins[n]?, l.stage = .verifying → l.version = s.version
  | _, _ => True

/-- The version does not fall, and a security change raises it. -/
inductive Progress (s s' : AuthState) : Prop
  | quiet (hversion : s.version ≤ s'.version) (hchanges : s'.changes = s.changes)
  | changed (hversion : s.version < s'.version) (htwo : 2 ≤ s'.version)
      (hchanges : s'.changes = s.changes + 1)

/-- A raised version is that of no older session. -/
theorem bumpSessionVersion_lt (row : UserRow) :
    row.sessionVersion < row.bumpSessionVersion.sessionVersion ∧
      2 ≤ row.bumpSessionVersion.sessionVersion := by
  unfold UserRow.bumpSessionVersion
  dsimp only
  split_ifs <;> omega

/-- A step that raises the version whenever it counts a change. -/
theorem Progress.of_bump (bump changed : Bool)
    (hver : s'.version = if bump then s.row.bumpSessionVersion.sessionVersion else s.version)
    (hchs : s'.changes = if changed then s.changes + 1 else s.changes)
    (hbumps : changed = true → bump = true) : Progress s s' := by
  obtain ⟨hlt, htwo⟩ := bumpSessionVersion_lt s.row
  have hrow : s.version = s.row.sessionVersion := rfl
  cases changed with
  | true =>
    rw [hbumps rfl, if_pos rfl] at hver
    exact .changed (by omega) (by omega) hchs
  | false =>
    refine .quiet ?_ hchs
    rw [hver]
    split_ifs <;> omega

theorem securityChanged_of_ne {new row : SecurityColumn → ℤ} {c : SecurityColumn}
    (hgiven : new c ≠ 0) (hne : new c ≠ row c) : securityChanged new row = true := by
  cases c <;> simp [securityChanged, hgiven, hne]

/-- What a statement on the user does to the version. -/
theorem userWrite_progress {w : UserWrite} {current : SecurityColumn → ℤ}
    (h : writeUndisturbed row (w, current)) : ∃ bump : Bool, (w.apply current row).sessionVersion =
        (if bump then row.bumpSessionVersion.sessionVersion else row.sessionVersion) ∧
      (changesSecurity row w = true → bump = true) := by
  cases w with
  | update u =>
    have hcur : current = row.security := h
    refine ⟨_, u.write_version current row, fun hch => ?_⟩
    simp only [changesSecurity, UserWrite.setsPassword, UserWrite.sets, Bool.or_eq_true,
      List.any_eq_true, Option.any_eq_true, Option.isSome_iff_exists] at hch
    obtain ⟨password, hpw⟩ | ⟨c, -, v, hv, hne⟩ := hch
    · split_ifs at hpw with hset
      simp [hset.1]
    · split_ifs at hv with hset
      cases hv
      rw [hcur, securityChanged_of_ne hset.2 (of_decide_eq_true hne), Bool.or_true]
  | edit e =>
    have hcur : current = row.security := h
    refine ⟨_, e.write_version current row, fun hch => ?_⟩
    simp only [changesSecurity, UserWrite.setsPassword, UserWrite.sets, Bool.or_eq_true,
      List.any_eq_true, Option.any_eq_true] at hch
    obtain hpw | ⟨c, -, v, hv, hne⟩ := hch
    · rw [hpw, Bool.true_or]
    · split_ifs at hv with hset
      cases hv
      rw [hcur, securityChanged_of_ne hset (of_decide_eq_true hne), Bool.or_true]
  | invite copy quota =>
    have hver : copy.sessionVersion = row.sessionVersion := h
    exact ⟨false, hver, fun hch => by cases hch⟩

theorem editCall_version {c : EditCall} (s : EditState) (h : ∀ n, c ≠ .writeUser n) :
    (c.step s).user.sessionVersion = s.user.sessionVersion := by
  cases c with
  | writeUser n => exact absurd rfl (h n)
  | loadManaged | loadToken | writeToken | reserveUser | transferAff | reserveToken =>
    simp only [EditCall.step]
    split <;> rfl
  | _ => rfl

theorem edit_progress {c : EditCall} (h : (edit c).Undisturbed s) :
    Progress s ((edit c).step s) := by
  by_cases hwr : ∃ n, c = .writeUser n
  · obtain ⟨n, rfl⟩ := hwr
    cases hdue : s.edits.due n with
    | none =>
      refine Progress.of_bump false false ?_ ?_ id
      · simp [step, version, row, EditCall.step, hdue]
      · simp [step, editChangesSecurity, hdue]
    | some d =>
      obtain ⟨bump, hver, hbumps⟩ := userWrite_progress (h d hdue)
      have hchd : editChangesSecurity s.edits (.writeUser n) = changesSecurity s.row d.1 := by
        simp [editChangesSecurity, hdue, row]
      refine Progress.of_bump bump _ ?_ rfl (by rwa [hchd])
      simpa [step, version, row, EditCall.step, hdue] using hver
  · have hver := editCall_version s.edits fun n hn => hwr ⟨n, hn⟩
    have hqt : editChangesSecurity s.edits c = false := by
      cases c <;> first | rfl | exact absurd ⟨_, rfl⟩ hwr
    refine .quiet hver.ge ?_
    simp [step, hqt]

theorem FactorChange.bumps_of_changesSecurity (current : Option Bool) (change : FactorChange)
    (h : change.changesSecurity current current = true) : change.bumps current current = true := by
  revert h
  cases change <;> cases current with
    | none => decide
    | some isEnabled => cases isEnabled <;> decide

theorem writeFactor_progress (s : AuthState) (change : FactorChange) :
    Progress s (s.writeFactor change s.twoFA) := by
  refine Progress.of_bump (change.bumps s.twoFA s.twoFA)
    (change.changesSecurity s.twoFA s.twoFA) ?_ ?_
    (FactorChange.bumps_of_changesSecurity s.twoFA change)
  · rw [AuthState.writeFactor, count_version, bumpIf_version]
    rfl
  · rw [AuthState.writeFactor, count_changes, bumpIf_changes]

/-- What a step does: it leaves the logins as they are, or issues one more stage of a login. A
stage that is issued is a new authentication or bound to the version of an earlier stage. -/
inductive AuthEffect (s : AuthState) : AuthState → Prop
  | kept {s' : AuthState} (hlogins : s'.logins = s.logins) (h : Progress s s') : AuthEffect s s'
  | authenticated (stage : Stage) (h : stage ≠ .unversioned) :
      AuthEffect s (s.issue stage s.version s.changes)
  | continued (stage : Stage) (h : stage ≠ .unversioned) (l : Login) (hl : l ∈ s.logins) :
      AuthEffect s (s.issue stage l.version l.since)
  | versioned (stage : Stage) (h : stage ≠ .unversioned) (l : Login) (hl : l ∈ s.logins)
      (hold : l.stage = .unversioned) : AuthEffect s (s.issue stage 1 l.since)

theorem AuthEffect.unchanged (s : AuthState) : AuthEffect s s := .kept rfl (.quiet le_rfl rfl)

theorem AuthCall.effect {c : AuthCall} (h : c.Undisturbed s) : AuthEffect s (c.step s) := by
  cases c with
  | edit c => exact .kept rfl (edit_progress h)
  | resetPassword password | changePasskey => exact .kept rfl (.of_bump true true rfl rfl id)
  | enableTwoFA =>
    simp only [step]
    split_ifs
    · exact .kept rfl (.of_bump true true rfl rfl id)
    · exact .unchanged s
  | selectFactor change => exact .kept rfl (.quiet le_rfl rfl)
  | writeFactor n =>
    simp only [step]
    cases hch : s.factorChanges[n]? with
    | none => exact .unchanged s
    | some d =>
      obtain ⟨change, selected⟩ := d
      have hsel : selected = s.twoFA := h _ hch
      subst hsel
      exact .kept (bumpIf_logins _ _) (writeFactor_progress s change)
  | backfillVersion =>
    simp only [step]
    split_ifs with hlow
    · exact .kept rfl (.quiet (le_of_lt hlow) rfl)
    · exact .unchanged s
  | login password =>
    simp only [step]
    split_ifs
    · exact .authenticated .validated (by decide)
    · exact .unchanged s
  | checkTwoFA n now =>
    simp only [step]
    split
    next version since hl =>
      have hst : (if s.twoFA = some true then Stage.pending now else .ready) ≠
          .unversioned := by split_ifs <;> simp
      exact .continued _ hst _ (List.mem_of_getElem? hl)
    · exact .unchanged s
  | verify n now =>
    simp only [step]
    split
    next createdAt version since hl =>
      split_ifs
      · exact .continued .verifying (by decide) _ (List.mem_of_getElem? hl)
      · exact .unchanged s
    · exact .unchanged s
  | loadUser n =>
    simp only [step]
    split
    next version since hl =>
      have hver : version = s.version := h _ hl rfl
      rw [← hver]
      exact .continued .loaded (by decide) _ (List.mem_of_getElem? hl)
    · exact .unchanged s
  | checkCode n valid =>
    simp only [step]
    split
    next version since hl =>
      split_ifs
      · exact .continued .ready (by decide) _ (List.mem_of_getElem? hl)
      · exact .unchanged s
    · exact .unchanged s
  | setupLogin n =>
    simp only [step]
    split
    next version since hl =>
      split_ifs with hacce
      · have hver : version = s.version := setupLoginAccepts_version hacce
        rw [← hver]
        exact .continued .session (by decide) _ (List.mem_of_getElem? hl)
      · exact .unchanged s
    · exact .unchanged s
  | request n =>
    simp only [step]
    split
    next version since hl =>
      split_ifs with hok
      · have hver : s.version = 1 := resolveSessionAuth_none_ok hok.1
        rw [hver]
        exact .versioned .session (by decide) _ (List.mem_of_getElem? hl) rfl
      · exact .unchanged s
    · exact .unchanged s

/-- A login authenticated before the last security change has an older version. -/
structure Held (s : AuthState) (l : Login) : Prop where
  bound : l.version ≤ max s.version 1
  since : l.since ≤ s.changes
  older : l.since < s.changes → l.version < s.version
  unversioned : l.stage = .unversioned → l.version = 1

theorem Held.progress {l : Login} (h : Held s l) (hp : Progress s s') : Held s' l := by
  obtain ⟨hbd, hsince, holder, hst⟩ := h
  cases hp with
  | quiet hver hchs =>
    exact ⟨by omega, by omega, fun hlt => by have := holder (by omega); omega, hst⟩
  | changed hver htwo hchs =>
    exact ⟨by omega, by omega, fun _ => by omega, hst⟩

theorem Held.accepted {l : Login} (h : Held s l) (ha : l.Accepted s.row) : l.since = s.changes := by
  have hver : l.version = s.version := by
    unfold Login.Accepted at ha
    split at ha
    · obtain ⟨now, hnow⟩ := ha
      exact pendingAccepts_version hnow
    · exact setupLoginAccepts_version ha
    · exact resolveSessionAuth_ok ha
    next hst => exact (h.unversioned hst).trans (resolveSessionAuth_none_ok ha).symm
    · cases ha
  by_contra hne
  have hlt := h.older (lt_of_le_of_ne h.since hne)
  omega

theorem AuthEffect.version_le (h : AuthEffect s s') : s.version ≤ s'.version := by
  cases h with
  | kept hlogins hp =>
    cases hp with
    | quiet hver _ => exact hver
    | changed hver _ _ => exact le_of_lt hver
  | authenticated | continued | versioned => exact le_rfl

theorem AuthEffect.held (h : AuthEffect s s') (hs : ∀ l ∈ s.logins, Held s l) :
    ∀ l ∈ s'.logins, Held s' l := by
  intro l hl
  cases h with
  | kept hlogins hp =>
    rw [hlogins] at hl
    exact (hs l hl).progress hp
  | authenticated stage hst =>
    rw [issue_logins, List.mem_append, List.mem_singleton] at hl
    obtain hold | rfl := hl
    · exact (hs l hold).progress (.quiet le_rfl rfl)
    · exact ⟨le_max_left _ _, le_rfl, fun hlt => absurd hlt (lt_irrefl _),
        fun hno => absurd hno hst⟩
  | continued stage hst earlier hfrom =>
    rw [issue_logins, List.mem_append, List.mem_singleton] at hl
    obtain hold | rfl := hl
    · exact (hs l hold).progress (.quiet le_rfl rfl)
    · have hheld := hs earlier hfrom
      exact ⟨hheld.bound, hheld.since, hheld.older, fun hno => absurd hno hst⟩
  | versioned stage hst earlier hfrom hunve =>
    rw [issue_logins, List.mem_append, List.mem_singleton] at hl
    obtain hold | rfl := hl
    · exact (hs l hold).progress (.quiet le_rfl rfl)
    have hheld := hs earlier hfrom
    have holder : earlier.since < s.changes → 1 < s.version := by
      intro hlt
      rw [← hheld.unversioned hunve]
      exact hheld.older hlt
    exact ⟨le_max_right _ _, hheld.since, holder, fun hno => absurd hno hst⟩

theorem held_start (user : UserRow) (token : TokenRow) (twoFA : Option Bool) (cookies : ℕ) :
    ∀ l ∈ (start user token twoFA cookies).logins, Held (start user token twoFA cookies) l := by
  intro l hl
  obtain rfl := List.eq_of_mem_replicate hl
  exact ⟨le_max_right _ _, le_rfl, fun hlt => absurd hlt (lt_irrefl _), fun _ => rfl⟩

/-- In every run in which no statement comes between a read and the statement that relies on
it, the stored version never decreases, and nothing that was authenticated before the last
security change is accepted. -/
theorem session_revocation_final (user : UserRow) (token : TokenRow) (twoFA : Option Bool)
    (cookies : ℕ) (calls : List AuthCall) (h : Along step AuthCall.Undisturbed calls
      (start user token twoFA cookies)) :
    Along step (fun c s => s.version ≤ (c.step s).version) calls
        (start user token twoFA cookies) ∧
      Revoked (run step calls (start user token twoFA cookies)) := by
  have hstep : ∀ (c : AuthCall) s, c.Undisturbed s → (∀ l ∈ s.logins, Held s l) →
      ∀ l ∈ (c.step s).logins, Held (c.step s) l := fun c s hok hs => (effect hok).held hs
  constructor
  · exact h.imp fun c s hok => (effect hok).version_le
  · have hheld := run_invariant (I := fun s => ∀ l ∈ s.logins, Held s l) hstep h
      (held_start user token twoFA cookies)
    exact fun l hl ha => (hheld l hl).accepted ha

def sampleUser : UserRow where
  money := fun _ => 0
  security := fun _ => 1
  password := "first"
  sessionVersion := 1
  profile := fun _ => "sample"

def sampleToken : TokenRow := ⟨1, -1, 0, 0, false, ""⟩

def loginThenChange : List AuthCall :=
  [.login "first", .checkTwoFA 1 0, .setupLogin 2, .edit (.updateSelf "sample" "" (some "second")),
    .edit (.selectCurrent 0), .edit (.writeUser 0)]

theorem session_revocation_final_sample :
    Revoked (run step loginThenChange (.start sampleUser sampleToken none 1)) ∧
      (run step loginThenChange (.start sampleUser sampleToken none 1)).changes = 1 ∧
      (run step loginThenChange (.start sampleUser sampleToken none 1)).logins.length = 4 := by
  have h := session_revocation_final sampleUser sampleToken none 1 loginThenChange
    ⟨trivial, trivial, trivial, trivial, trivial, by rintro d ⟨⟩; rfl, trivial⟩
  exact ⟨h.2, by decide, by decide⟩

/-- An invitation is credited while the password is changed. -/
def inviteDuringChange : AuthState :=
  run step
    [.login "first", .checkTwoFA 0 0, .setupLogin 1, .edit (.loadInviter 5),
      .edit (.updateSelf "sample" "" (some "second")), .edit (.selectCurrent 1),
      .edit (.writeUser 1), .edit (.writeUser 0)]
    (.start sampleUser sampleToken none 0)

/-- The password is changed in the second step of a login, after the check of the version. -/
def changeDuringSecondStep : AuthState :=
  run step
    [.login "first", .checkTwoFA 0 0, .verify 1 10,
      .edit (.updateSelf "sample" "" (some "second")), .edit (.selectCurrent 0),
      .edit (.writeUser 0), .loadUser 2, .checkCode 3 true, .setupLogin 4]
    (.start sampleUser sampleToken (some true) 0)

/-- The invitation stores the old version again, and the session from before the change is
accepted; the second step of the login is accepted although its first step was before the
change. -/
theorem revoked_logins_accepted : (inviteDuringChange.changes = 1 ∧ inviteDuringChange.version = 1 ∧
      inviteDuringChange.logins[2]? = some ⟨.session, 1, 0⟩ ∧
      resolveSessionAuth inviteDuringChange.row (some 1) = .ok) ∧
    changeDuringSecondStep.changes = 1 ∧ changeDuringSecondStep.logins[5]? = some ⟨.session, 2, 0⟩ ∧
      resolveSessionAuth changeDuringSecondStep.row (some 2) = .ok := by
  decide +kernel

end NewApi.Auth
