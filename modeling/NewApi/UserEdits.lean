import NewApi.Runs
import NewApi.Schema

/-!
# Edits of users and tokens

A profile edit, an administrator's change of a role or a status, an invitation's credit and a
change of a token's status each read a row, change the copy and write it back later. This
module has the statements of those operations and of the money operations on one user and one
of its tokens, to be interleaved in any order. An update from a struct writes the fields that
are not zero; a save writes every column.
-/
namespace NewApi

/-- The columns that count money and invitations. -/
inductive MoneyColumn where
  | quota | usedQuota | affCount | affQuota | affHistory
  deriving DecidableEq

/-- The columns whose change ends the user's sessions. -/
inductive SecurityColumn where
  | role | status
  deriving DecidableEq

/-- The other columns that an edit can write. -/
inductive ProfileColumn where
  | username | displayName | email | githubId | discordId | oidcId | wechatId | telegramId
  | linuxDOId | accessToken | group | affCode | setting | remark
  deriving DecidableEq

/-- A user's row, with the columns grouped by what may write them. -/
structure UserRow where
  money : MoneyColumn → ℤ
  security : SecurityColumn → ℤ
  password : String
  sessionVersion : ℤ
  profile : ProfileColumn → String

/-- A row of `tokens`. `settings` stands for the columns that a request replaces as a whole:
the name, the group, the limits and the allowed addresses. -/
structure TokenRow where
  (status expiredTime remainQuota usedQuota : ℤ)
  unlimitedQuota : Bool
  settings : String

/-- A field of a struct is written unless it is zero. -/
def nonzero (new old : ℤ) : ℤ := if new ≠ 0 then new else old

/-- An update leaves out empty texts. -/
def nonempty (new old : String) : String := if new ≠ "" then new else old

namespace UserRow

/-- A row with the zero value in every column. -/
def zero : UserRow := ⟨fun _ => 0, fun _ => 0, "", 0, fun _ => ""⟩

/-- The update from a struct, without the session's version. -/
def updates (new row : UserRow) : UserRow where
  money := fun c => nonzero (new.money c) (row.money c)
  security := fun c => nonzero (new.security c) (row.security c)
  password := nonempty new.password row.password
  sessionVersion := row.sessionVersion
  profile := fun c => nonempty (new.profile c) (row.profile c)

/-- The version that a session must have after a change of its security. -/
def bumpSessionVersion (row : UserRow) : UserRow :=
  { row with sessionVersion := if row.sessionVersion < 1 then 2 else row.sessionVersion + 1 }

/-- One column of the profile is written. -/
def setProfile (row : UserRow) (column : ProfileColumn) (value : String) : UserRow :=
  { row with profile := fun c => if c = column then value else row.profile c }

/-- The role or the status is written. -/
def setSecurity (row : UserRow) (column : SecurityColumn) (value : ℤ) : UserRow :=
  { row with security := fun c => if c = column then value else row.security c }

/-- Amounts are added to what the columns hold. -/
def addMoney (row : UserRow) (amounts : MoneyColumn → ℤ) : UserRow :=
  { row with money := fun c => row.money c + amounts c }

variable (row : UserRow) (amounts : MoneyColumn → ℤ)

@[simp] theorem addMoney_money (c : MoneyColumn) :
    (row.addMoney amounts).money c = row.money c + amounts c := rfl

@[simp] theorem addMoney_security : (row.addMoney amounts).security = row.security := rfl

@[simp] theorem addMoney_password : (row.addMoney amounts).password = row.password := rfl

@[simp] theorem bumpSessionVersion_money : row.bumpSessionVersion.money = row.money := rfl

@[simp] theorem bumpSessionVersion_security : row.bumpSessionVersion.security = row.security := rfl

@[simp] theorem bumpSessionVersion_password : row.bumpSessionVersion.password = row.password := rfl

end UserRow

/-- An amount for one column. -/
def inColumn (column : MoneyColumn) (amount : ℤ) : MoneyColumn → ℤ :=
  fun c => if c = column then amount else 0

/-- A role or a status that is given and not the current one. -/
def securityChanged (new current : SecurityColumn → ℤ) : Bool :=
  (decide (new .role ≠ 0) && decide (new .role ≠ current .role)) ||
    (decide (new .status ≠ 0) && decide (new .status ≠ current .status))

/-- The struct that `Update` is called with. `target` is the column for which an
administrator's change is meant. -/
structure UserUpdate where
  newUser : UserRow
  updatePassword : Bool
  target : Option SecurityColumn

/-- The version is raised by what was read before, not by what the row holds now. -/
def UserUpdate.write (u : UserUpdate) (current : SecurityColumn → ℤ) (row : UserRow) : UserRow :=
  let row := u.newUser.updates row
  if u.updatePassword || securityChanged u.newUser.security current then row.bumpSessionVersion
  else row

/-- The columns that `Edit` names. A role or a status of zero is not given. -/
structure UserEdit where
  (username displayName group remark : String)
  password : Option String
  security : SecurityColumn → ℤ

/-- An administrator's edit writes these columns and no others. -/
def UserEdit.write (e : UserEdit) (current : SecurityColumn → ℤ) (row : UserRow) : UserRow :=
  let row : UserRow := { row with
    profile := fun
      | .username => e.username
      | .displayName => e.displayName
      | .group => e.group
      | .remark => e.remark
      | c => row.profile c
    password := e.password.getD row.password
    security := fun c => nonzero (e.security c) (row.security c) }
  if e.password.isSome || securityChanged e.security current then row.bumpSessionVersion else row

/-- What the inviter gets for an invitation. -/
def invitationCredit (quotaForInviter : ℤ) : MoneyColumn → ℤ
  | .affCount => 1
  | .affQuota | .affHistory => quotaForInviter
  | _ => 0

/-- The statement that ends an operation on the user. -/
inductive UserWrite where
  | update (u : UserUpdate)
  | edit (e : UserEdit)
  | invite (copy : UserRow) (quotaForInviter : ℤ)

/-- The row after the statement. `current` is the role and status that the transaction of an
update has selected. -/
def UserWrite.apply (current : SecurityColumn → ℤ) (row : UserRow) : UserWrite → UserRow
  | .update u => u.write current row
  | .edit e => e.write current row
  | .invite copy quotaForInviter => copy.addMoney (invitationCredit quotaForInviter)

def roleCommonUser : ℤ := 1
def roleAdminUser : ℤ := 10
def roleRootUser : ℤ := 100
def userStatusEnabled : ℤ := 1
def userStatusDisabled : ℤ := 2
def tokenStatusEnabled : ℤ := 1
def tokenStatusExpired : ℤ := 3
def tokenStatusExhausted : ℤ := 4

/-- What an administrator can do to a user. -/
inductive ManageAction where
  | disable | enable | promote | demote

/-- Only the root user can manage users of the own role. -/
def canManageTargetRole (myRole targetRole : ℤ) : Bool :=
  decide (myRole = roleRootUser) || decide (targetRole < myRole)

/-- The change that an administrator's action makes, unless it is refused for the role. -/
def ManageAction.change (myRole role : ℤ) : ManageAction → Option (SecurityColumn × ℤ)
  | .disable => if role = roleRootUser then none else some (.status, userStatusDisabled)
  | .enable => some (.status, userStatusEnabled)
  | .promote =>
    if myRole ≠ roleRootUser ∨ roleAdminUser ≤ role then none else some (.role, roleAdminUser)
  | .demote =>
    if role = roleRootUser ∨ role = roleCommonUser then none else some (.role, roleCommonUser)

/-- The update that the action makes of the row it has read. -/
def manageUser (myRole : ℤ) (action : ManageAction) (user : UserRow) : Option UserUpdate :=
  if canManageTargetRole myRole (user.security .role) then
    (action.change myRole (user.security .role)).map fun (column, value) =>
      ⟨user.setSecurity column value, false, some column⟩
  else none

/-- The preferences and bindings of a user: one column of the copy changes. Some callers read
the row without its password. -/
def profileUpdate (selectAll : Bool) (column : ProfileColumn) (change : String → String)
    (user : UserRow) : UserUpdate where
  newUser := { user with password := if selectAll then user.password else "" }.setProfile column
    (change (user.profile column))
  updatePassword := false
  target := none

/-- The user's own change of names and password; nothing else is in the struct. -/
def selfUpdate (username displayName : String) (password : Option String) : UserUpdate where
  newUser := ({ UserRow.zero with password := password.getD "" }.setProfile .username
    username).setProfile .displayName displayName
  updatePassword := password.isSome
  target := none

/-- A change of a token's status, unless the token cannot be enabled. -/
def statusOnlyToken (now status : ℤ) (token : TokenRow) : Option TokenRow :=
  if status = tokenStatusEnabled ∧
      (token.status = tokenStatusExpired ∧ token.expiredTime ≤ now ∧ token.expiredTime ≠ -1 ∨
        token.status = tokenStatusExhausted ∧ token.remainQuota ≤ 0 ∧
          token.unlimitedQuota = false) then none
  else some { token with status := status }

/-- The columns that a token's update selects. -/
def TokenRow.update (new row : TokenRow) : TokenRow :=
  { row with
    status := new.status
    expiredTime := new.expiredTime
    remainQuota := new.remainQuota
    unlimitedQuota := new.unlimitedQuota
    settings := new.settings }

/-- What is added to the rest is taken from the use. -/
def TokenRow.adjust (row : TokenRow) (delta : ℤ) : TokenRow :=
  { row with remainQuota := row.remainQuota + delta, usedQuota := row.usedQuota - delta }

@[simp] theorem TokenRow.adjust_remainQuota (row : TokenRow) (delta : ℤ) :
    (row.adjust delta).remainQuota = row.remainQuota + delta := rfl

@[simp] theorem TokenRow.adjust_usedQuota (row : TokenRow) (delta : ℤ) :
    (row.adjust delta).usedQuota = row.usedQuota - delta := rfl

/-- An operation on the user that has not written yet, or has. -/
structure UserOperation where
  write : UserWrite
  current : Option (SecurityColumn → ℤ)
  done : Bool

/-- The rows, and the requests that hold copies of them. -/
structure EditState where
  user : UserRow
  token : TokenRow
  operations : List UserOperation
  tokenEdits : List (Option TokenRow)

/-- The steps of the requests: a read of the row and a write are apart. -/
inductive EditCall where
  | loadProfile (selectAll : Bool) (column : ProfileColumn) (change : String → String)
  | loadManaged (myRole : ℤ) (action : ManageAction)
  | loadInviter (quotaForInviter : ℤ)
  | updateSelf (username displayName : String) (password : Option String)
  | editUser (edit : UserEdit)
  | selectCurrent (operation : ℕ)
  | writeUser (operation : ℕ)
  | loadToken (now status : ℤ)
  | writeToken (edit : ℕ)
  | adjustUser (delta : ℤ)
  | reserveUser (quota : ℤ)
  | countUsed (delta : ℤ)
  | transferAff (quotaPerUnit : ℚ) (quota : ℤ)
  | adjustToken (delta : ℤ)
  | reserveToken (quota : ℤ)

open EditCall

namespace EditState
variable (s : EditState)

/-- A request has read the row and will write. -/
def start (write : UserWrite) : EditState :=
  { s with operations := s.operations ++ [⟨write, none, false⟩] }

/-- The statement of an operation that has come to it. -/
def due (operation : ℕ) : Option (UserWrite × (SecurityColumn → ℤ)) :=
  s.operations[operation]?.bind fun op =>
    if op.done then none else match op.write with
      | .invite copy quota => some (.invite copy quota, fun _ => 0)
      | write => op.current.map (write, ·)

/-- The request has written. -/
def finish (operation : ℕ) : EditState :=
  { s with operations := s.operations.modify operation fun op => { op with done := true } }

@[simp] theorem finish_token (operation : ℕ) : (s.finish operation).token = s.token := rfl

/-- The user has the amount; a token may be unlimited. -/
def userCovers (quota : ℤ) : Bool := decide (quota ≤ s.user.money .quota)

/-- The token has the quota, or is unlimited. -/
def tokenCovers (quota : ℤ) : Bool := s.token.unlimitedQuota || decide (quota ≤ s.token.remainQuota)

/-- A transfer has a least amount and takes no more than there is. -/
def canTransfer (quotaPerUnit : ℚ) (quota : ℤ) : Bool :=
  decide (quotaPerUnit ≤ quota) && decide (quota ≤ s.user.money .affQuota)

end EditState

def EditCall.step : EditCall → EditState → EditState
  | .loadProfile selectAll column change, s =>
    s.start (.update (profileUpdate selectAll column change s.user))
  | .loadManaged myRole action, s =>
    match manageUser myRole action s.user with
    | some u => s.start (.update u)
    | none => s
  | .loadInviter quota, s => s.start (.invite s.user quota)
  | .updateSelf username displayName password, s =>
    s.start (.update (selfUpdate username displayName password))
  | .editUser edit, s => s.start (.edit edit)
  | .selectCurrent n, s =>
    { s with operations := s.operations.modify n fun op =>
        { op with current := some s.user.security } }
  | .writeUser n, s =>
    match s.due n with
    | some (write, current) => { s.finish n with user := write.apply current s.user }
    | none => s
  | .loadToken now status, s =>
    match statusOnlyToken now status s.token with
    | some token => { s with tokenEdits := s.tokenEdits ++ [some token] }
    | none => s
  | .writeToken n, s =>
    match s.tokenEdits[n]? with
    | some (some token) =>
      { s with token := token.update s.token, tokenEdits := s.tokenEdits.set n none }
    | _ => s
  | .adjustUser delta, s => { s with user := s.user.addMoney (inColumn .quota delta) }
  | .reserveUser quota, s =>
    if s.userCovers quota then { s with user := s.user.addMoney (inColumn .quota (-quota)) }
    else s
  | .countUsed delta, s => { s with user := s.user.addMoney (inColumn .usedQuota delta) }
  | .transferAff quotaPerUnit quota, s =>
    if s.canTransfer quotaPerUnit quota then
      { s with user := s.user.addMoney fun c =>
          inColumn .quota quota c + inColumn .affQuota (-quota) c }
    else s
  | .adjustToken delta, s => { s with token := s.token.adjust delta }
  | .reserveToken quota, s =>
    if s.tokenCovers quota then { s with token := s.token.adjust (-quota) } else s

namespace UserWrite

/-- What the statement adds on purpose. -/
def credit : UserWrite → MoneyColumn → ℤ
  | .update _ | .edit _ => fun _ => 0
  | .invite _ quotaForInviter => invitationCredit quotaForInviter

/-- The role or status that the statement sets on purpose. -/
def sets (c : SecurityColumn) : UserWrite → Option ℤ
  | .update u =>
    if u.target = some c ∧ u.newUser.security c ≠ 0 then some (u.newUser.security c) else none
  | .edit e => if e.security c ≠ 0 then some (e.security c) else none
  | .invite .. => none

/-- The password that a write sets. -/
def setsPassword : UserWrite → Option String
  | .update u =>
    if u.updatePassword = true ∧ u.newUser.password ≠ "" then some u.newUser.password else none
  | .edit e => e.password
  | .invite .. => none

/-- Every column that the statement writes without meaning to has the same value in the row. -/
def Fresh (row : UserRow) : UserWrite → Prop
  | .update u =>
    (∀ c, u.newUser.money c = 0 ∨ u.newUser.money c = row.money c) ∧
    (∀ c, u.target = some c ∨ u.newUser.security c = 0 ∨ u.newUser.security c = row.security c) ∧
    (u.updatePassword = true ∨ u.newUser.password = "" ∨ u.newUser.password = row.password)
  | .edit _ => True
  | .invite copy _ => copy.money = row.money ∧ copy.security = row.security ∧
      copy.password = row.password

/-- The row after the statement differs from the row before by what was meant. -/
structure Keeps (w : UserWrite) (row row' : UserRow) : Prop where
  money : ∀ c, row'.money c = row.money c + w.credit c
  security : ∀ c, row'.security c = (w.sets c).getD (row.security c)
  password : row'.password = w.setsPassword.getD row.password

end UserWrite

/-- The money that a statement adds on purpose. -/
def EditCall.moneyDelta (c : MoneyColumn) : EditCall → EditState → ℤ
  | .writeUser n, s => match s.due n with
      | some (write, _) => write.credit c
      | none => 0
  | .adjustUser delta, _ => inColumn .quota delta c
  | .reserveUser quota, s => if s.userCovers quota then inColumn .quota (-quota) c else 0
  | .countUsed delta, _ => inColumn .usedQuota delta c
  | .transferAff quotaPerUnit quota, s =>
    if s.canTransfer quotaPerUnit quota
    then inColumn .quota quota c + inColumn .affQuota (-quota) c else 0
  | _, _ => 0

/-- What a statement adds to the token's remaining quota on purpose; its used quota loses the
same. -/
def EditCall.tokenDelta : EditCall → EditState → ℤ
  | .adjustToken delta, _ => delta
  | .reserveToken quota, s => if s.tokenCovers quota then -quota else 0
  | _, _ => 0

/-- The role or status that a call writes. -/
def EditCall.sets (c : SecurityColumn) : EditCall → EditState → Option ℤ
  | .writeUser n, s => match s.due n with
      | some (write, _) => write.sets c
      | none => none
  | _, _ => none

/-- The password that a call writes. -/
def EditCall.setsPassword : EditCall → EditState → Option String
  | .writeUser n, s => match s.due n with
      | some (write, _) => write.setsPassword
      | none => none
  | _, _ => none

/-- A statement that writes a copy back finds the columns that it does not mean to change as
they are in the copy. -/
def EditCall.WritesFresh : EditCall → EditState → Prop
  | .writeUser n, s => match s.due n with
      | some (write, _) => write.Fresh s.user
      | none => True
  | .writeToken n, s => match s.tokenEdits[n]? with
      | some (some token) => token.remainQuota = s.token.remainQuota
      | _ => True
  | _, _ => True

theorem nonzero_eq_old_iff (new old : ℤ) : nonzero new old = old ↔ new = 0 ∨ new = old := by
  unfold nonzero
  split_ifs with h
  · simp [h]
  · simp [not_not.mp h]

theorem nonempty_eq_old_iff (new old : String) : nonempty new old = old ↔ new = "" ∨ new = old := by
  unfold nonempty
  split_ifs with h
  · simp [h]
  · simp [not_not.mp h]

section
variable (current : SecurityColumn → ℤ) (row : UserRow)

theorem UserUpdate.write_version (u : UserUpdate) :
    (u.write current row).sessionVersion =
      if u.updatePassword || securityChanged u.newUser.security current then
        row.bumpSessionVersion.sessionVersion
      else row.sessionVersion := by
  unfold write
  split <;> rfl

theorem UserEdit.write_version (e : UserEdit) :
    (e.write current row).sessionVersion =
      if e.password.isSome || securityChanged e.security current then
        row.bumpSessionVersion.sessionVersion
      else row.sessionVersion := by
  unfold write
  split <;> rfl

theorem UserUpdate.keeps_iff (u : UserUpdate) :
    (UserWrite.update u).Keeps row (u.write current row) ↔ (UserWrite.update u).Fresh row := by
  obtain ⟨hmoney, hsecu, hpw⟩ :
      (u.write current row).money = (u.newUser.updates row).money ∧
      (u.write current row).security = (u.newUser.updates row).security ∧
      (u.write current row).password = (u.newUser.updates row).password := by
    unfold write
    split <;> simp
  refine .trans ⟨fun ⟨hm, hs, hp⟩ => ⟨hm, hs, hp⟩, fun ⟨hm, hs, hp⟩ => ⟨hm, hs, hp⟩⟩
    (and_congr (forall_congr' fun c => ?_) (and_congr (forall_congr' fun c => ?_) ?_))
  · rw [hmoney, UserWrite.credit, add_zero]
    exact nonzero_eq_old_iff _ _
  · rw [hsecu]
    by_cases htgt : u.target = some c ∧ u.newUser.security c ≠ 0
    · simp [UserWrite.sets, htgt, UserRow.updates, nonzero]
    · rw [UserWrite.sets, if_neg htgt]
      exact (nonzero_eq_old_iff _ _).trans (by tauto)
  · rw [hpw]
    by_cases hup : u.updatePassword = true ∧ u.newUser.password ≠ ""
    · simp [UserWrite.setsPassword, hup, UserRow.updates, nonempty]
    · rw [UserWrite.setsPassword, if_neg hup]
      exact (nonempty_eq_old_iff _ _).trans (by tauto)

theorem UserEdit.keeps (e : UserEdit) :
    (UserWrite.edit e).Keeps row (e.write current row) := by
  refine ⟨fun c => ?_, fun c => ?_, ?_⟩
  · rw [UserWrite.credit, add_zero, write]
    split <;> rfl
  · have hsecu : (e.write current row).security c = nonzero (e.security c) (row.security c) := by
      unfold write
      split <;> rfl
    rw [hsecu, UserWrite.sets, nonzero]
    split <;> rfl
  · rw [write]
    split <;> rfl

theorem invite_keeps_iff (copy row : UserRow) (quota : ℤ) :
    (UserWrite.invite copy quota).Keeps row (copy.addMoney (invitationCredit quota)) ↔
      (UserWrite.invite copy quota).Fresh row := by
  constructor
  · rintro ⟨hm, hs, hp⟩
    refine ⟨funext fun c => ?_, funext hs, hp⟩
    exact add_right_cancel (hm c)
  · rintro ⟨hm, hs, hp⟩
    refine ⟨fun c => ?_, fun c => congrFun hs c, hp⟩
    exact congrArg (· + invitationCredit quota c) (congrFun hm c)

theorem UserWrite.keeps_iff (w : UserWrite) :
    w.Keeps row (w.apply current row) ↔ w.Fresh row := by
  cases w with
  | update u => exact u.keeps_iff current row
  | edit e => exact iff_of_true (e.keeps current row) trivial
  | invite copy quota => exact invite_keeps_iff copy row quota

end

/-- The statement changes money and security as it is meant to. -/
structure StepKept (call : EditCall) (s s' : EditState) : Prop where
  money : ∀ c, s'.user.money c = s.user.money c + call.moneyDelta c s
  remain : s'.token.remainQuota = s.token.remainQuota + call.tokenDelta s
  used : s'.token.usedQuota = s.token.usedQuota - call.tokenDelta s
  security : ∀ c, s'.user.security c = (call.sets c s).getD (s.user.security c)
  password : s'.user.password = (call.setsPassword s).getD s.user.password

/-- A statement that means to change nothing and leaves both rows alone. -/
theorem StepKept.quiet {call : EditCall} {s s' : EditState} (huser : s'.user = s.user)
    (htoken : s'.token = s.token) (hmoney : ∀ c, call.moneyDelta c s = 0)
    (hdelta : call.tokenDelta s = 0) (hsets : ∀ c, call.sets c s = none)
    (hpw : call.setsPassword s = none) : StepKept call s s' := by
  constructor <;> simp [huser, htoken, hmoney, hdelta, hsets, hpw]

namespace EditCall
variable {s : EditState}

theorem writeUser_kept_iff (n : ℕ) :
    StepKept (.writeUser n) s (step (.writeUser n) s) ↔ (writeUser n).WritesFresh s := by
  cases hdue : s.due n with
  | none =>
    have hfr : (writeUser n).WritesFresh s := by simp [WritesFresh, hdue]
    refine iff_of_true ⟨?_, ?_, ?_, ?_, ?_⟩ hfr <;>
      simp [step, hdue, moneyDelta, tokenDelta, sets, setsPassword]
  | some p =>
    obtain ⟨write, current⟩ := p
    have hfr : (writeUser n).WritesFresh s ↔ write.Fresh s.user := by
      simp [WritesFresh, hdue]
    rw [hfr, ← write.keeps_iff current _]
    have hstep : step (.writeUser n) s =
        { s.finish n with user := write.apply current s.user } := by simp [step, hdue]
    rw [hstep]
    constructor
    · rintro ⟨hm, -, -, hs, hp⟩
      simp only [moneyDelta, sets, setsPassword, hdue] at hm hs hp
      exact ⟨hm, hs, hp⟩
    · rintro ⟨hm, hs, hp⟩
      refine ⟨?_, ?_, ?_, ?_, ?_⟩
      · simpa only [moneyDelta, hdue] using hm
      · simp [tokenDelta]
      · simp [tokenDelta]
      · simpa only [sets, hdue] using hs
      · simpa only [setsPassword, hdue] using hp

theorem writeToken_kept_iff (n : ℕ) :
    StepKept (.writeToken n) s (step (.writeToken n) s) ↔ (writeToken n).WritesFresh s := by
  have hsame : step (.writeToken n) s = s → StepKept (.writeToken n) s s :=
    fun _ => .quiet rfl rfl (fun _ => rfl) rfl (fun _ => rfl) rfl
  cases hedit : s.tokenEdits[n]? with
  | none => simpa [step, WritesFresh, hedit] using hsame
  | some edit =>
    cases edit with
    | none => simpa [step, WritesFresh, hedit] using hsame
    | some token =>
      simp only [step, WritesFresh, hedit]
      constructor
      · intro h
        simpa [tokenDelta, TokenRow.update] using h.remain
      · intro h
        refine ⟨fun _ => (add_zero _).symm, ?_, (sub_zero _).symm, fun _ => rfl, rfl⟩
        simpa [tokenDelta, TokenRow.update] using h

/-- A statement keeps money and security iff it writes back no stale column. -/
theorem step_kept_iff (call : EditCall) (s : EditState) :
    StepKept call s (call.step s) ↔ call.WritesFresh s := by
  cases call with
  | writeUser n => exact writeUser_kept_iff n
  | writeToken n => exact writeToken_kept_iff n
  | loadManaged myRole action =>
    refine iff_of_true ?_ trivial
    simp only [step]
    cases manageUser myRole action s.user <;>
      exact .quiet rfl rfl (fun _ => rfl) rfl (fun _ => rfl) rfl
  | loadToken now status =>
    refine iff_of_true ?_ trivial
    simp only [step]
    cases statusOnlyToken now status s.token <;>
      exact .quiet rfl rfl (fun _ => rfl) rfl (fun _ => rfl) rfl
  | reserveUser quota =>
    refine iff_of_true ?_ trivial
    cases hcov : s.userCovers quota <;> constructor <;>
      simp [step, hcov, moneyDelta, tokenDelta, sets, setsPassword]
  | transferAff quotaPerUnit quota =>
    refine iff_of_true ?_ trivial
    cases hcan : s.canTransfer quotaPerUnit quota <;> constructor <;>
      simp [step, hcan, moneyDelta, tokenDelta, sets, setsPassword]
  | reserveToken quota =>
    refine iff_of_true ?_ trivial
    cases hcov : s.tokenCovers quota <;> constructor <;>
      simp [step, hcov, moneyDelta, tokenDelta, sets, setsPassword]
  | adjustToken delta =>
    exact iff_of_true ⟨fun _ => (add_zero _).symm, rfl, rfl, fun _ => rfl, rfl⟩ trivial
  | adjustUser delta | countUsed delta =>
    exact iff_of_true ⟨fun _ => rfl, (add_zero _).symm, (sub_zero _).symm, fun _ => rfl, rfl⟩
      trivial
  | loadProfile selectAll column change | loadInviter quota | selectCurrent n
  | updateSelf username displayName password | editUser edit =>
    exact iff_of_true (.quiet rfl rfl (fun _ => rfl) rfl (fun _ => rfl) rfl) trivial

end EditCall

/-- After the statements every amount is the first one and what was added to it on purpose, and
password, role and status are those set last on purpose. -/
structure EditsKept (calls : List EditCall) (s : EditState) : Prop where
  money : ∀ c, (run step calls s).user.money c = s.user.money c + total step (moneyDelta c) calls s
  remain : (run step calls s).token.remainQuota =
    s.token.remainQuota + total step tokenDelta calls s
  used : (run step calls s).token.usedQuota =
    s.token.usedQuota + total step (fun call s => -call.tokenDelta s) calls s
  security : ∀ c, (run step calls s).user.security c =
    lastSet step (sets c) calls s (s.user.security c)
  password : (run step calls s).user.password = lastSet step setsPassword calls s s.user.password

/-- In every interleaving: edits move no money and undo no change of password, role or status in
any state reached exactly if every statement that writes a copy back finds the columns it does
not mean to change as it has read them. -/
theorem edits_keep_money_and_security (s : EditState) (calls : List EditCall) :
    (∀ done, done <+: calls → EditsKept done s) ↔ Along step EditCall.WritesFresh calls s := by
  -- each field of the step is one column's rule for runs
  have hsteps : Along step EditCall.WritesFresh calls s ↔ Along step (fun call s =>
        (∀ c, (call.step s).user.money c = s.user.money c + call.moneyDelta c s) ∧
        (call.step s).token.remainQuota = s.token.remainQuota + call.tokenDelta s ∧
        (call.step s).token.usedQuota = s.token.usedQuota + -call.tokenDelta s ∧
        (∀ c, (call.step s).user.security c = (call.sets c s).getD (s.user.security c)) ∧
        (call.step s).user.password = (call.setsPassword s).getD s.user.password) calls s :=
    along_congr fun call s => (call.step_kept_iff s).symm.trans
      ⟨fun h => ⟨h.money, h.remain, h.used, h.security, h.password⟩,
        fun ⟨hm, hr, hu, hs, hp⟩ => ⟨hm, hr, hu, hs, hp⟩⟩
  rw [hsteps]
  simp only [along_and_iff, along_forall_iff]
  refine .trans ?_ (and_congr
    (forall_congr' fun c => total_iff_along step (fun s => s.user.money c) (moneyDelta c) calls s)
    (and_congr (total_iff_along step (fun s => s.token.remainQuota) tokenDelta calls s)
    (and_congr (total_iff_along step (fun s => s.token.usedQuota) (-tokenDelta · ·) calls s)
    (and_congr
    (forall_congr' fun c => lastSet_iff_along step (fun s => s.user.security c) (sets c) calls s)
    (lastSet_iff_along step (fun s => s.user.password) setsPassword calls s)))))
  constructor
  · intro h
    exact ⟨fun c done hdone => (h done hdone).money c, fun done hdone => (h done hdone).remain,
      fun done hdone => (h done hdone).used, fun c done hdone => (h done hdone).security c,
      fun done hdone => (h done hdone).password⟩
  · rintro ⟨hm, hr, hu, hs, hp⟩ done hdone
    exact ⟨fun c => hm c done hdone, hr done hdone, hu done hdone, fun c => hs c done hdone,
      hp done hdone⟩

def enabledUser : EditState where
  user := { money := inColumn .quota 1000, security := fun _ => 1, password := "$2a$10$old",
            sessionVersion := 1, profile := fun _ => "" }
  token := ⟨1, -1, 500, 0, false, ""⟩
  operations := []
  tokenEdits := []

/-- A change of language that read the user before a debit and a ban. -/
def staleProfile : List EditCall :=
  [.loadProfile false .setting (fun _ => "language"), .reserveUser 400, .loadManaged 100 .disable,
    .selectCurrent 1, .writeUser 1, .selectCurrent 0, .writeUser 0]

/-- The change of language gives the debit back and lifts the ban, one of two concurrent
invitations is lost, and a change of a token's status gives the token's debit back. -/
theorem stale_copies_undo_debits_and_bans :
    let after := fun calls => run step calls enabledUser
    ((after staleProfile).user.money .quota = 1000 ∧
      total step (moneyDelta .quota) staleProfile enabledUser = -400 ∧
      (after staleProfile).user.security .status = userStatusEnabled ∧
      lastSet step (sets .status) staleProfile enabledUser 1 = userStatusDisabled) ∧
    (after [.loadInviter 50, .loadInviter 50, .writeUser 0, .writeUser 1]).user.money .affQuota =
      50 ∧
    (after [.loadToken 0 2, .reserveToken 100, .writeToken 0]).token.remainQuota = 500 ∧
    ¬ EditsKept staleProfile enabledUser := by
  refine ⟨by decide +kernel, by decide +kernel, by decide +kernel, fun h => ?_⟩
  exact absurd (h.money .quota) (by decide +kernel)

end NewApi
