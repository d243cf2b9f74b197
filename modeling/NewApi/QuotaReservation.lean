import NewApi.Schema

/-!
# Quota reservation

Conditional reservations and unconditional adjustments of wallets and API tokens.
Every operation first folds the pending batch delta of the rows it touches into
those rows, inside its own transaction, and forgets the delta only after the commit.
The execution lock of the batch updater is held throughout, so one operation is one
step of any interleaving. The token key serves cache invalidation only and is left out.
-/
namespace NewApi
open PendingMap

/-- A user's quota after a change. -/
def User.addQuota (delta : ℤ) (r : User) : User := { r with quota := r.quota + delta }

/-- `remain_quota + delta`, `used_quota - delta`, and the access time. -/
def Token.addQuota (now delta : ℤ) (r : Token) : Token :=
  { r with remainQuota := r.remainQuota + delta
           usedQuota := r.usedQuota - delta
           accessedTime := now }

open Token

/-- Writes what the batch holds for the user; nothing pending needs no row. -/
def applyPendingUserQuota (env : Env) (userId delta : ℤ) : DBTx Unit :=
  if delta = 0 then pure () else
    usersTable.updateOne (env.fault 0) .database .recordNotFound userId (fun _ => true)
      (User.addQuota delta)

/-- Writes what the batch holds for the token. -/
def applyPendingTokenQuota (env : Env) (tokenId delta : ℤ) : DBTx Unit :=
  if delta = 0 then pure () else
    tokensTable.updateOne (env.fault 1) .database .recordNotFound tokenId (fun _ => true)
      (addQuota env.now delta)

/-- Changes the quota whatever it is; deleted users are included. -/
def adjustUserQuota (env : Env) (userId delta : ℤ) : DBTx Unit :=
  usersTable.updateOne (env.fault 2) .database .recordNotFound userId (fun _ => true)
    (User.addQuota delta)

/-- Changes the quota of a token whatever it is. -/
def adjustTokenQuota (env : Env) (tokenId delta : ℤ) : DBTx Unit :=
  tokensTable.updateOne (env.fault 3) .database .recordNotFound tokenId (fun _ => true)
    (addQuota env.now delta)

/-- The condition and the change are one statement. -/
def decreaseUserQuotaIfAvailable (env : Env) (userId quota : ℤ) : DBTx Unit :=
  usersTable.updateOne (env.fault 2) .database .insufficientUserQuota userId
    (fun r => !r.deleted && decide (quota ≤ r.quota)) (User.addQuota (-quota))

/-- A token must be the user's, and must have the quota unless it is unlimited. -/
def decreaseTokenQuotaIfAvailable (env : Env) (userId tokenId quota : ℤ) : DBTx Unit :=
  tokensTable.updateOne (env.fault 3) .database .insufficientTokenQuota tokenId
    (fun r => !r.deleted && decide (r.userId = userId) &&
      (r.unlimitedQuota || decide (quota ≤ r.remainQuota)))
    (addQuota env.now (-quota))

/-- Forget the pending delta of a user, once a commit has folded it in. -/
def World.dropPendingUser (userId : ℤ) (w : World) : World :=
  { w with userQuotaBatch := w.userQuotaBatch.erase userId }

open World

/-- The batch forgets the token's change. -/
def World.dropPendingToken (tokenId : ℤ) (w : World) : World :=
  { w with tokenQuotaBatch := w.tokenQuotaBatch.erase tokenId }

/-- The batch forgets what a transaction has written. -/
def World.dropPending (userId tokenId : ℤ) (withToken : Bool) (w : World) : World :=
  if withToken then (w.dropPendingUser userId).dropPendingToken tokenId
  else w.dropPendingUser userId

/-- What is pending is written in the transaction, and forgotten after its commit. -/
def withReconciledWalletQuota {α : Type} (env : Env) (userId tokenId : ℤ) (withToken : Bool)
    (operation : DBTx α) (w : World) : Except Err α × World :=
  let pendingUserQuota := amount w.userQuotaBatch userId
  let pendingTokenQuota :=
    if withToken then amount w.tokenQuotaBatch tokenId else 0
  onCommit (dropPending userId tokenId withToken) (dbTransaction env (do
    applyPendingUserQuota env userId pendingUserQuota
    Tx.onlyIf withToken (applyPendingTokenQuota env tokenId pendingTokenQuota)
    operation) w)

/-- The same for a token alone. -/
def withReconciledTokenQuota {α : Type} (env : Env) (tokenId : ℤ) (operation : DBTx α)
    (w : World) : Except Err α × World :=
  let pendingTokenQuota := amount w.tokenQuotaBatch tokenId
  onCommit (dropPendingToken tokenId) (dbTransaction env (do
    applyPendingTokenQuota env tokenId pendingTokenQuota
    operation) w)

/-- The error for a negative quota. -/
def negativeQuota : Err := .text "quota 不能为负数！"

/-- Takes the quota from the user and from the token, or from neither. -/
def reserveWalletQuota (env : Env) (userId tokenId quota : ℤ) (withToken : Bool) (w : World) :
    Except Err Unit × World :=
  if quota < 0 then (.error negativeQuota, w)
  else if quota = 0 then (.ok (), w)
  else withReconciledWalletQuota env userId tokenId withToken (do
    decreaseUserQuotaIfAvailable env userId quota
    Tx.onlyIf withToken (decreaseTokenQuotaIfAvailable env userId tokenId quota)) w

/-- A positive delta consumes quota, a negative one refunds it. -/
def adjustWalletQuota (env : Env) (userId tokenId delta : ℤ) (withToken : Bool) (w : World) :
    Except Err Unit × World :=
  if delta = 0 then (.ok (), w)
  else withReconciledWalletQuota env userId tokenId withToken (do
    adjustUserQuota env userId (-delta)
    Tx.onlyIf withToken (adjustTokenQuota env tokenId (-delta))) w

/-- Takes the quota from the token alone. -/
def reserveTokenQuota (env : Env) (userId tokenId quota : ℤ) (w : World) :
    Except Err Unit × World :=
  if quota < 0 then (.error negativeQuota, w)
  else if quota = 0 then (.ok (), w)
  else withReconciledTokenQuota env tokenId
    (decreaseTokenQuotaIfAvailable env userId tokenId quota) w

/-- Changes a user's quota together with what is pending. -/
def adjustUserQuotaWithPending (env : Env) (userId delta : ℤ) (w : World) :
    Except Err Unit × World :=
  let pendingQuota := amount w.userQuotaBatch userId
  onCommit (dropPendingUser userId) (dbTransaction env (do
    applyPendingUserQuota env userId pendingQuota
    adjustUserQuota env userId delta) w)

/-- Changes a token's quota together with what is pending. -/
def adjustTokenQuotaWithPending (env : Env) (tokenId delta : ℤ) (w : World) :
    Except Err Unit × World :=
  withReconciledTokenQuota env tokenId (adjustTokenQuota env tokenId delta) w

/-- Adds to a user's quota without the batch. -/
def increaseUserQuotaDirect (env : Env) (userId quota : ℤ) (w : World) : Except Err Unit × World :=
  if quota < 0 then (.error negativeQuota, w) else adjustUserQuotaWithPending env userId quota w

/-- Takes from a user's quota without the batch, below zero if need be. -/
def decreaseUserQuotaDirect (env : Env) (userId quota : ℤ) (w : World) : Except Err Unit × World :=
  if quota < 0 then (.error negativeQuota, w)
  else adjustUserQuotaWithPending env userId (-quota) w

/-- Adds to a token's quota without the batch. -/
def increaseTokenQuotaDirect (env : Env) (tokenId quota : ℤ) (w : World) :
    Except Err Unit × World :=
  if quota < 0 then (.error negativeQuota, w)
  else adjustTokenQuotaWithPending env tokenId quota w

/-- Takes from a token's quota without the batch. -/
def decreaseTokenQuotaDirect (env : Env) (tokenId quota : ℤ) (w : World) :
    Except Err Unit × World :=
  if quota < 0 then (.error negativeQuota, w)
  else adjustTokenQuotaWithPending env tokenId (-quota) w

/-- The row of the user takes its pending delta and `delta`; nothing stays pending. -/
def World.creditUser (userId delta : ℤ) (w : World) : World :=
  { w with
    users := w.users.modify userId
      (User.addQuota (amount w.userQuotaBatch userId + delta))
    userQuotaBatch := w.userQuotaBatch.erase userId }

/-- The token's row has the change and what was pending. -/
def World.creditToken (now tokenId delta : ℤ) (w : World) : World :=
  { w with
    tokens := w.tokens.modify tokenId
      (addQuota now (amount w.tokenQuotaBatch tokenId + delta))
    tokenQuotaBatch := w.tokenQuotaBatch.erase tokenId }

/-- The rows of the user and of the token after a change. -/
def World.creditWallet (now userId tokenId delta : ℤ) (withToken : Bool) (w : World) : World :=
  if withToken then (w.creditUser userId delta).creditToken now tokenId delta
  else w.creditUser userId delta

@[simp] theorem User.addQuota_zero (r : User) : r.addQuota 0 = r := by
  simp [User.addQuota]

@[simp] theorem User.addQuota_addQuota (d e : ℤ) (r : User) :
    (r.addQuota d).addQuota e = r.addQuota (d + e) := by
  simp [User.addQuota, add_assoc]

theorem Token.addQuota_addQuota (now d e : ℤ) (r : Token) :
    (r.addQuota now d).addQuota now e = r.addQuota now (d + e) := by
  simp [addQuota, add_assoc, sub_sub]

/-- A zero delta is not written, so it leaves the access time as well. -/
def Token.fold (now delta : ℤ) (r : Token) : Token :=
  if delta = 0 then r else r.addQuota now delta

theorem Token.addQuota_fold (now d e : ℤ) (r : Token) :
    (r.fold now d).addQuota now e = r.addQuota now (d + e) := by
  unfold fold
  by_cases h : d = 0
  · simp [h]
  · rw [if_neg h, addQuota_addQuota]

section TransactionParts
variable {env : Env} {w w' : World} {userId tokenId delta quota : ℤ} {u : Unit}

theorem applyPendingUserQuota_eq_ok : applyPendingUserQuota env userId delta w = .ok (u, w') ↔
      (delta = 0 ∨ env.fault 0 = false ∧ ∃ r, w.users userId = some r) ∧
        w' = { w with users := w.users.modify userId (User.addQuota delta) } := by
  unfold applyPendingUserQuota
  by_cases h : delta = 0
  · have hid : w.users.modify userId (User.addQuota 0) = w.users :=
      Table.modify_id _ _ fun r _ => r.addQuota_zero
    simp [h, hid, @eq_comm _ w']
  · simp [h, TableIn.updateOne_eq_ok, and_assoc]

theorem applyPendingTokenQuota_eq_ok : applyPendingTokenQuota env tokenId delta w = .ok (u, w') ↔
      (delta = 0 ∨ env.fault 1 = false ∧ ∃ r, w.tokens tokenId = some r) ∧
        w' = { w with tokens := w.tokens.modify tokenId (fold env.now delta) } := by
  unfold applyPendingTokenQuota
  by_cases h : delta = 0
  · have hid : w.tokens.modify tokenId (fold env.now 0) = w.tokens :=
      Table.modify_id _ _ fun r _ => by simp [fold]
    simp [h, hid, @eq_comm _ w']
  have hfold : fold env.now delta = addQuota env.now delta := by
    funext r
    simp [fold, h]
  simp [h, hfold, TableIn.updateOne_eq_ok, and_assoc]

theorem adjustUserQuota_eq_ok : adjustUserQuota env userId delta w = .ok (u, w') ↔
      env.fault 2 = false ∧ (∃ r, w.users userId = some r) ∧
        w' = { w with users := w.users.modify userId (User.addQuota delta) } := by
  simp [adjustUserQuota, TableIn.updateOne_eq_ok]

theorem adjustTokenQuota_eq_ok : adjustTokenQuota env tokenId delta w = .ok (u, w') ↔
      env.fault 3 = false ∧ (∃ r, w.tokens tokenId = some r) ∧
        w' = { w with tokens := w.tokens.modify tokenId (addQuota env.now delta) } := by
  simp [adjustTokenQuota, TableIn.updateOne_eq_ok]

theorem decreaseUserQuotaIfAvailable_eq_ok :
    decreaseUserQuotaIfAvailable env userId quota w = .ok (u, w') ↔ env.fault 2 = false ∧
        (∃ r, w.users userId = some r ∧ r.deleted = false ∧ quota ≤ r.quota) ∧
        w' = { w with users := w.users.modify userId (User.addQuota (-quota)) } := by
  simp [decreaseUserQuotaIfAvailable, TableIn.updateOne_eq_ok]

theorem decreaseTokenQuotaIfAvailable_eq_ok :
    decreaseTokenQuotaIfAvailable env userId tokenId quota w = .ok (u, w') ↔ env.fault 3 = false ∧
        (∃ r, w.tokens tokenId = some r ∧ r.deleted = false ∧ r.userId = userId ∧
          (r.unlimitedQuota = true ∨ quota ≤ r.remainQuota)) ∧
        w' = { w with tokens := w.tokens.modify tokenId (addQuota env.now (-quota)) } := by
  simp [decreaseTokenQuotaIfAvailable, TableIn.updateOne_eq_ok, and_assoc]

end TransactionParts

/-- The user's row with its pending delta folded in, as the operation sees it. -/
def World.foldPendingUser (userId : ℤ) (w : World) : World :=
  { w with
    users := w.users.modify userId
      (User.addQuota (amount w.userQuotaBatch userId)) }

/-- The token's row with what was pending. -/
def World.foldPendingToken (now tokenId : ℤ) (w : World) : World :=
  { w with
    tokens := w.tokens.modify tokenId
      (fold now (amount w.tokenQuotaBatch tokenId)) }

/-- The rows with what was pending. -/
def World.foldPending (now userId tokenId : ℤ) (withToken : Bool) (w : World) : World :=
  if withToken then (w.foldPendingUser userId).foldPendingToken now tokenId
  else w.foldPendingUser userId

/-- Folding in the pending delta of the user does not fail. -/
def UserFolds (env : Env) (userId : ℤ) (w : World) : Prop :=
  amount w.userQuotaBatch userId = 0 ∨ env.fault 0 = false ∧ ∃ r, w.users userId = some r

/-- What is pending for the token can be written. -/
def TokenFolds (env : Env) (tokenId : ℤ) (w : World) : Prop :=
  amount w.tokenQuotaBatch tokenId = 0 ∨ env.fault 1 = false ∧ ∃ r, w.tokens tokenId = some r

section Settling
variable {α : Type} {env : Env} {w w' : World} {userId tokenId : ℤ} {withToken : Bool}
  {operation : DBTx α} {a : α}

/-- The operation sees rows with what was pending, and the batch is dropped after it. -/
theorem withReconciledWalletQuota_eq_ok :
    withReconciledWalletQuota env userId tokenId withToken operation w = (.ok a, w') ↔
      env.fault commitSite = false ∧ UserFolds env userId w ∧
        (withToken = true → TokenFolds env tokenId w) ∧
        ∃ v, operation (w.foldPending env.now userId tokenId withToken) = .ok (a, v) ∧
          w' = v.dropPending userId tokenId withToken := by
  unfold withReconciledWalletQuota dbTransaction
  simp only [onCommit_eq_ok, commit_eq_ok, Tx.bind_eq_ok, applyPendingUserQuota_eq_ok]
  cases withToken with
  | false =>
    simp only [Tx.onlyIf_false, Tx.pure_eq_ok, Bool.false_eq_true, false_implies, true_and,
      foldPending, if_false]
    constructor
    · rintro ⟨v, ⟨hc, -, _, ⟨hu, rfl⟩, -, _, rfl, hop⟩, rfl⟩
      exact ⟨hc, hu, v, hop, rfl⟩
    · rintro ⟨hc, hu, v, hop, rfl⟩
      exact ⟨v, ⟨hc, (), _, ⟨hu, rfl⟩, (), _, rfl, hop⟩, rfl⟩
  | true =>
    simp only [Tx.onlyIf_true, if_true, applyPendingTokenQuota_eq_ok, true_implies, foldPending]
    constructor
    · rintro ⟨v, ⟨hc, -, _, ⟨hu, rfl⟩, -, _, ⟨ht, rfl⟩, hop⟩, rfl⟩
      exact ⟨hc, hu, ht, v, hop, rfl⟩
    · rintro ⟨hc, hu, ht, v, hop, rfl⟩
      exact ⟨v, ⟨hc, (), _, ⟨hu, rfl⟩, (), _, ⟨ht, rfl⟩, hop⟩, rfl⟩

theorem withReconciledTokenQuota_eq_ok :
    withReconciledTokenQuota env tokenId operation w = (.ok a, w') ↔
      env.fault commitSite = false ∧ TokenFolds env tokenId w ∧
        ∃ v, operation (w.foldPendingToken env.now tokenId) = .ok (a, v) ∧
          w' = v.dropPendingToken tokenId := by
  unfold withReconciledTokenQuota dbTransaction
  simp only [onCommit_eq_ok, commit_eq_ok, Tx.bind_eq_ok, applyPendingTokenQuota_eq_ok]
  constructor
  · rintro ⟨v, ⟨hc, -, _, ⟨ht, rfl⟩, hop⟩, rfl⟩
    exact ⟨hc, ht, v, hop, rfl⟩
  · rintro ⟨hc, ht, v, hop, rfl⟩
    exact ⟨v, ⟨hc, (), _, ⟨ht, rfl⟩, hop⟩, rfl⟩

theorem atomic_withReconciledWalletQuota :
    Atomic (withReconciledWalletQuota env userId tokenId withToken operation) := by
  intro v e v' h
  exact (atomic_commit _ _ _).onCommit _ v e v' h

theorem atomic_withReconciledTokenQuota :
    Atomic (withReconciledTokenQuota env tokenId operation) := by
  intro v e v' h
  exact (atomic_commit _ _ _).onCommit _ v e v' h

/-- A reservation that fails has changed nothing. -/
theorem atomic_reserveWalletQuota (env : Env) (userId tokenId quota : ℤ) (withToken : Bool) :
    Atomic (reserveWalletQuota env userId tokenId quota withToken) :=
  (atomic_return _).ite ((atomic_return _).ite atomic_withReconciledWalletQuota)

theorem atomic_adjustWalletQuota (env : Env) (userId tokenId delta : ℤ) (withToken : Bool) :
    Atomic (adjustWalletQuota env userId tokenId delta withToken) :=
  (atomic_return _).ite atomic_withReconciledWalletQuota

theorem atomic_reserveTokenQuota (env : Env) (userId tokenId quota : ℤ) :
    Atomic (reserveTokenQuota env userId tokenId quota) :=
  (atomic_return _).ite ((atomic_return _).ite atomic_withReconciledTokenQuota)

theorem atomic_adjustUserQuotaWithPending (env : Env) (userId delta : ℤ) :
    Atomic (adjustUserQuotaWithPending env userId delta) := by
  intro v e v' h
  exact (atomic_commit _ _ _).onCommit _ v e v' h

variable (now userId tokenId delta : ℤ) (w : World)

/-- Folding, adjusting and dropping the pending delta credit the user once. -/
theorem creditUser_eq : dropPendingUser userId { w.foldPendingUser userId with
      users := (w.foldPendingUser userId).users.modify userId (User.addQuota delta) } =
      w.creditUser userId delta := by
  simp only [foldPendingUser, dropPendingUser, creditUser,
    Table.modify_modify, User.addQuota_addQuota]

theorem creditToken_eq : dropPendingToken tokenId { w.foldPendingToken now tokenId with
      tokens := (w.foldPendingToken now tokenId).tokens.modify tokenId
        (addQuota now delta) } =
      w.creditToken now tokenId delta := by
  simp only [foldPendingToken, dropPendingToken, creditToken, Table.modify_modify, addQuota_fold]

theorem creditWallet_eq :
    dropPending userId tokenId true { w.foldPending now userId tokenId true with
      users := (w.foldPending now userId tokenId true).users.modify userId (User.addQuota delta)
      tokens := (w.foldPending now userId tokenId true).tokens.modify tokenId
        (addQuota now delta) } =
      w.creditWallet now userId tokenId delta true := by
  simp [foldPending, foldPendingUser, foldPendingToken, dropPending, dropPendingUser,
    dropPendingToken, creditWallet, creditUser, creditToken, Table.modify_modify,
    User.addQuota_addQuota, addQuota_fold]

end Settling

/-- The reconciled wallet and, when one is given, the reconciled token cover `quota`. -/
structure WalletCovers (userId tokenId quota : ℤ) (withToken : Bool) (w : World) : Prop where
  wallet : ∃ r, w.users userId = some r ∧ r.deleted = false ∧
    quota ≤ r.quota + amount w.userQuotaBatch userId
  token : withToken = true → ∃ r, w.tokens tokenId = some r ∧ r.deleted = false ∧
    r.userId = userId ∧ (r.unlimitedQuota = true ∨
      quota ≤ r.remainQuota + amount w.tokenQuotaBatch tokenId)

/-- None of the statements that a wallet operation issues fails. -/
structure WalletStatementsPass (env : Env) (userId tokenId : ℤ) (withToken : Bool) (w : World) :
    Prop where
  committed : env.fault commitSite = false
  userFolds : UserFolds env userId w
  userWrite : env.fault 2 = false
  tokenFolds : withToken = true → TokenFolds env tokenId w
  tokenWrite : withToken = true → env.fault 3 = false

section WalletOperations
variable {env : Env} {w w' : World} {userId tokenId quota delta : ℤ} {withToken : Bool}

@[simp] theorem foldPending_users (now : ℤ) : (w.foldPending now userId tokenId withToken).users =
      w.users.modify userId (User.addQuota (amount w.userQuotaBatch userId)) := by
  cases withToken <;> rfl

@[simp] theorem foldPending_tokens (now : ℤ) : (w.foldPending now userId tokenId true).tokens =
      w.tokens.modify tokenId
        (fold now (amount w.tokenQuotaBatch tokenId)) := rfl

@[simp] theorem Token.fold_remainQuota (now d : ℤ) (r : Token) :
    (r.fold now d).remainQuota = r.remainQuota + d := by
  unfold fold
  by_cases h : d = 0 <;> simp [h, addQuota]

/-- The row covers the quota after the fold iff it does with the pending delta. -/
theorem exists_fold_token {tokens : Table ℤ Token} {now d : ℤ} :
    (∃ r, tokens.modify tokenId (fold now d) tokenId = some r ∧ r.deleted = false ∧
        r.userId = userId ∧ (r.unlimitedQuota = true ∨ quota ≤ r.remainQuota)) ↔
      ∃ r, tokens tokenId = some r ∧ r.deleted = false ∧ r.userId = userId ∧
        (r.unlimitedQuota = true ∨ quota ≤ r.remainQuota + d) := by
  have hfold : ∀ r : Token, (r.fold now d).deleted = r.deleted ∧ (r.fold now d).userId = r.userId ∧
      (r.fold now d).unlimitedQuota = r.unlimitedQuota := by
    intro r
    unfold fold
    by_cases h : d = 0 <;> simp [h, addQuota]
  simp [fold_remainQuota, hfold]

/-- A positive reservation returns exactly when nothing fails and the reconciled
wallet and token cover it, and then it debits both. -/
theorem reserveWalletQuota_eq_ok (hq : 0 < quota) :
    reserveWalletQuota env userId tokenId quota withToken w = (.ok (), w') ↔
      WalletStatementsPass env userId tokenId withToken w ∧
        WalletCovers userId tokenId quota withToken w ∧
        w' = w.creditWallet env.now userId tokenId (-quota) withToken := by
  rw [reserveWalletQuota, if_neg (by omega), if_neg (by omega), withReconciledWalletQuota_eq_ok]
  simp only [Tx.bind_eq_ok, decreaseUserQuotaIfAvailable_eq_ok, foldPending_users, Table.modify_self,
    Option.map_eq_some_iff, exists_exists_and_eq_and]
  cases withToken with
  | false =>
    simp only [Tx.onlyIf_false, Tx.pure_eq_ok, true_and]
    constructor
    · rintro ⟨hc, hu, -, v, ⟨-, v', ⟨hw, hcov, rfl⟩, rfl⟩, rfl⟩
      exact ⟨⟨hc, hu, hw, by simp, by simp⟩, ⟨hcov, by simp⟩, creditUser_eq userId (-quota) w⟩
    · rintro ⟨⟨hc, hu, hw, -, -⟩, ⟨hcov, -⟩, rfl⟩
      exact ⟨hc, hu, by simp, _, ⟨(), _, ⟨hw, hcov, rfl⟩, rfl⟩, (creditUser_eq userId (-quota) w).symm⟩
  | true =>
    simp only [Tx.onlyIf_true, decreaseTokenQuotaIfAvailable_eq_ok, true_implies]
    constructor
    · rintro ⟨hc, hu, ht, v, ⟨-, v', ⟨hw, hcov, rfl⟩, hwt, htok, rfl⟩, rfl⟩
      rw [foldPending_tokens, exists_fold_token] at htok
      exact ⟨⟨hc, hu, hw, fun _ => ht, fun _ => hwt⟩, ⟨hcov, fun _ => htok⟩,
        creditWallet_eq env.now userId tokenId (-quota) w⟩
    · rintro ⟨⟨hc, hu, hw, ht, hwt⟩, ⟨hcov, htok⟩, rfl⟩
      refine ⟨hc, hu, ht rfl, _, ⟨(), _, ⟨hw, hcov, rfl⟩, hwt rfl, ?_, rfl⟩,
        (creditWallet_eq env.now userId tokenId (-quota) w).symm⟩
      rw [foldPending_tokens, exists_fold_token]
      exact htok rfl

/-- An adjustment succeeds whatever the quota is, if the rows are there. -/
theorem adjustWalletQuota_eq_ok (hd : delta ≠ 0) :
    adjustWalletQuota env userId tokenId delta withToken w = (.ok (), w') ↔
      WalletStatementsPass env userId tokenId withToken w ∧ (∃ r, w.users userId = some r) ∧
        (withToken = true → ∃ r, w.tokens tokenId = some r) ∧
        w' = w.creditWallet env.now userId tokenId (-delta) withToken := by
  rw [adjustWalletQuota, if_neg hd, withReconciledWalletQuota_eq_ok]
  simp only [Tx.bind_eq_ok, adjustUserQuota_eq_ok, foldPending_users, Table.exists_modify_iff]
  cases withToken with
  | false =>
    simp only [Tx.onlyIf_false, Tx.pure_eq_ok, true_and]
    constructor
    · rintro ⟨hc, hu, -, v, ⟨-, v', ⟨hw, hr, rfl⟩, rfl⟩, rfl⟩
      exact ⟨⟨hc, hu, hw, by simp, by simp⟩, hr, by simp, creditUser_eq userId (-delta) w⟩
    · rintro ⟨⟨hc, hu, hw, -, -⟩, hr, -, rfl⟩
      exact ⟨hc, hu, by simp, _, ⟨(), _, ⟨hw, hr, rfl⟩, rfl⟩, (creditUser_eq userId (-delta) w).symm⟩
  | true =>
    simp only [Tx.onlyIf_true, adjustTokenQuota_eq_ok, true_implies]
    constructor
    · rintro ⟨hc, hu, ht, v, ⟨-, v', ⟨hw, hr, rfl⟩, hwt, hs, rfl⟩, rfl⟩
      rw [foldPending_tokens, Table.exists_modify_iff] at hs
      exact ⟨⟨hc, hu, hw, fun _ => ht, fun _ => hwt⟩, hr, hs,
        creditWallet_eq env.now userId tokenId (-delta) w⟩
    · rintro ⟨⟨hc, hu, hw, ht, hwt⟩, hr, hs, rfl⟩
      refine ⟨hc, hu, ht rfl, _, ⟨(), _, ⟨hw, hr, rfl⟩, hwt rfl, ?_, rfl⟩,
        (creditWallet_eq env.now userId tokenId (-delta) w).symm⟩
      rw [foldPending_tokens, Table.exists_modify_iff]
      exact hs

/-- A reservation succeeds iff the row and what is pending for it have the quota together. -/
theorem reserveTokenQuota_eq_ok (hq : 0 < quota) :
    reserveTokenQuota env userId tokenId quota w = (.ok (), w') ↔
      env.fault commitSite = false ∧ TokenFolds env tokenId w ∧ env.fault 3 = false ∧
        (∃ r, w.tokens tokenId = some r ∧ r.deleted = false ∧ r.userId = userId ∧
          (r.unlimitedQuota = true ∨ quota ≤ r.remainQuota + amount w.tokenQuotaBatch tokenId)) ∧
        w' = w.creditToken env.now tokenId (-quota) := by
  rw [reserveTokenQuota, if_neg (by omega), if_neg (by omega), withReconciledTokenQuota_eq_ok]
  simp only [decreaseTokenQuotaIfAvailable_eq_ok, foldPendingToken, exists_fold_token]
  constructor
  · rintro ⟨hc, ht, v, ⟨hwt, hcov, rfl⟩, rfl⟩
    exact ⟨hc, ht, hwt, hcov, creditToken_eq env.now tokenId (-quota) w⟩
  · rintro ⟨hc, ht, hwt, hcov, rfl⟩
    exact ⟨hc, ht, _, ⟨hwt, hcov, rfl⟩, (creditToken_eq env.now tokenId (-quota) w).symm⟩

theorem adjustTokenQuotaWithPending_eq_ok :
    adjustTokenQuotaWithPending env tokenId delta w = (.ok (), w') ↔
      env.fault commitSite = false ∧ TokenFolds env tokenId w ∧ env.fault 3 = false ∧
        (∃ r, w.tokens tokenId = some r) ∧ w' = w.creditToken env.now tokenId delta := by
  rw [adjustTokenQuotaWithPending, withReconciledTokenQuota_eq_ok]
  simp only [adjustTokenQuota_eq_ok, foldPendingToken, Table.exists_modify_iff]
  constructor
  · rintro ⟨hc, ht, v, ⟨hwt, hs, rfl⟩, rfl⟩
    exact ⟨hc, ht, hwt, hs, creditToken_eq env.now tokenId delta w⟩
  · rintro ⟨hc, ht, hwt, hs, rfl⟩
    exact ⟨hc, ht, _, ⟨hwt, hs, rfl⟩, (creditToken_eq env.now tokenId delta w).symm⟩

theorem adjustUserQuotaWithPending_eq_ok :
    adjustUserQuotaWithPending env userId delta w = (.ok (), w') ↔
      env.fault commitSite = false ∧ UserFolds env userId w ∧ env.fault 2 = false ∧
        (∃ r, w.users userId = some r) ∧ w' = w.creditUser userId delta := by
  unfold adjustUserQuotaWithPending dbTransaction
  simp only [onCommit_eq_ok, commit_eq_ok, Tx.bind_eq_ok, applyPendingUserQuota_eq_ok,
    adjustUserQuota_eq_ok]
  constructor
  · rintro ⟨v, ⟨hc, -, _, ⟨hu, rfl⟩, hw, hr, rfl⟩, rfl⟩
    exact ⟨hc, hu, hw, Table.exists_modify_iff.mp hr, creditUser_eq userId delta w⟩
  · rintro ⟨hc, hu, hw, hr, rfl⟩
    exact ⟨_, ⟨hc, (), _, ⟨hu, rfl⟩, hw, Table.exists_modify_iff.mpr hr, rfl⟩,
      (creditUser_eq userId delta w).symm⟩

end WalletOperations

end NewApi
