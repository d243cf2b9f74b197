import NewApi.QuotaReservation

/-!
# The batch updater

Quota deltas may be queued in memory and written later. One pass over a store swaps
it for an empty one and writes its entries in whatever order the map yields them; an
entry whose row update fails is queued again. The execution lock is held for a whole
pass over a quota store, so a pass is one step, while other operations may run
between the passes over the two stores. The three statistics stores are left out.
-/
namespace NewApi
open PendingMap

/-- The two kinds of changes that are gathered. -/
inductive BatchUpdateType where
  | userQuota | tokenQuota
  deriving DecidableEq

abbrev BatchEntry := Sigma fun _ : ℤ => ℤ

/-- An order in which the entries of a map are visited. -/
structure MapOrder where
  visit : List BatchEntry → List BatchEntry
  perm : ∀ es, (visit es).Perm es

def MapOrder.asStored : MapOrder := ⟨id, fun _ => .refl _⟩

def World.batchStore (w : World) : BatchUpdateType → PendingMap ℤ
  | .userQuota => w.userQuotaBatch
  | .tokenQuota => w.tokenQuotaBatch

open World

def World.setBatchStore (w : World) (m : PendingMap ℤ) : BatchUpdateType → World
  | .userQuota => { w with userQuotaBatch := m }
  | .tokenQuota => { w with tokenQuotaBatch := m }

/-- A change is gathered. -/
def addNewRecord (type : BatchUpdateType) (id value : ℤ) (w : World) : World :=
  w.setBatchStore ((w.batchStore type).add id value) type

/-- Queue a delta, holding the execution lock. -/
def addQuotaBatchRecord (type : BatchUpdateType) (id value : ℤ) (w : World) :
    Except Err Unit × World :=
  (.ok (), addNewRecord type id value w)

/-- One row update, without a check of the rows it hit. -/
def increaseUserQuota (fails : Bool) (id quota : ℤ) (w : World) : Except Err Unit × World :=
  commit false .database (do
    let _ ← usersTable.update fails Err.database id (fun r => !r.deleted) (User.addQuota quota)
    pure ()) w

def increaseTokenQuota (now : ℤ) (fails : Bool) (id quota : ℤ) (w : World) :
    Except Err Unit × World :=
  commit false .database (do
    let _ ← tokensTable.update fails Err.database id (fun r => !r.deleted)
      (Token.addQuota now quota)
    pure ()) w

/-- The body of the loop over a store: a failed entry is queued again. -/
def batchUpdateEntry (type : BatchUpdateType) (now : ℤ) (fails : ℤ → Bool) (w : World)
    (entry : BatchEntry) : World :=
  let result := match type with
    | .userQuota => increaseUserQuota (fails entry.1) entry.1 entry.2 w
    | .tokenQuota => increaseTokenQuota now (fails entry.1) entry.1 entry.2 w
  match result with
  | (.ok _, w') => w'
  | (.error _, w') => addNewRecord type entry.1 entry.2 w'

/-- The pass of `batchUpdate` over one quota store. -/
def batchUpdatePass (type : BatchUpdateType) (now : ℤ) (order : MapOrder) (fails : ℤ → Bool)
    (w : World) : World :=
  let store := w.batchStore type
  (order.visit store.entries).foldl (batchUpdateEntry type now fails) (w.setBatchStore ∅ type)

/-- The persisted quota of a user, or remaining quota of a token. -/
def World.rowQuota (w : World) : BatchUpdateType → ℤ → ℤ
  | .userQuota, id => (w.users id).elim 0 User.quota
  | .tokenQuota, id => (w.tokens id).elim 0 Token.remainQuota

/-- What is gathered and not written. -/
def World.pendingQuota (w : World) (type : BatchUpdateType) (id : ℤ) : ℤ :=
  amount (w.batchStore type) id

/-- The quota that an account really has. -/
def World.reconciled (w : World) (type : BatchUpdateType) (id : ℤ) : ℤ :=
  w.rowQuota type id + w.pendingQuota type id

def World.Live (w : World) : BatchUpdateType → ℤ → Prop
  | .userQuota, id => ∃ r, w.users id = some r ∧ r.deleted = false
  | .tokenQuota, id => ∃ r, w.tokens id = some r ∧ r.deleted = false

/-- What a token was ever given: its remaining and its used quota. -/
def World.tokenGranted (w : World) (id : ℤ) : ℤ :=
  (w.tokens id).elim 0 fun r => r.remainQuota + r.usedQuota

/-- Amounts by which reconciled quotas move. -/
abbrev QuotaDelta := BatchUpdateType → ℤ → ℤ

def QuotaDelta.single (type : BatchUpdateType) (id delta : ℤ) : QuotaDelta :=
  fun type' id' => if type' = type ∧ id' = id then delta else 0

open QuotaDelta (single)

/-- The reconciled quota of every live row moved by exactly `delta`. -/
structure QuotaStep (w w' : World) (delta : QuotaDelta) : Prop where
  live : ∀ type id, w.Live type id → w'.Live type id
  moved : ∀ type id, w.Live type id → w'.reconciled type id = w.reconciled type id + delta type id
  granted : ∀ id, w'.tokenGranted id = w.tokenGranted id

namespace QuotaStep
variable {w w₁ w₂ w₃ : World} {d e : QuotaDelta}

protected theorem refl (w : World) : QuotaStep w w 0 where
  live _ _ h := h
  moved _ _ _ := by simp
  granted _ := rfl

protected theorem trans (h : QuotaStep w₁ w₂ d) (h' : QuotaStep w₂ w₃ e) :
    QuotaStep w₁ w₃ (d + e) where
  live type id hl := h'.live type id (h.live type id hl)
  moved type id hl := by
    rw [h'.moved type id (h.live type id hl), h.moved type id hl, Pi.add_apply, Pi.add_apply]
    ring
  granted id := (h'.granted id).trans (h.granted id)

theorem congr (h : QuotaStep w₁ w₂ d) (hd : d = e) : QuotaStep w₁ w₂ e := hd ▸ h

end QuotaStep

/-- The reconciled quota of every row, live or not, moved by exactly `delta`. -/
def Moved (w w' : World) (delta : QuotaDelta) : Prop :=
  ∀ type id, w'.reconciled type id = w.reconciled type id + delta type id

theorem Moved.trans {w₁ w₂ w₃ : World} {d e : QuotaDelta} (h : Moved w₁ w₂ d) (h' : Moved w₂ w₃ e) :
    Moved w₁ w₃ (d + e) := by
  intro type id
  rw [h' type id, h type id, Pi.add_apply, Pi.add_apply]
  ring

theorem Moved.congr {w w' : World} {d e : QuotaDelta} (h : Moved w w' d) (hd : d = e) : Moved w w' e :=
  hd ▸ h

theorem Moved.refl (w : World) : Moved w w 0 := fun _ _ => by simp

section Effects
variable (w : World) (now id delta : ℤ)

/-- A user row that is rewritten by a delta moves by it, and no other quota moves. -/
theorem reconciled_users {f : User → User} (hf : ∀ r, (f r).quota = r.quota + delta)
    {type : BatchUpdateType} {k : ℤ}
    (hrow : type = .userQuota → k = id → delta = 0 ∨ ∃ r, w.users id = some r) :
    { w with users := w.users.modify id f }.reconciled type k =
      w.reconciled type k + single .userQuota id delta type k := by
  cases type with
  | tokenQuota => simp [reconciled, rowQuota, pendingQuota, batchStore, single]
  | userQuota =>
    have hqt := Table.elim_modify hf (hrow rfl)
    simp [reconciled, rowQuota, pendingQuota, batchStore, single, hqt, add_right_comm]

theorem reconciled_tokens {f : Token → Token} (hf : ∀ r, (f r).remainQuota = r.remainQuota + delta)
    {type : BatchUpdateType} {k : ℤ}
    (hrow : type = .tokenQuota → k = id → delta = 0 ∨ ∃ r, w.tokens id = some r) :
    { w with tokens := w.tokens.modify id f }.reconciled type k =
      w.reconciled type k + single .tokenQuota id delta type k := by
  cases type with
  | userQuota => simp [reconciled, rowQuota, pendingQuota, batchStore, single]
  | tokenQuota =>
    have hqt := Table.elim_modify hf (hrow rfl)
    simp [reconciled, rowQuota, pendingQuota, batchStore, single, hqt, add_right_comm]

theorem quotaStep_userRow : QuotaStep w { w with users := w.users.modify id (User.addQuota delta) }
      (.single .userQuota id delta) where
  live type k hl := by
    cases type with
    | tokenQuota => exact hl
    | userQuota =>
      obtain ⟨r, hr, hd⟩ := hl
      by_cases h : k = id
      · subst h
        exact ⟨r.addQuota delta, by simp [hr], hd⟩
      · exact ⟨r, by simpa [Table.modify_of_ne _ _ h] using hr, hd⟩
  moved type k hl := by
    refine reconciled_users w id delta (fun _ => rfl) fun htype hk => ?_
    subst htype hk
    obtain ⟨r, hr, -⟩ := hl
    exact .inr ⟨r, hr⟩
  granted _ := rfl

/-- Rewriting a token row moves its remaining quota and keeps what it was granted. -/
theorem quotaStep_tokenRow :
    QuotaStep w { w with tokens := w.tokens.modify id (Token.addQuota now delta) }
      (.single .tokenQuota id delta) where
  live type k hl := by
    cases type with
    | userQuota => exact hl
    | tokenQuota =>
      obtain ⟨r, hr, hd⟩ := hl
      by_cases h : k = id
      · subst h
        exact ⟨r.addQuota now delta, by simp [hr], hd⟩
      · exact ⟨r, by simpa [Table.modify_of_ne _ _ h] using hr, hd⟩
  moved type k hl := by
    refine reconciled_tokens w id delta (fun _ => rfl) fun htype hk => ?_
    subst htype hk
    obtain ⟨r, hr, -⟩ := hl
    exact .inr ⟨r, hr⟩
  granted k := by
    by_cases h : k = id
    · subst h
      cases hr : w.tokens k with
      | none => simp [tokenGranted, hr]
      | some r => simp [tokenGranted, hr, Token.addQuota]
    · simp [tokenGranted, Table.modify_of_ne _ _ h]

variable (type : BatchUpdateType)

theorem moved_store (m : PendingMap ℤ) : Moved w (w.setBatchStore m type)
    (fun type' k => if type' = type then m.amount k - w.pendingQuota type k else 0) := by
  intro type' k
  cases type <;> cases type' <;>
    simp [reconciled, rowQuota, pendingQuota, batchStore, setBatchStore]

theorem moved_erase : Moved w (w.setBatchStore ((w.batchStore type).erase id) type)
    (.single type id (-w.pendingQuota type id)) := by
  refine (moved_store w type ((w.batchStore type).erase id)).congr ?_
  funext type' k
  by_cases ht : type' = type <;> by_cases hk : k = id <;>
    simp [single, ht, hk, pendingQuota, amount_erase]

/-- The rows stay, so a step of the store is what moves. -/
theorem quotaStep_of_moved {m : PendingMap ℤ} {d : QuotaDelta}
    (h : Moved w (w.setBatchStore m type) d) : QuotaStep w (w.setBatchStore m type) d where
  live type' k hl := by cases type <;> cases type' <;> exact hl
  moved type' k _ := h type' k
  granted _ := by cases type <;> rfl

theorem quotaStep_addNewRecord :
    QuotaStep w (addNewRecord type id delta w) (.single type id delta) := by
  refine quotaStep_of_moved w type ((moved_store w type _).congr ?_)
  funext type' k
  by_cases ht : type' = type <;> simp [single, ht, pendingQuota, amount_add]

@[simp] theorem QuotaDelta.single_zero (id : ℤ) : single type id 0 = 0 := by
  funext type' k
  simp [single]

theorem QuotaDelta.single_add (id a b : ℤ) : single type id a + single type id b =
      single type id (a + b) := by
  funext type' k
  by_cases h : type' = type ∧ k = id <;> simp [single, h]

/-- Folding the pending delta in and dropping it leaves just the credited amount. -/
theorem quotaStep_creditUser :
    QuotaStep w (w.creditUser id delta) (.single .userQuota id delta) := by
  have hrow := quotaStep_userRow w id (amount w.userQuotaBatch id + delta)
  refine (hrow.trans (quotaStep_of_moved _ _ (moved_erase _ id .userQuota))).congr ?_
  rw [QuotaDelta.single_add]
  simp [pendingQuota, batchStore]

theorem quotaStep_creditToken :
    QuotaStep w (w.creditToken now id delta) (.single .tokenQuota id delta) := by
  have hrow := quotaStep_tokenRow w now id (amount w.tokenQuotaBatch id + delta)
  refine (hrow.trans (quotaStep_of_moved _ _ (moved_erase _ id .tokenQuota))).congr ?_
  rw [QuotaDelta.single_add]
  simp [pendingQuota, batchStore]

end Effects

/-- What a wallet operation moves: the wallet and, when one is given, the token. -/
def QuotaDelta.wallet (userId tokenId delta : ℤ) (withToken : Bool) : QuotaDelta :=
  if withToken then .single .userQuota userId delta + .single .tokenQuota tokenId delta
  else .single .userQuota userId delta

@[simp] theorem QuotaDelta.wallet_zero (userId tokenId : ℤ) (withToken : Bool) :
    QuotaDelta.wallet userId tokenId 0 withToken = 0 := by
  cases withToken <;> simp [QuotaDelta.wallet]

theorem quotaStep_creditWallet (w : World) (now userId tokenId delta : ℤ) (withToken : Bool) :
    QuotaStep w (w.creditWallet now userId tokenId delta withToken)
      (.wallet userId tokenId delta withToken) := by
  cases withToken with
  | false => exact quotaStep_creditUser w userId delta
  | true =>
    exact (quotaStep_creditUser w userId delta).trans
      (quotaStep_creditToken (w.creditUser userId delta) now tokenId delta)

section Moves
variable {w v : World} {id : ℤ} {env : Env} {d : QuotaDelta}

theorem moved_userRow {r : User} (hr : w.users id = some r) (delta : ℤ) :
    Moved w { w with users := w.users.modify id (User.addQuota delta) }
      (.single .userQuota id delta) :=
  fun _ _ => reconciled_users w id delta (fun _ => rfl) fun _ _ => .inr ⟨r, hr⟩

theorem moved_tokenRow {r : Token} (hr : w.tokens id = some r) (now delta : ℤ) :
    Moved w { w with tokens := w.tokens.modify id (Token.addQuota now delta) }
      (.single .tokenQuota id delta) :=
  fun _ _ => reconciled_tokens w id delta (fun _ => rfl) fun _ _ => .inr ⟨r, hr⟩

theorem moved_creditUser {r : User} (hr : w.users id = some r) (delta : ℤ) :
    Moved w (w.creditUser id delta) (.single .userQuota id delta) := by
  have hrow := moved_userRow hr (amount w.userQuotaBatch id + delta)
  refine (hrow.trans (moved_erase _ id .userQuota)).congr ?_
  rw [QuotaDelta.single_add]
  simp [pendingQuota, batchStore]

theorem moved_creditToken {r : Token} (hr : w.tokens id = some r) (now delta : ℤ) :
    Moved w (w.creditToken now id delta) (.single .tokenQuota id delta) := by
  have hrow := moved_tokenRow hr now (amount w.tokenQuotaBatch id + delta)
  refine (hrow.trans (moved_erase _ id .tokenQuota)).congr ?_
  rw [QuotaDelta.single_add]
  simp [pendingQuota, batchStore]

/-- What moved after a pending delta was folded in, moved altogether once it is dropped. -/
theorem moved_dropPendingUser (hf : UserFolds env id w) (hb : v.userQuotaBatch = w.userQuotaBatch)
    (h : Moved (w.foldPendingUser id) v d) : Moved w (v.dropPendingUser id) d := by
  have hfold : Moved w (w.foldPendingUser id) (.single .userQuota id (amount w.userQuotaBatch id)) :=
    fun _ _ => reconciled_users w id _ (fun _ => rfl) fun _ _ => hf.imp_right And.right
  refine ((hfold.trans h).trans (moved_erase v id .userQuota)).congr ?_
  rw [add_right_comm, QuotaDelta.single_add]
  simp [pendingQuota, batchStore, hb]

theorem moved_dropPendingToken {now : ℤ} (hf : TokenFolds env id w)
    (hb : v.tokenQuotaBatch = w.tokenQuotaBatch) (h : Moved (w.foldPendingToken now id) v d) :
    Moved w (v.dropPendingToken id) d := by
  have hfold : Moved w (w.foldPendingToken now id)
      (.single .tokenQuota id (amount w.tokenQuotaBatch id)) :=
    fun _ _ => reconciled_tokens w id _ (Token.fold_remainQuota now _) fun _ _ =>
      hf.imp_right And.right
  refine ((hfold.trans h).trans (moved_erase v id .tokenQuota)).congr ?_
  rw [add_right_comm, QuotaDelta.single_add]
  simp [pendingQuota, batchStore, hb]

end Moves

theorem moved_creditWallet {w : World} {userId tokenId : ℤ} {withToken : Bool} {r : User}
    (hr : w.users userId = some r) (ht : withToken = true → ∃ s, w.tokens tokenId = some s)
    (now delta : ℤ) : Moved w (w.creditWallet now userId tokenId delta withToken)
      (.wallet userId tokenId delta withToken) := by
  cases withToken with
  | false => exact moved_creditUser hr delta
  | true =>
    obtain ⟨s, hs⟩ := ht rfl
    exact (moved_creditUser hr delta).trans
      (moved_creditToken (w := w.creditUser userId delta) hs now delta)

section Pass
variable (w : World) (now : ℤ)

/-- An update that hit no row: there is no live row that could have moved. -/
theorem quotaStep_noRow {type : BatchUpdateType} {id delta : ℤ} (h : ¬ w.Live type id) :
    QuotaStep w w (.single type id delta) where
  live _ _ hl := hl
  moved type' k hl := by
    have hne : ¬ (type' = type ∧ k = id) := by
      rintro ⟨rfl, rfl⟩
      exact h hl
    simp [single, hne]
  granted _ := rfl

variable (type : BatchUpdateType) (id quota : ℤ) (fails : ℤ → Bool)

theorem increaseUserQuota_false : increaseUserQuota false id quota w =
      (.ok (), { w with users := (w.users.updateWhere id (fun r => !r.deleted)
        (User.addQuota quota)).1 }) := rfl

theorem increaseTokenQuota_false : increaseTokenQuota now false id quota w =
      (.ok (), { w with tokens := (w.tokens.updateWhere id (fun r => !r.deleted)
        (Token.addQuota now quota)).1 }) := rfl

theorem quotaStep_increaseUserQuota :
    QuotaStep w (increaseUserQuota false id quota w).2 (.single .userQuota id quota) := by
  rw [increaseUserQuota_false]
  rcases w.users.updateWhere_cases id (fun r => !r.deleted) (User.addQuota quota) with
    ⟨-, -, -, heq⟩ | ⟨hdead, heq⟩
  · rw [heq]
    exact quotaStep_userRow w id quota
  · rw [heq]
    refine quotaStep_noRow w fun ⟨r, hr, hlive⟩ => ?_
    simpa [hlive] using hdead r hr

theorem quotaStep_increaseTokenQuota :
    QuotaStep w (increaseTokenQuota now false id quota w).2 (.single .tokenQuota id quota) := by
  rw [increaseTokenQuota_false]
  rcases w.tokens.updateWhere_cases id (fun r => !r.deleted) (Token.addQuota now quota) with
    ⟨-, -, -, heq⟩ | ⟨hdead, heq⟩
  · rw [heq]
    exact quotaStep_tokenRow w now id quota
  · rw [heq]
    refine quotaStep_noRow w fun ⟨r, hr, hlive⟩ => ?_
    simpa [hlive] using hdead r hr

/-- One entry of a pass: it is queued again if its update fails, else written. -/
theorem batchUpdateEntry_eq (entry : BatchEntry) : batchUpdateEntry type now fails w entry =
      if fails entry.1 then addNewRecord type entry.1 entry.2 w
      else match type with
        | .userQuota => (increaseUserQuota false entry.1 entry.2 w).2
        | .tokenQuota => (increaseTokenQuota now false entry.1 entry.2 w).2 := by
  unfold batchUpdateEntry
  cases hf : fails entry.1 with
  | true | false => cases type <;> rfl

theorem quotaStep_batchUpdateEntry (entry : BatchEntry) :
    QuotaStep w (batchUpdateEntry type now fails w entry) (.single type entry.1 entry.2) := by
  rw [batchUpdateEntry_eq]
  split_ifs
  · exact quotaStep_addNewRecord w entry.1 entry.2 type
  · cases type with
    | userQuota => exact quotaStep_increaseUserQuota w entry.1 entry.2
    | tokenQuota => exact quotaStep_increaseTokenQuota w now entry.1 entry.2

/-- The loop over the entries adds to every row what the entries list for it. -/
theorem quotaStep_batchUpdateEntries (es : List BatchEntry) :
    QuotaStep w (es.foldl (batchUpdateEntry type now fails) w)
      (fun type' k => if type' = type then listed k es else 0) := by
  induction es generalizing w with
  | nil =>
    refine (QuotaStep.refl w).congr ?_
    funext type' k
    simp
  | cons e es ih =>
    have hfst := quotaStep_batchUpdateEntry w now type fails e
    refine (hfst.trans (ih (batchUpdateEntry type now fails w e))).congr ?_
    funext type' k
    by_cases ht : type' = type <;>
      simp [single, ht, @eq_comm _ k e.1]

/-- A pass moves no reconciled quota, whatever its order and its failures. -/
theorem quotaStep_batchUpdatePass (order : MapOrder) (fails : ℤ → Bool) :
    QuotaStep w (batchUpdatePass type now order fails w) 0 := by
  have hemp := quotaStep_of_moved w type (moved_store w type ∅)
  have hloop := quotaStep_batchUpdateEntries (w.setBatchStore ∅ type) now type fails
    (order.visit (w.batchStore type).entries)
  refine (hemp.trans hloop).congr ?_
  funext type' k
  by_cases ht : type' = type
  · simp [ht, listed_perm (order.perm _), listed_entries, pendingQuota]
  · simp [ht]

end Pass

end NewApi
