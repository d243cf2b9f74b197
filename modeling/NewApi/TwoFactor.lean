import NewApi.Runs
import NewApi.GoStrings

/-!
# Verification of a second factor

A verification reads the user's record, checks the code against the secret or the backup codes,
and saves the whole record with its count of failures. Reading the unused codes, marking one as
used and saving the record are separate statements, so that verifications may interleave. The
comparison with a hash and with the secret at some time are parameters.
-/
namespace NewApi.TwoFactor

def maxFailAttempts : ℕ := 5

def lockoutDuration : ℤ := 300

def backupCodeLength : ℕ := 8

/-- Six digits, as `strconv.Atoi` reads them, without blanks. -/
def validateNumericCode (code : String) : Option String :=
  let code := replaceAll code " " ""
  if code.toList.length ≠ 6 then none
  else if (atoi code).isNone then none
  else some code

/-- Codes are compared without dashes and in upper case. -/
def cleanBackupCode (code : String) : String := toUpper (replaceAll code "-" "")

/-- The form of a code. -/
def validateBackupCode (code : String) : Bool :=
  let clean := (cleanBackupCode code).toList
  decide (clean.length = backupCodeLength) &&
    clean.all fun c => (decide ('A' ≤ c) && decide (c ≤ 'Z')) || (decide ('0' ≤ c) && decide (c ≤ '9'))

/-- A code as it is stored. -/
def normalizeBackupCode (code : String) : String :=
  let clean := (cleanBackupCode code).toList
  if clean.length = backupCodeLength then
    String.ofList (clean.take 4 ++ '-' :: clean.drop 4)
  else code

/-- The columns that count failures. -/
structure Record where
  failedAttempts : ℕ
  lockedUntil : Option ℤ
  deriving DecidableEq

namespace Record

/-- The account is locked now. -/
def isLocked (t : Record) (now : ℤ) : Bool := t.lockedUntil.any fun until_ => decide (now < until_)

/-- The fifth failure and each one after it locks the account anew. -/
def incrementFailedAttempts (t : Record) (now : ℤ) : Record :=
  { failedAttempts := t.failedAttempts + 1
    lockedUntil :=
      if maxFailAttempts ≤ t.failedAttempts + 1 then some (now + lockoutDuration)
      else t.lockedUntil }

/-- The record says that the account was locked. -/
def locks (t : Record) : Bool := decide (maxFailAttempts ≤ t.failedAttempts) && t.lockedUntil.isSome

/-- After a success. -/
def reset : Record := ⟨0, none⟩

end Record

/-- A code's row; it has a hash only. -/
structure BackupCode where
  codeHash : String
  isUsed : Bool

/-- The place of the first unused code that the text matches. -/
def findCode (checks : String → String → Bool) (code : String) (codes : List BackupCode) :
    Option ℕ :=
  codes.findIdx? fun c => !c.isUsed && checks (normalizeBackupCode code) c.codeHash

/-- What a verification does next. `saving` is the save of its copy of the record. -/
inductive Stage where
  | totp
  | backup
  | marking (row : ℕ)
  | saving (accepted : Bool) (fromTOTP : Bool)
  | finished (accepted : Bool)
  deriving DecidableEq

/-- A verification, with its copy of the record. One that regenerates backup codes does not try
them. -/
structure Verification where
  code : String
  triesBackup : Bool
  copy : Record
  stage : Stage

/-- The stored record and codes, the verifications, and what is remembered beside them: the
codes that were accepted, the wrong codes evaluated since the last success, and whether the
record was saved as locked since then. -/
structure State where
  record : Record
  codes : List BackupCode
  verifications : List Verification
  accepted : List ℕ
  wrong : ℕ
  lockedSince : Bool

/-- Requests read the record, and write it back later. -/
inductive Call where
  | load (code : String) (triesBackup : Bool)
  | evaluate (verification : ℕ) (now : ℤ) (validTOTP : Bool)
  | mark (verification : ℕ) (fails : Bool)
  | save (verification : ℕ) (fails : Bool)

open Call

namespace State
variable (s : State)

/-- Before any request. -/
def start (record : Record) (codes : List BackupCode) : State := ⟨record, codes, [], [], 0, false⟩

def set (n : ℕ) (v : Verification) : State :=
  { s with verifications := s.verifications.set n v }

/-- The ghost counters start again after a success. -/
def succeed : State := { s with wrong := 0, lockedSince := false }

/-- A code was wrong; the verification counts it in its copy. -/
def fail (n : ℕ) (v : Verification) (now : ℤ) (fromTOTP : Bool) : State :=
  { s with wrong := s.wrong + 1 }.set n
    { v with copy := v.copy.incrementFailedAttempts now, stage := .saving false fromTOTP }

/-- The check of a code against the secret. -/
def evaluateTOTP (n : ℕ) (v : Verification) (now : ℤ) (valid : Bool) : State :=
  if v.copy.isLocked now then
    s.set n { v with stage := if v.triesBackup then .backup else .finished false }
  else if valid then s.succeed.set n { v with copy := .reset, stage := .saving true true }
  else s.fail n v now true

/-- The check of a code against the backup codes, which are read here. -/
def evaluateBackup (checks : String → String → Bool) (n : ℕ) (v : Verification) (now : ℤ) :
    State :=
  if v.copy.isLocked now || !validateBackupCode v.code then
    s.set n { v with stage := .finished false }
  else
    match findCode checks v.code s.codes with
    | some row => s.set n { v with stage := .marking row }
    | none => s.fail n v now false

/-- The code is marked as used, and then accepted. -/
def mark (n : ℕ) (v : Verification) (row : ℕ) (fails : Bool) : State :=
  if fails then s.set n { v with stage := .finished false }
  else
    { s.succeed with
      codes := s.codes.modify row fun c => { c with isUsed := true }
      accepted := s.accepted ++ [row] }.set n { v with copy := .reset, stage := .saving true false }

/-- A wrong one-time code may still be a backup code. -/
def afterSave (v : Verification) (accepted fromTOTP : Bool) : Stage :=
  if !accepted && fromTOTP && v.triesBackup then .backup else .finished accepted

/-- The whole record is saved; an error of the database is only logged. -/
def save (n : ℕ) (v : Verification) (accepted fromTOTP fails : Bool) : State :=
  let s' := if fails then s else
    { s with record := v.copy, lockedSince := s.lockedSince || v.copy.locks }
  s'.set n { v with stage := afterSave v accepted fromTOTP }

end State

/-- The first check: numeric codes are tried against the secret, then against backup codes. -/
def firstStage (code : String) (triesBackup : Bool) : Stage :=
  if (validateNumericCode code).isSome then .totp
  else if triesBackup then .backup
  else .finished false

def Call.step (checks : String → String → Bool) : Call → State → State
  | .load code triesBackup, s =>
    { s with verifications := s.verifications ++
        [⟨code, triesBackup, s.record, firstStage code triesBackup⟩] }
  | .evaluate n now validTOTP, s =>
    match s.verifications[n]? with
    | some v =>
      match v.stage with
      | .totp => s.evaluateTOTP n v now validTOTP
      | .backup => s.evaluateBackup checks n v now
      | _ => s
    | none => s
  | .mark n fails, s =>
    match s.verifications[n]? with
    | some v =>
      match v.stage with
      | .marking row => s.mark n v row fails
      | _ => s
    | none => s
  | .save n fails, s =>
    match s.verifications[n]? with
    | some v =>
      match v.stage with
      | .saving accepted fromTOTP => s.save n v accepted fromTOTP fails
      | _ => s
    | none => s

/-- The step evaluates a code: against the secret, or against the backup codes. -/
def Call.Evaluates : Call → State → Prop
  | .evaluate n now _, s => ∃ v ∈ s.verifications[n]?, v.copy.isLocked now = false ∧
      (v.stage = .totp ∨ v.stage = .backup ∧ validateBackupCode v.code = true)
  | _, _ => False

instance (c : Call) (s) : Decidable (c.Evaluates s) := by
  cases c <;> dsimp only [Evaluates] <;> infer_instance

/-- What a call does: nothing, a load, or the next stage of the verification it names. -/
inductive Effect (checks : String → String → Bool) (s : State) : Call → State → Prop
  | idle {c : Call} (heval : ¬c.Evaluates s)
      (hmark : ∀ n fails v row, c = .mark n fails → s.verifications[n]? = some v →
        v.stage ≠ .marking row) : Effect checks s c s
  | load (code : String) (triesBackup : Bool) : Effect checks s (.load code triesBackup)
      { s with verifications := s.verifications ++
          [⟨code, triesBackup, s.record, firstStage code triesBackup⟩] }
  | totp {n : ℕ} {v : Verification} (now : ℤ) (valid : Bool) (hv : s.verifications[n]? = some v)
      (hstage : v.stage = .totp) :
      Effect checks s (.evaluate n now valid) (s.evaluateTOTP n v now valid)
  | backup {n : ℕ} {v : Verification} (now : ℤ) (valid : Bool) (hv : s.verifications[n]? = some v)
      (hstage : v.stage = .backup) :
      Effect checks s (.evaluate n now valid) (s.evaluateBackup checks n v now)
  | mark {n : ℕ} {v : Verification} {row : ℕ} (fails : Bool) (hv : s.verifications[n]? = some v)
      (hstage : v.stage = .marking row) : Effect checks s (.mark n fails) (s.mark n v row fails)
  | save {n : ℕ} {v : Verification} {accepted fromTOTP : Bool} (fails : Bool)
      (hv : s.verifications[n]? = some v) (hstage : v.stage = .saving accepted fromTOTP) :
      Effect checks s (.save n fails) (s.save n v accepted fromTOTP fails)

/-- All that a step can do. -/
theorem step_effect (checks : String → String → Bool) (c : Call) (s : State) :
    Effect checks s c (c.step checks s) := by
  cases c with
  | load code triesBackup => exact .load code triesBackup
  | evaluate n now valid =>
    simp only [step]
    split
    next v hv =>
      split
      next hst => exact .totp now valid hv hst
      next hst => exact .backup now valid hv hst
      next htotp hbackup =>
        refine .idle ?_ nofun
        rintro ⟨w, hw, -, hst | hst⟩ <;> cases hv.symm.trans hw
        · exact htotp hst
        · exact hbackup hst.1
    next hv =>
      refine .idle ?_ nofun
      rintro ⟨w, hw, -⟩
      cases hv.symm.trans hw
  | mark n fails =>
    simp only [step]
    split
    next v hv =>
      split
      next row hst => exact .mark fails hv hst
      next hst =>
        refine .idle id ?_
        rintro _ _ w row ⟨⟩ hw
        cases hv.symm.trans hw
        exact hst row
    next hv =>
      refine .idle id ?_
      rintro _ _ w row ⟨⟩ hw
      cases hv.symm.trans hw
  | save n fails =>
    simp only [step]
    split
    next v hv =>
      split
      next accepted fromTOTP hst => exact .save fails hv hst
      · exact .idle id nofun
    · exact .idle id nofun

/-- The code of this row was used. -/
def State.Used (s : State) (row : ℕ) : Prop := (s.codes[row]?.any fun c => c.isUsed) = true

/-- A code is not marked that another request has marked before. -/
def Call.MarksUnused : Call → State → Prop
  | .mark n fails, s => ∀ v ∈ s.verifications[n]?, ∀ row, v.stage = .marking row → fails = false →
      ¬s.Used row
  | _, _ => True

/-- A verification that is about to mark a code has read it as unused. -/
def Marks (s : State) (v : Verification) : Prop :=
  ∀ row, v.stage = .marking row → row < s.codes.length ∧ (s.Used row → row ∈ s.accepted)

/-- Accepted codes are used, and a code about to be marked is used only if it was accepted. -/
def CodesOk (s : State) : Prop :=
  (∀ row ∈ s.accepted, s.Used row) ∧ ∀ v ∈ s.verifications, Marks s v

section
variable {checks : String → String → Bool} {s : State} {n : ℕ} {v : Verification}

theorem Marks.of_stage (h : ∀ row, v.stage ≠ .marking row) : Marks s v :=
  fun row hst => absurd hst (h row)

variable {row : ℕ}

theorem findCode_some {code : String} {codes : List BackupCode}
    (h : findCode checks code codes = some row) :
    row < codes.length ∧ (codes[row]?.any fun c => c.isUsed) = false := by
  obtain ⟨hlt, hfnd, -⟩ := List.findIdx?_eq_some_iff_getElem.mp h
  refine ⟨hlt, ?_⟩
  rw [List.getElem?_eq_getElem hlt]
  simp only [Bool.and_eq_true, Bool.not_eq_true'] at hfnd
  exact hfnd.1

theorem used_marked (row other : ℕ) {s' : State}
    (hcodes : s'.codes = s.codes.modify row fun c => { c with isUsed := true }) :
    s'.Used other ↔ s.Used other ∨ other = row ∧ row < s.codes.length := by
  rw [State.Used, State.Used, hcodes, List.getElem?_modify]
  by_cases h : row = other
  · subst h
    by_cases hlt : row < s.codes.length
    · simp [hlt]
    · simp [hlt]
  · simp [h, Ne.symm h]

theorem firstStage_ne_marking (code : String) (triesBackup : Bool) (row : ℕ) :
    firstStage code triesBackup ≠ .marking row := by
  unfold firstStage
  repeat' split
  all_goals nofun

section
variable (h : CodesOk s)
include h

theorem CodesOk.set (n : ℕ) (hv : Marks s v) : CodesOk (s.set n v) := by
  refine ⟨h.1, fun v' hv' => ?_⟩
  obtain hold | rfl := List.mem_or_eq_of_mem_set hv'
  · exact h.2 v' hold
  · exact hv

theorem CodesOk.fail (n : ℕ) (v : Verification) (now : ℤ) (fromTOTP : Bool) :
    CodesOk (s.fail n v now fromTOTP) :=
  CodesOk.set (s := { s with wrong := s.wrong + 1 }) h n (.of_stage fun _ h => nomatch h)

theorem CodesOk.evaluateBackup (n : ℕ) (v : Verification) (now : ℤ) :
    CodesOk (s.evaluateBackup checks n v now) := by
  unfold State.evaluateBackup
  split
  · exact h.set n (.of_stage fun _ h => nomatch h)
  split
  next row hrow =>
    obtain ⟨hlt, hunused⟩ := findCode_some hrow
    refine h.set n fun row' hst => ?_
    cases hst
    refine ⟨hlt, fun hused => ?_⟩
    rw [State.Used, hunused] at hused
    cases hused
  · exact h.fail n v now false

theorem CodesOk.evaluateTOTP (n : ℕ) (v : Verification) (now : ℤ) (valid : Bool) :
    CodesOk (s.evaluateTOTP n v now valid) := by
  unfold State.evaluateTOTP
  split
  · refine h.set n (.of_stage fun _ h => ?_)
    split at h <;> cases h
  · split
    · exact CodesOk.set (s := s.succeed) h n (.of_stage fun _ h => nomatch h)
    · exact h.fail n v now true

theorem CodesOk.mark (hv : s.verifications[n]? = some v)
    (hst : v.stage = .marking row) (fails : Bool) : CodesOk (s.mark n v row fails) := by
  unfold State.mark
  split
  · exact h.set n (.of_stage fun _ h => nomatch h)
  have hlt := (h.2 v (List.mem_of_getElem? hv) row hst).1
  refine CodesOk.set ⟨?_, ?_⟩ n (.of_stage fun _ h => nomatch h)
  · intro other hoth
    rw [used_marked row other rfl]
    obtain hoth | hoth := List.mem_append.mp hoth
    · exact .inl (h.1 other hoth)
    · exact .inr ⟨List.mem_singleton.mp hoth, hlt⟩
  · intro v' hv' other hstage'
    obtain ⟨hlt', hused⟩ := h.2 v' hv' other hstage'
    refine ⟨by simpa using hlt', fun h' => List.mem_append.mpr ?_⟩
    rw [used_marked row other rfl] at h'
    obtain h' | ⟨rfl, -⟩ := h'
    · exact .inl (hused h')
    · exact .inr (List.mem_singleton.mpr rfl)

theorem CodesOk.save (n : ℕ) (v : Verification) (accepted fromTOTP fails : Bool) :
    CodesOk (s.save n v accepted fromTOTP fails) := by
  have hnext : ∀ row, State.afterSave v accepted fromTOTP ≠ .marking row := by
    intro row
    unfold State.afterSave
    split <;> nofun
  cases fails with
  | true => exact CodesOk.set h n (.of_stage hnext)
  | false => exact CodesOk.set (s := { s with record := _, lockedSince := _ }) h n (.of_stage hnext)

theorem CodesOk.step (c : Call) : CodesOk (c.step checks s) := by
  have heff := step_effect checks c s
  generalize c.step checks s = s' at heff ⊢
  cases heff with
  | idle => exact h
  | load code triesBackup =>
    refine ⟨h.1, fun v hv => ?_⟩
    obtain hv | hv := List.mem_append.mp hv
    · exact h.2 v hv
    · rw [List.mem_singleton.mp hv]
      intro row hst
      exact absurd hst (firstStage_ne_marking code triesBackup row)
  | totp now valid => exact h.evaluateTOTP _ _ now valid
  | backup now => exact h.evaluateBackup _ _ now
  | mark fails hv hst => exact h.mark hv hst fails
  | save fails => exact h.save _ _ _ _ fails

end

@[simp] theorem evaluateTOTP_accepted (now : ℤ) (valid : Bool) :
    (s.evaluateTOTP n v now valid).accepted = s.accepted := by
  unfold State.evaluateTOTP
  repeat' split
  all_goals rfl

@[simp] theorem evaluateBackup_accepted (now : ℤ) :
    (s.evaluateBackup checks n v now).accepted = s.accepted := by
  unfold State.evaluateBackup
  repeat' split
  all_goals rfl

@[simp] theorem save_accepted (accepted fromTOTP fails : Bool) :
    (s.save n v accepted fromTOTP fails).accepted = s.accepted := by
  cases fails <;> rfl

theorem mark_single_use (h : CodesOk s) (hs : s.accepted.Nodup)
    (hv : s.verifications[n]? = some v) (hst : v.stage = .marking row) (fails : Bool) :
    (s.mark n v row fails).accepted.Nodup ↔ (mark n fails).MarksUnused s := by
  cases fails with
  | true => exact iff_of_true hs fun _ _ _ _ hfails => nomatch hfails
  | false =>
    have hused := (h.2 v (List.mem_of_getElem? hv) row hst).2
    change (s.accepted ++ [row]).Nodup ↔ _
    rw [← List.concat_eq_append, List.nodup_concat]
    constructor
    · rintro ⟨hrow, -⟩ v' hv' row' hstage' - hused'
      cases hv.symm.trans hv'
      cases hst.symm.trans hstage'
      exact hrow (hused hused')
    · intro hok
      exact ⟨fun hrow => hok v hv row hst rfl (h.1 row hrow), hs⟩

/-- A step keeps every code accepted at most once iff it marks no used code. -/
theorem step_single_use (h : CodesOk s) (hs : s.accepted.Nodup) (c : Call) :
    (c.step checks s).accepted.Nodup ↔ c.MarksUnused s := by
  have heff := step_effect checks c s
  generalize c.step checks s = s' at heff ⊢
  cases heff with
  | idle _ hmark =>
    refine iff_of_true hs ?_
    cases c with
    | mark n fails => exact fun v hv row hst _ => absurd hst (hmark n fails v row rfl hv)
    | _ => trivial
  | load => exact iff_of_true hs trivial
  | totp now valid => exact iff_of_true (by rwa [evaluateTOTP_accepted]) trivial
  | backup now => exact iff_of_true (by rwa [evaluateBackup_accepted]) trivial
  | mark fails hv hst => exact mark_single_use h hs hv hst fails
  | save fails => exact iff_of_true (by rwa [save_accepted]) trivial

end

theorem codesOk_start (record : Record) (codes : List BackupCode) :
    CodesOk (.start record codes) := ⟨nofun, nofun⟩

/-- Each backup code is accepted at most once, at any time, exactly if no verification marks a
code that is already used. -/
theorem backup_codes_single_use_iff (checks : String → String → Bool) (record : Record)
    (codes : List BackupCode) (calls : List Call) :
    (∀ js, js <+: calls → (run (step checks) js (.start record codes)).accepted.Nodup) ↔
      Along (step checks) Call.MarksUnused calls (.start record codes) := by
  have hstep : ∀ (c : Call) s, CodesOk s ∧ s.accepted.Nodup →
      (CodesOk (c.step checks s) ∧ (c.step checks s).accepted.Nodup ↔ c.MarksUnused s) :=
    fun c s h => (and_iff_right (h.1.step c)).trans (step_single_use h.1 h.2 c)
  have hst := codesOk_start record codes
  have halways : ∀ js, CodesOk (run (step checks) js (.start record codes)) := fun js =>
    run_invariant_always (I := CodesOk) (fun c _ h => h.step c) js hst
  rw [← invariant_iff_along hstep calls ⟨hst, List.nodup_nil⟩]
  exact forall₂_congr fun js _ => (and_iff_right (halways js)).symm

/-- Two verifications that read the codes before either marks one. -/
def twoWithOneCode : State :=
  run (step fun code hash => code == hash)
    [.load "ABCD-1234" true, .load "ABCD-1234" true, .evaluate 0 10 false, .evaluate 1 10 false,
      .mark 0 false, .mark 1 false, .save 0 false, .save 1 false]
    (.start .reset [⟨"ABCD-1234", false⟩])

/-- Both requests have read the code before either marks it. -/
theorem backup_code_accepted_twice : twoWithOneCode.accepted = [0, 0] ∧
      twoWithOneCode.verifications.map Verification.stage = [.finished true, .finished true] := by
  decide +kernel

def Stage.isSaving : Stage → Bool
  | .saving _ _ => true
  | _ => false

/-- A wrong code that is not yet counted in the database. -/
def Stage.countsFailure : Stage → Bool
  | .saving false _ => true
  | _ => false

/-- A code is evaluated only from a current copy of the record and when no other verification is
about to save it; a failure is saved. -/
def Call.OneAtATime : Call → State → Prop
  | .evaluate n now valid, s => (evaluate n now valid).Evaluates s →
      (∀ v ∈ s.verifications[n]?, v.copy = s.record) ∧
        ∀ v ∈ s.verifications, v.stage.isSaving = false
  | .save n fails, s => ∀ v ∈ s.verifications[n]?, v.stage.countsFailure = true → fails = false
  | _, _ => True

instance (c : Call) (s) : Decidable (c.OneAtATime s) := by
  cases c <;> dsimp only [OneAtATime] <;> infer_instance

/-- Either the record was locked since the last success, or no more wrong codes than allowed were
evaluated. -/
def State.Bounded (s : State) : Prop := s.lockedSince = false → s.wrong ≤ maxFailAttempts

/-- The call evaluates no code while the stored record is locked. -/
def Call.RespectsLock : Call → State → Prop
  | .evaluate n now valid, s => (evaluate n now valid).Evaluates s → s.record.isLocked now = false
  | _, _ => True

/-- What a pending save holds: a failure counts every wrong code so far, and a success comes
after the last of them. -/
def Pending (s : State) (v : Verification) : Prop :=
  match v.stage with
  | .saving false _ => (s.lockedSince = false → s.wrong ≤ v.copy.failedAttempts) ∧
      (maxFailAttempts ≤ v.copy.failedAttempts → v.copy.lockedUntil.isSome)
  | .saving true _ => s.wrong = 0
  | _ => True

/-- The stored record counts every wrong code, and is locked by the last one allowed. -/
def Counted (s : State) : Prop :=
  s.lockedSince = false → s.wrong ≤ s.record.failedAttempts ∧
    (0 < s.wrong → s.record.failedAttempts < maxFailAttempts)

/-- With no failure waiting to be saved the stored record counts them all. -/
def CountsOk (s : State) : Prop :=
  s.Bounded ∧ (∀ v ∈ s.verifications, Pending s v) ∧
    ((∀ v ∈ s.verifications, v.stage.countsFailure = false) → Counted s)

section
variable {checks : String → String → Bool} {s : State} {n : ℕ} {v v' : Verification}

theorem Pending.of_not_saving (h : v.stage.isSaving = false) : Pending s v := by
  unfold Pending
  split
  next hst => rw [hst] at h; cases h
  next hst => rw [hst] at h; cases h
  · trivial

theorem countsFailure_of_not_saving {stage : Stage} (h : stage.isSaving = false) :
    stage.countsFailure = false := by
  cases stage with
  | saving => cases h
  | _ => rfl

variable {valid accepted fromTOTP : Bool}

/-- The record that a pending save leaves counts every wrong code. -/
theorem counted_of_pending (h : Pending s v) (hst : v.stage = .saving accepted fromTOTP) :
    Counted { s with record := v.copy, lockedSince := s.lockedSince || v.copy.locks } := by
  unfold Pending at h
  rw [hst] at h
  intro hlock
  obtain ⟨hsince, hlocks⟩ := Bool.or_eq_false_iff.mp hlock
  cases accepted with
  | false =>
    refine ⟨h.1 hsince, fun _ => lt_of_not_ge fun hmax => ?_⟩
    rw [Record.locks, h.2 hmax, decide_eq_true hmax] at hlocks
    cases hlocks
  | true =>
    have hzero : s.wrong = 0 := h
    exact ⟨hzero ▸ Nat.zero_le _, fun hpos => absurd hzero (Nat.ne_of_gt hpos)⟩

@[simp] theorem afterSave_not_saving (v : Verification) (accepted fromTOTP : Bool) :
    (State.afterSave v accepted fromTOTP).isSaving = false := by
  unfold State.afterSave
  split <;> rfl

section
variable (h : CountsOk s)
include h

theorem CountsOk.succeed : CountsOk s.succeed := by
  refine ⟨fun _ => Nat.zero_le _, fun w hw => ?_, fun _ _ => ⟨Nat.zero_le _, nofun⟩⟩
  have hw := h.2.1 w hw
  unfold Pending at hw ⊢
  split at hw
  · exact ⟨fun _ => Nat.zero_le _, hw.2⟩
  · rfl
  · trivial

variable (hv : s.verifications[n]? = some v)
include hv

theorem CountsOk.set (hold : v.stage.countsFailure = false) (hnew : Pending s v') : CountsOk
    (s.set n v') := by
  refine ⟨h.1, fun w hw => ?_, fun hnone => h.2.2 (forall_mem_of_set hv hold hnone)⟩
  obtain hw | rfl := List.mem_or_eq_of_mem_set hw
  · exact h.2.1 w hw
  · exact hnew

/-- A wrong code is one more than the stored record counts, if no other is pending. -/
theorem CountsOk.fail (hcopy : v.copy = s.record)
    (hnone : ∀ w ∈ s.verifications, w.stage.isSaving = false) (now : ℤ) (fromTOTP : Bool) :
    CountsOk (s.fail n v now fromTOTP) := by
  have hct : Counted s := h.2.2 fun w hw => countsFailure_of_not_saving (hnone w hw)
  refine ⟨fun hlock => ?_, fun w hw => ?_, fun hnew => ?_⟩
  · obtain ⟨hle, hlt⟩ := hct hlock
    change s.wrong + 1 ≤ maxFailAttempts
    rcases Nat.eq_zero_or_pos s.wrong with hzero | hpos
    · rw [hzero]
      decide
    · have := hlt hpos
      omega
  · obtain hw | rfl := List.mem_or_eq_of_mem_set hw
    · exact .of_not_saving (hnone w hw)
    refine ⟨fun hlock => ?_, fun hmax => ?_⟩
    · have hle := (hct hlock).1
      rw [← hcopy] at hle
      exact Nat.succ_le_succ hle
    · exact congrArg Option.isSome (if_pos hmax)
  · obtain ⟨hlt, -⟩ := List.getElem?_eq_some_iff.mp hv
    cases hnew _ (List.mem_set hlt _)

theorem CountsOk.evaluateTOTP {now : ℤ} (hst : v.stage = .totp)
    (hok : (evaluate n now valid).OneAtATime s) : CountsOk (s.evaluateTOTP n v now valid) := by
  have hold : v.stage.countsFailure = false := by rw [hst]; rfl
  unfold State.evaluateTOTP
  split
  · refine h.set hv hold (.of_not_saving ?_)
    split <;> rfl
  next hunlo =>
    split
    · exact h.succeed.set hv hold rfl
    · obtain ⟨hcopy, hnone⟩ := hok ⟨v, hv, by simpa using hunlo, .inl hst⟩
      exact h.fail hv (hcopy v hv) hnone now true

theorem CountsOk.evaluateBackup {now : ℤ} (hst : v.stage = .backup)
    (hok : (evaluate n now valid).OneAtATime s) : CountsOk (s.evaluateBackup checks n v now) := by
  have hold : v.stage.countsFailure = false := by rw [hst]; rfl
  unfold State.evaluateBackup
  split
  · exact h.set hv hold (.of_not_saving rfl)
  next heval =>
    split
    · exact h.set hv hold (.of_not_saving rfl)
    simp only [Bool.or_eq_true, Bool.not_eq_true', not_or, Bool.not_eq_true,
      Bool.not_eq_false] at heval
    obtain ⟨hcopy, hnone⟩ := hok ⟨v, hv, heval.1, .inr ⟨hst, heval.2⟩⟩
    exact h.fail hv (hcopy v hv) hnone now false

theorem CountsOk.mark {row : ℕ} (hst : v.stage = .marking row) (fails : Bool) : CountsOk
    (s.mark n v row fails) := by
  have hold : v.stage.countsFailure = false := by rw [hst]; rfl
  cases fails with
  | true => exact h.set hv hold (.of_not_saving rfl)
  | false => exact CountsOk.set (s := { s.succeed with codes := _, accepted := _ }) h.succeed hv hold rfl

theorem CountsOk.save {fails : Bool} (hst : v.stage = .saving accepted fromTOTP)
    (hok : (save n fails).OneAtATime s) : CountsOk (s.save n v accepted fromTOTP fails) := by
  have hnext := afterSave_not_saving v accepted fromTOTP
  cases fails with
  | true =>
    refine h.set hv ?_ (.of_not_saving hnext)
    rw [Bool.eq_false_iff]
    exact fun hcounts => nomatch hok v hv hcounts
  | false =>
    refine ⟨fun hlock => h.1 (Bool.or_eq_false_iff.mp hlock).1, fun w hw => ?_,
      fun _ => counted_of_pending (h.2.1 v (List.mem_of_getElem? hv)) hst⟩
    obtain hw | rfl := List.mem_or_eq_of_mem_set hw
    · have hpend := h.2.1 w hw
      unfold Pending at hpend ⊢
      split at hpend
      · exact ⟨fun hlock => hpend.1 (Bool.or_eq_false_iff.mp hlock).1, hpend.2⟩
      · exact hpend
      · trivial
    · exact .of_not_saving hnext

end

@[simp] theorem firstStage_not_saving (code : String) (triesBackup : Bool) :
    (firstStage code triesBackup).isSaving = false := by
  unfold firstStage
  repeat' split
  all_goals rfl

theorem CountsOk.step (c : Call) (s : State) (hok : c.OneAtATime s) (h : CountsOk s) :
    CountsOk (c.step checks s) := by
  have heff := step_effect checks c s
  generalize c.step checks s = s' at heff ⊢
  cases heff with
  | idle => exact h
  | load code triesBackup =>
    refine ⟨h.1, fun w hw => ?_, fun hnone => h.2.2 fun w hw =>
      hnone w (List.mem_append_left _ hw)⟩
    obtain hw | hw := List.mem_append.mp hw
    · exact h.2.1 w hw
    · rw [List.mem_singleton.mp hw]
      refine .of_not_saving ?_
      exact firstStage_not_saving code triesBackup
  | totp now valid hv hst => exact h.evaluateTOTP hv hst hok
  | backup now valid hv hst => exact h.evaluateBackup hv hst hok
  | mark fails hv hst => exact h.mark hv hst fails
  | save fails hv hst => exact h.save hv hst hok

theorem Call.OneAtATime.respectsLock (c : Call) (s : State) (h : c.OneAtATime s) :
    c.RespectsLock s := by
  cases c with
  | evaluate n now valid =>
    intro heval
    obtain ⟨v, hv, hunlo, -⟩ := id heval
    rw [← (h heval).1 v hv]
    exact hunlo
  | _ => trivial

end

theorem countsOk_start (record : Record) (codes : List BackupCode) :
    CountsOk (.start record codes) :=
  ⟨fun _ => Nat.zero_le _, nofun, fun _ _ => ⟨Nat.zero_le _, nofun⟩⟩

/-- If codes are evaluated one at a time and failures are saved, no more wrong codes than allowed
are evaluated between two successes before the record is locked, and none while it is. -/
theorem lockout_bounds_guessing (checks : String → String → Bool) (record : Record)
    (codes : List BackupCode) (calls : List Call)
    (h : Along (step checks) Call.OneAtATime calls (.start record codes)) :
    (∀ js, js <+: calls → (run (step checks) js (.start record codes)).Bounded) ∧
      Along (step checks) Call.RespectsLock calls (.start record codes) := by
  refine ⟨fun js hjs => ?_, h.imp Call.OneAtATime.respectsLock⟩
  have hst := countsOk_start record codes
  exact (run_invariant_along (I := CountsOk) CountsOk.step h hst js hjs).1

def attempt (n : ℕ) (code : String) (now : ℤ) : List Call :=
  [.load code true, .evaluate n now false, .save n false, .evaluate n now false]

/-- Five attempts one after the other, with a sixth that finds the record locked. -/
def sixInTurn : List Call := (List.range 6).flatMap fun n => attempt n "123456" n

theorem lockout_bounds_guessing_sample :
    Along (step fun _ _ => false) Call.OneAtATime sixInTurn (.start .reset []) ∧
      (run (step fun _ _ => false) sixInTurn (.start .reset [])).wrong = 5 ∧
      (∀ js, js <+: sixInTurn → (run (step fun _ _ => false) js (.start .reset [])).Bounded) ∧
      Along (step fun _ _ => false) Call.RespectsLock sixInTurn (.start .reset []) :=
  have hok : Along (step fun _ _ => false) Call.OneAtATime sixInTurn (.start .reset []) := by
    decide +kernel
  ⟨hok, by decide +kernel, lockout_bounds_guessing (fun _ _ => false) .reset [] sixInTurn hok⟩

def sixAtOnce : List Call :=
  List.replicate 6 (.load "123456" true) ++
    (List.range 6).flatMap fun n => [.evaluate n 10 false, .save n false]

/-- Five attempts lock the record, but a sixth that has read it before is still evaluated. -/
def lateAttempt : List Call :=
  .load "123456" true :: ((List.range 5).flatMap fun n => attempt (n + 1) "123456" 10)

/-- Six requests read the same record, and each writes one failure. -/
theorem guessing_unbounded : (run (step fun _ _ => false) sixAtOnce (.start .reset [])).wrong = 6 ∧
      (run (step fun _ _ => false) sixAtOnce (.start .reset [])).lockedSince = false ∧
      (run (step fun _ _ => false) sixAtOnce (.start .reset [])).record = ⟨1, none⟩ ∧
      (run (step fun _ _ => false) lateAttempt (.start .reset [])).record = ⟨5, some 310⟩ ∧
      (evaluate 0 11 false).Evaluates
        (run (step fun _ _ => false) lateAttempt (.start .reset [])) ∧
      (run (step fun _ _ => false) (lateAttempt ++ [.evaluate 0 11 false, .save 0 false])
        (.start .reset [])).record = ⟨1, none⟩ := by
  decide +kernel

end NewApi.TwoFactor
