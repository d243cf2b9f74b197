import Mathlib.Algebra.Order.Field.Rat
import Mathlib.Tactic.FieldSimp
import Mathlib.Tactic.Linarith
import NewApi.Runs

/-!
# The token bucket in Redis

The script `rate_limit` runs as one step at the time of the server, which counts seconds and does
not go back. It reads the bucket of a key, fills it up for the time since the last call, and takes
the requested tokens if they are there. It sets no expiry; the one that its last lines leave out
would wait until the bucket is full again.
-/
namespace NewApi.TokenBucket

structure Config where
  (capacity rate requested : ℤ)

/-- The options of `redisRateLimitHandler`, which replace every default of `Allow`. -/
def redisRateLimit (totalMaxCount duration : ℤ) : Config :=
  ⟨totalMaxCount * duration, totalMaxCount, duration⟩

/-- Lua's numbers are doubles. Integers up to `2 ^ 53` are exact, and the result of an operation
on greater ones is rounded, which keeps the order. -/
structure Doubles where
  round : ℤ → ℤ
  exact : ∀ n, |n| ≤ 2 ^ 53 → round n = n
  mono : Monotone round

/-- What is kept under a key. -/
structure Bucket where
  (tokens lastTime : ℤ)

structure Server where
  now : ℤ
  bucket : Option Bucket

/-- The tokens that the script finds, after it has filled the bucket up. -/
def Server.tokens (lua : Doubles) (cfg : Config) (s : Server) : ℤ :=
  match s.bucket with
  | none => cfg.capacity
  | some b =>
    min cfg.capacity (lua.round (b.tokens + lua.round ((s.now - b.lastTime) * cfg.rate)))

def rateLimit (lua : Doubles) (cfg : Config) (s : Server) : Bool × Bucket :=
  let tokens := s.tokens lua cfg
  if cfg.requested ≤ tokens then (true, ⟨lua.round (tokens - cfg.requested), s.now⟩)
  else (false, ⟨tokens, s.now⟩)

/-- The time in which an empty bucket is filled has passed since the last call. -/
def Server.expires (cfg : Config) (s : Server) : Bool :=
  s.bucket.any fun b => decide (cfg.capacity ≤ (s.now - b.lastTime) * cfg.rate)

inductive Event where
  | tick (seconds : ℕ)
  | call
  | expire

def step (lua : Doubles) (cfg : Config) : Event → Server → Server
  | .tick seconds, s => { s with now := s.now + seconds }
  | .call, s => { s with bucket := some (rateLimit lua cfg s).2 }
  | .expire, s => if s.expires cfg then { s with bucket := none } else s

/-- The number of requests that the event lets pass. -/
def passed (lua : Doubles) (cfg : Config) : Event → Server → ℤ
  | .call, s => if (rateLimit lua cfg s).1 then 1 else 0
  | _, _ => 0

def elapsed : Event → Server → ℤ
  | .tick seconds, _ => seconds
  | _, _ => 0

/-- The amounts are positive, and exact as doubles. -/
structure Config.Exact (cfg : Config) : Prop where
  capacity : 0 < cfg.capacity ∧ cfg.capacity ≤ 2 ^ 53
  rate : 0 < cfg.rate ∧ cfg.rate ≤ 2 ^ 53
  requested : 0 < cfg.requested ∧ cfg.requested ≤ 2 ^ 53

/-- The tokens are in their range, and the last call is not in the future. -/
def InRange (cfg : Config) (s : Server) : Prop :=
  ∀ b ∈ s.bucket, (0 ≤ b.tokens ∧ b.tokens ≤ cfg.capacity) ∧ b.lastTime ≤ s.now

/-- The tokens without any rounding. -/
def Server.exactTokens (cfg : Config) (s : Server) : ℤ :=
  match s.bucket with
  | none => cfg.capacity
  | some b => min cfg.capacity (b.tokens + (s.now - b.lastTime) * cfg.rate)

section
variable {lua : Doubles} {cfg : Config} {s : Server}

theorem Doubles.round_add_round (lua : Doubles) {capacity tokens added : ℤ}
    (hcap : capacity ≤ 2 ^ 53) (htokens : 0 ≤ tokens) (hadded : 0 ≤ added) :
    min capacity (lua.round (tokens + lua.round added)) = min capacity (tokens + added) := by
  by_cases hsmall : tokens + added ≤ 2 ^ 53
  · rw [lua.exact added (by rw [abs_of_nonneg hadded]; omega),
      lua.exact _ (by rw [abs_of_nonneg (by omega)]; omega)]
  -- what is rounded is above the capacity, before and after
  · have hedge : ∀ n, 2 ^ 53 ≤ n → 2 ^ 53 ≤ lua.round n := fun n hn =>
      (lua.exact (2 ^ 53) (by decide)).symm.le.trans (lua.mono hn)
    have hsum : 2 ^ 53 ≤ tokens + lua.round added := by
      by_cases hadd : added ≤ 2 ^ 53
      · rw [lua.exact added (by rwa [abs_of_nonneg hadded])]
        omega
      · have hround := hedge added (by omega)
        omega
    rw [min_eq_left (hcap.trans (hedge _ hsum)), min_eq_left (by omega)]

theorem InRange.fill_nonneg (h : InRange cfg s) (hcfg : cfg.Exact) {b : Bucket}
    (hb : s.bucket = some b) : 0 ≤ (s.now - b.lastTime) * cfg.rate :=
  mul_nonneg (sub_nonneg.mpr (h b hb).2) hcfg.rate.1.le

theorem InRange.tokens_eq (h : InRange cfg s) (hcfg : cfg.Exact) :
    s.tokens lua cfg = s.exactTokens cfg := by
  unfold Server.tokens Server.exactTokens
  cases hs : s.bucket with
  | none => rfl
  | some b => exact lua.round_add_round hcfg.capacity.2 (h b hs).1.1 (h.fill_nonneg hcfg hs)

theorem exactTokens_le (cfg : Config) (s : Server) : s.exactTokens cfg ≤ cfg.capacity := by
  unfold Server.exactTokens
  cases s.bucket with
  | none => exact le_rfl
  | some b => exact min_le_left _ _

theorem InRange.exactTokens_nonneg (h : InRange cfg s) (hcfg : cfg.Exact) :
    0 ≤ s.exactTokens cfg := by
  unfold Server.exactTokens
  cases hs : s.bucket with
  | none => exact hcfg.capacity.1.le
  | some b =>
    exact le_min hcfg.capacity.1.le (add_nonneg (h b hs).1.1 (h.fill_nonneg hcfg hs))

/-- On exact amounts the script computes without rounding. -/
theorem InRange.rateLimit_eq (h : InRange cfg s) (hcfg : cfg.Exact) : rateLimit lua cfg s =
    if cfg.requested ≤ s.exactTokens cfg then
      (true, ⟨s.exactTokens cfg - cfg.requested, s.now⟩)
    else (false, ⟨s.exactTokens cfg, s.now⟩) := by
  have hle := exactTokens_le cfg s
  have hcap := hcfg.capacity.2
  have hreq := hcfg.requested.1
  simp only [rateLimit, h.tokens_eq hcfg]
  split_ifs with henough
  · rw [lua.exact _ (by rw [abs_of_nonneg (by omega)]; omega)]
  · rfl

theorem InRange.step (h : InRange cfg s) (hcfg : cfg.Exact) (e : Event) :
    InRange cfg (step lua cfg e s) := by
  cases e with
  | tick seconds =>
    intro b hb
    obtain ⟨hrange, hlast⟩ := h b hb
    exact ⟨hrange, hlast.trans (le_add_of_nonneg_right seconds.cast_nonneg)⟩
  | call =>
    have hpos := h.exactTokens_nonneg hcfg
    have hle := exactTokens_le cfg s
    have hreq := hcfg.requested.1
    rintro b ⟨⟩
    rw [h.rateLimit_eq hcfg]
    split_ifs with henough
    · exact ⟨⟨sub_nonneg.mpr henough, by dsimp only; omega⟩, le_rfl⟩
    · exact ⟨⟨hpos, hle⟩, le_rfl⟩
  | expire =>
    unfold TokenBucket.step
    dsimp only
    split_ifs
    · exact fun _ hb => absurd hb (Option.not_mem_none _)
    · exact h

/-- A bucket that expires is full again. -/
theorem InRange.full_of_expires (h : InRange cfg s) (hexp : s.expires cfg = true) :
    s.exactTokens cfg = cfg.capacity := by
  unfold Server.expires at hexp
  unfold Server.exactTokens
  cases hs : s.bucket with
  | none => rfl
  | some b =>
    rw [hs, Option.any_some, decide_eq_true_eq] at hexp
    have htokens := (h b hs).1.1
    exact min_eq_left (by omega)

/-- What an event grants is taken from the tokens, which only time adds to. -/
theorem tokens_step (lua : Doubles) (h : InRange cfg s) (hcfg : cfg.Exact) (e : Event) :
    passed lua cfg e s * cfg.requested + (step lua cfg e s).exactTokens cfg ≤
      s.exactTokens cfg + cfg.rate * elapsed e s := by
  cases e with
  | tick seconds =>
    have hfill : 0 ≤ cfg.rate * seconds := mul_nonneg hcfg.rate.1.le seconds.cast_nonneg
    simp only [passed, elapsed, step, Server.exactTokens, zero_mul, zero_add]
    cases s.bucket with
    | none => exact le_add_of_nonneg_right hfill
    | some b =>
      rw [← min_add_add_right]
      exact min_le_min (le_add_of_nonneg_right hfill) (by linarith)
  | call =>
    have htk (tokens : ℤ) : (Server.mk s.now (some ⟨tokens, s.now⟩)).exactTokens cfg ≤ tokens := by
      simp [Server.exactTokens]
    simp only [passed, elapsed, step, h.rateLimit_eq hcfg]
    by_cases henough : cfg.requested ≤ s.exactTokens cfg
    · have hleft := htk (s.exactTokens cfg - cfg.requested)
      simp only [if_pos henough, if_true]
      linarith
    · simpa [henough] using htk (s.exactTokens cfg)
  | expire =>
    simp only [passed, elapsed, step, zero_mul, zero_add, mul_zero, add_zero]
    split_ifs with hexp
    · rw [h.full_of_expires hexp]
      rfl
    · exact le_rfl

theorem granted_le (lua : Doubles) (h : InRange cfg s) (hcfg : cfg.Exact) (events : List Event) :
    total (step lua cfg) (passed lua cfg) events s * cfg.requested +
        (run (step lua cfg) events s).exactTokens cfg ≤
      s.exactTokens cfg + cfg.rate * total (step lua cfg) elapsed events s := by
  induction events generalizing s with
  | nil => simp [total]
  | cons e events ih =>
    have hhead := tokens_step lua h hcfg e
    have hnext : InRange cfg (step lua cfg e s) := h.step hcfg e
    have htail := ih hnext
    rw [run_cons, total, total, add_mul, mul_add]
    linarith

end

/-- The tokens stay in their range, and every part of every run grants at most a full bucket and
the tokens of its time, which for the model limiter means the stated number of requests. -/
theorem bucket_bound (lua : Doubles) (cfg : Config) (hcfg : cfg.Exact) (start : ℤ)
    (before events : List Event) :
    let s := run (step lua cfg) before ⟨start, none⟩
    (∀ b ∈ (run (step lua cfg) events s).bucket, 0 ≤ b.tokens ∧ b.tokens ≤ cfg.capacity) ∧
      total (step lua cfg) (passed lua cfg) events s * cfg.requested ≤
        cfg.capacity + cfg.rate * total (step lua cfg) elapsed events s ∧
      ∀ limit duration : ℤ, cfg = redisRateLimit limit duration →
        (total (step lua cfg) (passed lua cfg) events s : ℚ) ≤
          limit * (1 + total (step lua cfg) elapsed events s / duration) := by
  intro s
  have hst : InRange cfg s := run_invariant_always (fun e _ h => h.step hcfg e) before
    fun _ hb => absurd hb (Option.not_mem_none _)
  have hkept : InRange cfg (run (step lua cfg) events s) :=
    run_invariant_always (fun e _ h => h.step hcfg e) events hst
  have hgra : total (step lua cfg) (passed lua cfg) events s * cfg.requested ≤
      cfg.capacity + cfg.rate * total (step lua cfg) elapsed events s := by
    have hle := granted_le lua hst hcfg events
    have hleft := hkept.exactTokens_nonneg hcfg
    have hfull := exactTokens_le cfg s
    linarith
  refine ⟨fun b hb => (hkept b hb).1, hgra, ?_⟩
  rintro limit duration rfl
  have hpos : (0 : ℚ) < duration := by exact_mod_cast hcfg.requested.1
  refine le_of_mul_le_mul_right ?_ hpos
  rw [mul_assoc, add_mul, div_mul_cancel₀ _ hpos.ne', one_mul, mul_add]
  exact_mod_cast hgra

/-- Numbers that are never rounded. -/
def Doubles.wide : Doubles := ⟨id, fun _ _ => rfl, monotone_id⟩

theorem bucket_bound_model :
    let cfg := redisRateLimit 2 60
    (total (step .wide cfg) (passed .wide cfg) [.call, .call, .call, .tick 30, .call] ⟨0, none⟩ : ℚ) ≤
      (2 : ℤ) * (1 + (30 : ℤ) / (60 : ℤ)) :=
  (bucket_bound .wide (redisRateLimit 2 60) ⟨by decide, by decide, by decide⟩ 0 []
    [.call, .call, .call, .tick 30, .call]).2.2 2 60 rfl

end NewApi.TokenBucket
