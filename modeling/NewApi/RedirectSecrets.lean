import NewApi.OutboundFetch

/-!
# Secrets on redirects

Every request of a chain of redirects starts with the headers of the initial request. Before it
is sent, its headers that carry secrets are removed if it goes to another origin than the
request before it.
-/
namespace NewApi.Outbound

def effectiveHTTPPort (u : ParsedURL) : String :=
  if u.port ≠ "" then u.port
  else if equalFold u.scheme "https" then "443"
  else if equalFold u.scheme "http" then "80"
  else ""

/-- Scheme, host and port are the same. -/
def sameHTTPOrigin (left right : ParsedURL) : Bool :=
  equalFold left.scheme right.scheme &&
    equalFold (trimSuffix left.hostname ".") (trimSuffix right.hostname ".") &&
    decide (effectiveHTTPPort left = effectiveHTTPPort right)

structure OutRequest where
  url : ParsedURL
  header : List (String × String)
  deriving DecidableEq

def secretHeaders : List String :=
  ["Authorization", "Cookie", "Proxy-Authorization", "X-Api-Key", "X-Goog-Api-Key",
    "X-Webhook-Signature"]

def isSecret (name : String) : Bool := secretHeaders.any fun secret => equalFold name secret

def deleteHeader (header : List (String × String)) (name : String) : List (String × String) :=
  header.filter fun e => !equalFold e.1 name

/-- A redirect to another origin loses its secrets. -/
def stripRedirectSecrets (req : OutRequest) (via : List OutRequest) : OutRequest :=
  match via.getLast? with
  | none => req
  | some last =>
    if sameHTTPOrigin req.url last.url then req
    else { req with header := deleteHeader (secretHeaders.foldl deleteHeader req.header) "Referer" }

/-- The requests that are sent for the redirects, after those in `via`. -/
def follow (initial : OutRequest) : List OutRequest → List ParsedURL → List OutRequest
  | _, [] => []
  | via, url :: rest =>
    if 10 ≤ via.length then []
    else
      let req := stripRedirectSecrets ⟨url, initial.header⟩ via
      req :: follow initial (via ++ [req]) rest

/-- The request carries a secret of the initial one to another origin. -/
def Leaks (initial req : OutRequest) : Prop :=
  sameHTTPOrigin req.url initial.url = false ∧
    ∃ e ∈ req.header, isSecret e.1 = true ∧ e ∈ initial.header

/-- Outside the origin of the initial request, no request goes to the origin of the one before. -/
def MovesOn (initial : ParsedURL) : ParsedURL → List ParsedURL → Prop
  | _, [] => True
  | last, url :: rest =>
    (sameHTTPOrigin url initial = false → sameHTTPOrigin url last = false) ∧
      MovesOn initial url rest

variable {e : String × String} {header : List (String × String)}

theorem mem_deleteHeader {name : String} :
    e ∈ deleteHeader header name ↔ e ∈ header ∧ equalFold e.1 name = false := by
  simp [deleteHeader]

theorem mem_foldl_deleteHeader {names : List String} : e ∈ names.foldl deleteHeader header ↔
      e ∈ header ∧ (names.any fun name => equalFold e.1 name) = false := by
  induction names generalizing header with
  | nil => simp
  | cons name names ih =>
    rw [List.foldl_cons, ih, mem_deleteHeader, List.any_cons, Bool.or_eq_false_iff, and_assoc]

@[simp] theorem stripRedirectSecrets_url (req : OutRequest) (via : List OutRequest) :
    (stripRedirectSecrets req via).url = req.url := by
  unfold stripRedirectSecrets
  split
  · rfl
  · split <;> rfl

variable {initial last : OutRequest} {via : List OutRequest}

/-- A redirect leaks iff it leaves the origin of the initial request without leaving the origin
of the request before it. -/
theorem leaks_iff {url : ParsedURL}
    (hlast : via.getLast? = some last) (hsecret : ∃ e ∈ initial.header, isSecret e.1 = true) :
    Leaks initial (stripRedirectSecrets ⟨url, initial.header⟩ via) ↔
      sameHTTPOrigin url initial.url = false ∧ sameHTTPOrigin url last.url = true := by
  obtain ⟨e, he, hs⟩ := hsecret
  rw [Leaks, stripRedirectSecrets_url]
  refine and_congr_right fun _ => ?_
  simp only [stripRedirectSecrets, hlast]
  split
  next hsame => simpa [hsame] using ⟨e.1, e.2, he, hs, he⟩
  next hoth =>
    simp only [hoth, Bool.false_eq_true, iff_false]
    rintro ⟨e', he', hs', -⟩
    have hremo := (mem_foldl_deleteHeader.mp (mem_deleteHeader.mp he').1).2
    rw [isSecret, hremo] at hs'
    cases hs'

/-- Which chains of redirects carry no secret away. -/
theorem follow_leaks_iff
    (hsecret : ∃ e ∈ initial.header, isSecret e.1 = true) (urls : List ParsedURL)
    (hlast : via.getLast? = some last) :
    (∀ req ∈ follow initial via urls, ¬Leaks initial req) ↔
      MovesOn initial.url last.url (urls.take (10 - via.length)) := by
  induction urls generalizing via last with
  | nil => simp [follow, MovesOn]
  | cons url rest ih =>
    rw [follow]
    by_cases hten : 10 ≤ via.length
    · have hzero : 10 - via.length = 0 := by omega
      simp [hten, hzero, MovesOn]
    have hsucc : 10 - via.length = (10 - (via.length + 1)) + 1 := by omega
    have hreq : (via ++ [stripRedirectSecrets ⟨url, initial.header⟩ via]).getLast? =
        some (stripRedirectSecrets ⟨url, initial.header⟩ via) := List.getLast?_concat
    have hnext := ih hreq
    rw [stripRedirectSecrets_url, List.length_append, List.length_singleton] at hnext
    rw [if_neg hten, hsucc, List.take_succ_cons, MovesOn, List.forall_mem_cons, hnext,
      leaks_iff hlast hsecret]
    refine and_congr_left fun _ => ?_
    cases sameHTTPOrigin url last.url <;> simp

/-- No redirect takes a secret of the initial request to another origin iff there is none, or
no request outside the initial origin goes to the origin of the request before it. Only nine
redirects are followed. -/
theorem redirects_keep_secrets_iff (initial : OutRequest) (urls : List ParsedURL) :
    (∀ req ∈ follow initial [initial] urls, ¬Leaks initial req) ↔
      (∀ e ∈ initial.header, isSecret e.1 = false) ∨
        MovesOn initial.url initial.url (urls.take 9) := by
  by_cases hsecret : ∃ e ∈ initial.header, isSecret e.1 = true
  · rw [follow_leaks_iff hsecret urls rfl]
    obtain ⟨e, he, hs⟩ := hsecret
    have hnot : ¬∀ e ∈ initial.header, isSecret e.1 = false := fun hall => by
      rw [hall e he] at hs
      cases hs
    exact (or_iff_right hnot).symm
  · have hnone : ∀ e ∈ initial.header, isSecret e.1 = false := fun e he =>
      Bool.eq_false_iff.mpr fun hs => hsecret ⟨e, he, hs⟩
    refine iff_of_true ?_ (.inl hnone)
    rintro req - ⟨-, e, -, hs, he⟩
    exact hsecret ⟨e, he, hs⟩

def originA : ParsedURL := ⟨"https", "", "a.example", "a.example", ""⟩

def originB : ParsedURL := ⟨"https", "", "b.example", "b.example", ""⟩

/-- The second redirect stays at the other origin and gets the key back. -/
theorem second_redirect_leaks_key :
    follow ⟨originA, [("X-Api-Key", "secret")]⟩ [⟨originA, [("X-Api-Key", "secret")]⟩]
        [originB, originB] =
      [⟨originB, []⟩, ⟨originB, [("X-Api-Key", "secret")]⟩] ∧
    sameHTTPOrigin originB originA = false := by
  decide +kernel

end NewApi.Outbound
