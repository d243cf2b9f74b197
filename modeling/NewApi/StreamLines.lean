import NewApi.StreamScanner

/-!
# The lines of a stream

The scanner does not know a line that is `[DONE]` without `data:`. It drops five characters of it as
of the others, and passes on what is left.
-/
namespace NewApi.StreamScanner

def payloadOf (line : String) : String := trimSpace (String.ofList (line.toList.drop 5))

/-- The line is `[DONE]` without `data:`. -/
def isBare (line : String) : Bool := startsWith line "[DONE]"

def isTerminator (line : String) : Bool :=
  (startsWith line "data:" && startsWith (payloadOf line) "[DONE]") || isBare line

/-- The payloads of a stream: those of the `data:` lines before the first terminator that are not
empty. -/
def payloads (lines : List String) : List String :=
  ((lines.takeWhile fun line => !isTerminator line).filter fun line =>
    startsWith line "data:" && payloadOf line != "").map payloadOf

variable {line : String}

/-- A short line is at most `data:`, which has no payload. -/
theorem payloadOf_of_short (hdata : startsWith line "data:" = true)
    (hsh : line.utf8ByteSize < 6) : payloadOf line = "" := by
  obtain ⟨rest, hline⟩ := startsWith_iff.mp hdata
  have hemp : rest = "" := by
    apply String.utf8ByteSize_eq_zero_iff.mp
    rw [hline, String.utf8ByteSize_append] at hsh
    have hfive : ("data:" : String).utf8ByteSize = 5 := by decide +kernel
    omega
  rw [hline, hemp]
  decide +kernel

/-- What is left of a bare terminator starts with a bracket. -/
theorem payloadOf_bare (hbare : isBare line = true) :
    ∃ rest, (payloadOf line).toList = ']' :: rest := by
  obtain ⟨rest, rfl⟩ := startsWith_iff.mp hbare
  have hdrop : ("[DONE]" ++ rest).toList.drop 5 = ']' :: rest.toList := by simp
  rw [payloadOf, hdrop]
  exact trimSpace_cons (by decide) rest.toList

theorem readLine_eq (line : String) : readLine line =
      if line.utf8ByteSize < 6 then .skip
      else if ¬startsWith line "data:" ∧ ¬isBare line then .skip
      else if payloadOf line = "" then .skip
      else if startsWith (payloadOf line) "[DONE]" then .done
      else .payload (payloadOf line) := rfl

theorem readLine_bare (hbare : isBare line = true) : readLine line = .payload (payloadOf line) := by
  obtain ⟨left, hleft⟩ := payloadOf_bare hbare
  have hlong : ¬line.utf8ByteSize < 6 := by
    obtain ⟨rest, rfl⟩ := startsWith_iff.mp hbare
    rw [String.utf8ByteSize_append]
    have hsix : ("[DONE]" : String).utf8ByteSize = 6 := by decide +kernel
    omega
  have hne : payloadOf line ≠ "" := by
    intro h
    rw [h] at hleft
    contradiction
  have hdone : startsWith (payloadOf line) "[DONE]" = false := by
    simp [startsWith, hleft, List.isPrefixOf]
  rw [readLine_eq, if_neg hlong, if_neg fun h => h.2 hbare, if_neg hne, if_neg (by simp [hdone])]

theorem readLine_data (hdata : startsWith line "data:" = true) : readLine line =
      if payloadOf line = "" then .skip
      else if startsWith (payloadOf line) "[DONE]" then .done
      else .payload (payloadOf line) := by
  rw [readLine_eq]
  by_cases hsh : line.utf8ByteSize < 6
  · rw [if_pos hsh, if_pos (payloadOf_of_short hdata hsh)]
  · rw [if_neg hsh, if_neg fun h => h.1 hdata]

theorem readLine_other (hdata : startsWith line "data:" = false) (hbare : isBare line = false) :
    readLine line = .skip := by
  rw [readLine_eq]
  simp [hdata, hbare]

/-- The first terminator, if there is one, is a `data:` line. -/
def EndsWithData (lines : List String) : Prop :=
  ∀ line, lines.find? isTerminator = some line → isBare line = false

theorem scan_cons (line : String) (lines : List String) : scan (line :: lines) =
      match readLine line with
      | .skip => scan lines
      | .done => []
      | .payload data => data :: scan lines := rfl

theorem payloads_of_terminator (h : isTerminator line = true) (lines : List String) :
    payloads (line :: lines) = [] := by
  simp [payloads, h]

theorem payloads_cons (h : isTerminator line = false) (lines : List String) :
    payloads (line :: lines) =
      if startsWith line "data:" && payloadOf line != "" then payloadOf line :: payloads lines
      else payloads lines := by
  simp only [payloads, List.takeWhile_cons, h, Bool.not_false, if_true, List.filter_cons]
  split_ifs <;> rfl

theorem scan_of_not_terminator (h : isTerminator line = false) (lines : List String) :
    scan (line :: lines) =
      if startsWith line "data:" && payloadOf line != "" then payloadOf line :: scan lines
      else scan lines := by
  have hbare : isBare line = false := by
    rw [isTerminator, Bool.or_eq_false_iff] at h
    exact h.2
  cases hdata : startsWith line "data:" with
  | false => simp [scan_cons, readLine_other hdata hbare]
  | true =>
    have hdone : startsWith (payloadOf line) "[DONE]" = false := by
      simpa [isTerminator, hdata, hbare] using h
    rw [scan_cons, readLine_data hdata]
    by_cases hemp : payloadOf line = "" <;> simp [hemp, hdone]

theorem scan_eq_payloads_iff (lines : List String) :
    scan lines = payloads lines ↔ EndsWithData lines := by
  induction lines with
  | nil => simp [scan, payloads, EndsWithData]
  | cons line lines ih =>
    cases hterm : isTerminator line with
    | false =>
      have hends : EndsWithData (line :: lines) ↔ EndsWithData lines := by
        simp [EndsWithData, hterm]
      rw [scan_of_not_terminator hterm, payloads_cons hterm, hends, ← ih]
      split_ifs <;> simp
    | true =>
      have hends : EndsWithData (line :: lines) ↔ isBare line = false := by
        simp [EndsWithData, hterm]
      rw [payloads_of_terminator hterm, hends, scan_cons]
      cases hbare : isBare line with
      | true => simp [readLine_bare hbare]
      | false =>
        have hdata : startsWith line "data:" = true ∧
            startsWith (payloadOf line) "[DONE]" = true := by
          simpa [isTerminator, hbare] using hterm
        have hne : payloadOf line ≠ "" := by
          intro h
          rw [h] at hdata
          exact absurd hdata.2 (by decide)
        simp [readLine_data hdata.1, hne, hdata.2]

end NewApi.StreamScanner
