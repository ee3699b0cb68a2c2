import VkTurn.GoTextProofs

/-! # Redaction of captcha requests

    Under `-debug` the client logs the bodies of captcha requests, its own and those that a
    browser sends through its proxy.  `redactSessionToken` takes the values of sensitive
    keys out first, one `&`-separated segment after the other.

    A segment's text depends on its value only if its key is not sensitive
    (`redactPart_value`), and redaction keeps the segments apart (`segments_redact`).  So
    what reaches the LOG is the same for any two bodies that differ in sensitive values
    (`dump_noninterference`, `roundTrip_noninterference`), while the request itself goes
    out as it came. -/

namespace VkTurnRedaction

open GoText

/-! ## Redaction -/

/-- `&`. -/
def ampersand : UInt8 := 0x26

/-- `=`. -/
def equals : UInt8 := 0x3D

/-- The keys in `sensitive`. -/
def sensitive : List Bytes :=
  [ascii "access_token", ascii "answer", ascii "client_secret", ascii "credential", ascii "hash",
    ascii "password", ascii "session_token", ascii "success_token", ascii "token"]

/-- Is a key sensitive?  One that does not decode is looked up as it is. -/
def isSensitive (key : Bytes) : Bool :=
  let decodedKey := (queryUnescape key).getD key
  sensitive.contains (toLowerText decodedKey)

/-- The body of the loop: one part. -/
def redactPart (p : Bytes) : Bytes :=
  let (key, _, found) := cut equals p
  if isSensitive key && found then key ++ ascii "=***" else p

/-- `redactSessionToken`. -/
def redactSessionToken (body : Bytes) : Bytes :=
  [ampersand].intercalate ((body.splitOn ampersand).map redactPart)

/-! ## Logs -/

/-- `maxLen`. -/
def maxLen : Nat := 6000

/-- What is logged of a body. -/
def dump (body : Bytes) : Bytes :=
  let dump := redactSessionToken body
  if dump.length > maxLen then dump.take maxLen ++ ascii "...(truncated)" else dump

/-- `dumpCaptchaRequest`: the lines it logs. -/
def dumpCaptchaRequest (isDebug : Bool) (streamID : Int) (method body : Bytes) : List Bytes :=
  if !isDebug then []
  else
    [ascii "[STREAM " ++ itoa streamID ++ ascii "] [Captcha] " ++ method ++
      ascii " request body: " ++ dump body]

/-- A body that can be read, or whose reading fails. -/
inductive Body where
  | content (bytes : Bytes)
  | failing
  deriving DecidableEq, Repr

/-- What a round trip reads and writes of an `http.Request`. -/
structure Request where
  path : Bytes
  body : Option Body
  contentLength : Int
  deriving DecidableEq, Repr

/-- `captchaProxyLogger.RoundTrip`: the lines it logs, and the request it hands to the
    transport. -/
def roundTrip (isDebug : Bool) (req : Request) : List Bytes × Request :=
  match req.body with
  | none => ([], req)
  | some body =>
      if isDebug && decide (ascii "captchaNotRobot" <:+: req.path) then
        match body with
        | .failing => ([], req)
        | .content bytes =>
            ([ascii "[Captcha Proxy] real browser " ++ req.path ++ ascii " body: " ++ dump bytes],
              { req with body := some (.content bytes), contentLength := bytes.length })
      else ([], req)

/-! ## One segment -/

/-- The key of a segment. -/
def keyOf (p : Bytes) : Bytes := (cut equals p).1

theorem isSensitive_iff (key : Bytes) :
    isSensitive key = true ↔ toLowerText ((queryUnescape key).getD key) ∈ sensitive :=
  List.contains_iff_mem

/-- A value of a sensitive key is not looked at. -/
theorem redactPart_value {key : Bytes} (hkey : equals ∉ key) (hs : isSensitive key = true)
    (value : Bytes) : redactPart (key ++ equals :: value) = key ++ ascii "=***" := by
  rw [redactPart, cut_append hkey]
  simp only [hs, Bool.and_self, if_true]

/-- What is not sensitive stays. -/
theorem redactPart_self {p : Bytes} (h : isSensitive (keyOf p) = false ∨ equals ∉ p) :
    redactPart p = p := by
  rw [redactPart]
  rcases h with h | h
  · rw [keyOf] at h
    simp only [h, Bool.false_and, Bool.false_eq_true, if_false]
  · rw [cut_not_mem h]
    simp only [Bool.and_false, Bool.false_eq_true, if_false]

/-- A segment stays, or loses its value. -/
theorem redactPart_cases (p : Bytes) :
    redactPart p = p ∨ ∃ key value, equals ∉ key ∧ isSensitive key = true ∧
      p = key ++ equals :: value ∧ redactPart p = key ++ ascii "=***" := by
  rcases cut_cases equals p with hnone | ⟨key, value, hkey, rfl⟩
  · exact Or.inl (redactPart_self (Or.inr hnone))
  · cases hs : isSensitive key with
    | true => exact Or.inr ⟨key, value, hkey, hs, rfl, redactPart_value hkey hs value⟩
    | false =>
        refine Or.inl (redactPart_self (Or.inl ?_))
        rw [keyOf, cut_append hkey]
        exact hs

theorem redactPart_redactPart (p : Bytes) : redactPart (redactPart p) = redactPart p := by
  rcases redactPart_cases p with hsame | ⟨key, value, hkey, hs, -, hred⟩
  · rw [hsame, hsame]
  · rw [hred]
    exact redactPart_value hkey hs (ascii "***")

/-- Redaction puts no separator into a segment. -/
theorem redactPart_no_ampersand {p : Bytes} (h : ampersand ∉ p) : ampersand ∉ redactPart p := by
  rcases redactPart_cases p with hsame | ⟨key, value, hkey, hs, rfl, hred⟩
  · rw [hsame]
    exact h
  · rw [hred]
    intro hmem
    rcases List.mem_append.mp hmem with hmem | hmem
    · exact h (List.mem_append_left _ hmem)
    · exact absurd hmem (by decide)

/-! ## Whole bodies -/

/-- The segments of a body. -/
def segments (body : Bytes) : List Bytes := body.splitOn ampersand

theorem segments_ne_nil (body : Bytes) : segments body ≠ [] := List.splitOnP_ne_nil _ _

theorem segments_no_ampersand (body : Bytes) : ∀ p ∈ segments body, ampersand ∉ p :=
  fun _ hp => not_mem_of_mem_splitOn hp

/-- Segments joined are the segments again. -/
theorem segments_intercalate {ps : List Bytes} (hne : ps ≠ [])
    (hfree : ∀ p ∈ ps, ampersand ∉ p) : segments ([ampersand].intercalate ps) = ps :=
  List.splitOn_intercalate ampersand hfree hne

/-- **SEGMENT BY SEGMENT**: redaction redacts each segment and keeps them apart. -/
theorem segments_redact (body : Bytes) :
    segments (redactSessionToken body) = (segments body).map redactPart := by
  refine segments_intercalate ?_ ?_
  · rw [Ne, List.map_eq_nil_iff]
    exact segments_ne_nil body
  · intro p hp
    obtain ⟨q, hq, rfl⟩ := List.mem_map.mp hp
    exact redactPart_no_ampersand (segments_no_ampersand body q hq)

/-- Two segments that are the same, or have the same key, which percent-decoded and in
    lower case is one of the sensitive ones. -/
inductive SameButValue : Bytes → Bytes → Prop where
  | same (p : Bytes) : SameButValue p p
  | value {key : Bytes} (v w : Bytes) : equals ∉ key →
      toLowerText ((queryUnescape key).getD key) ∈ sensitive →
      SameButValue (key ++ equals :: v) (key ++ equals :: w)

theorem SameButValue.redactPart {p q : Bytes} (h : SameButValue p q) :
    redactPart p = redactPart q := by
  cases h with
  | same p => rfl
  | value v w hkey hmem =>
      have hs := (isSensitive_iff _).mpr hmem
      rw [redactPart_value hkey hs, redactPart_value hkey hs]

/-- Two bodies whose segments are the same but for sensitive values. -/
def SameButValues (body body' : Bytes) : Prop :=
  ∃ ps qs, (∀ p ∈ ps, ampersand ∉ p) ∧ (∀ q ∈ qs, ampersand ∉ q) ∧
    List.Forall₂ SameButValue ps qs ∧
    body = [ampersand].intercalate ps ∧ body' = [ampersand].intercalate qs

theorem redact_noninterference {body body' : Bytes} (h : SameButValues body body') :
    redactSessionToken body = redactSessionToken body' := by
  obtain ⟨ps, qs, hps, hqs, hsame, rfl, rfl⟩ := h
  cases hsame with
  | nil => rfl
  | @cons p q ps qs hpq hsame =>
      have hparts : (p :: ps).map redactPart = (q :: qs).map redactPart := by
        have hall : List.Forall₂ (fun p q => redactPart p = redactPart q) (p :: ps) (q :: qs) :=
          (List.Forall₂.cons hpq hsame).imp fun _ _ h => h.redactPart
        rw [← List.forall₂_eq_eq_eq, List.forall₂_map_left_iff, List.forall₂_map_right_iff]
        exact hall
      show [ampersand].intercalate ((segments _).map redactPart)
        = [ampersand].intercalate ((segments _).map redactPart)
      rw [segments_intercalate (List.cons_ne_nil p ps) hps,
        segments_intercalate (List.cons_ne_nil q qs) hqs, hparts]

theorem redact_redact (body : Bytes) :
    redactSessionToken (redactSessionToken body) = redactSessionToken body := by
  show [ampersand].intercalate ((segments (redactSessionToken body)).map redactPart)
    = [ampersand].intercalate ((segments body).map redactPart)
  rw [segments_redact, List.map_map]
  refine congrArg _ (List.map_congr_left fun p _ => ?_)
  exact redactPart_redactPart p

/-- **LOG REDACTION.**  Two bodies with the same segments but for the values of sensitive
    keys are redacted to the same text.  For every body, redaction keeps the number of
    segments and every segment whose key is not sensitive or that has no `=`; and
    redacting once more changes nothing. -/
theorem redaction_noninterference :
    (∀ body body', SameButValues body body' →
      redactSessionToken body = redactSessionToken body') ∧
    ∀ body, (segments (redactSessionToken body)).length = (segments body).length ∧
      (∀ (i : Nat) p, (segments body)[i]? = some p →
        toLowerText ((queryUnescape (keyOf p)).getD (keyOf p)) ∉ sensitive ∨ equals ∉ p →
        (segments (redactSessionToken body))[i]? = some p) ∧
      redactSessionToken (redactSessionToken body) = redactSessionToken body := by
  refine ⟨fun _ _ h => redact_noninterference h, fun body => ⟨?_, ?_, redact_redact body⟩⟩
  · rw [segments_redact, List.length_map]
  · intro i p hp hplain
    have hstays : isSensitive (keyOf p) = false ∨ equals ∉ p :=
      hplain.imp_left fun hout => Bool.eq_false_iff.mpr fun hs => hout ((isSensitive_iff _).mp hs)
    rw [segments_redact, List.getElem?_map, hp, Option.map_some, redactPart_self hstays]

-- an escaped KELVIN SIGN is a `k` in lower case
example : redactSessionToken (ascii "device=1&To%E2%84%AAen=x=y&token")
    = ascii "device=1&To%E2%84%AAen=***&token" := by decide +kernel

/-! ## What is logged -/

theorem dump_noninterference {body body' : Bytes} (h : SameButValues body body') :
    dump body = dump body' := by
  rw [dump, dump, redact_noninterference h]

/-- The client's own requests. -/
theorem dumpCaptchaRequest_noninterference {body body' : Bytes} (h : SameButValues body body')
    (isDebug : Bool) (streamID : Int) (method : Bytes) :
    dumpCaptchaRequest isDebug streamID method body
      = dumpCaptchaRequest isDebug streamID method body' := by
  rw [dumpCaptchaRequest, dumpCaptchaRequest, dump_noninterference h]

/-- **THE PROXY**: what it logs does not depend on sensitive values, and it hands on the
    body that it was given, with its length. -/
theorem roundTrip_noninterference (isDebug : Bool) {req : Request} {body body' : Bytes}
    (hreq : req.body = some (.content body)) (h : SameButValues body body') :
    (roundTrip isDebug req).1 = (roundTrip isDebug { req with body := some (.content body') }).1 ∧
      (roundTrip isDebug req).2.body = req.body := by
  unfold roundTrip
  rw [hreq]
  simp only
  split
  · exact ⟨by rw [dump_noninterference h], rfl⟩
  · exact ⟨rfl, hreq⟩

end VkTurnRedaction
