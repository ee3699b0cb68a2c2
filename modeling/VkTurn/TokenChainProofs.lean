import VkTurn.GoMapProofs
import VkTurn.GoTextProofs

/-! # The token chain of VK

    TURN credentials are the end of a chain of API requests: an anonymous token, a
    preview of the call, the token of the call, a login and the join.  The third of
    them may be answered with a captcha, which is then solved in one mode after the
    other: `attempt` counts the requests for the call's token, and each attempt has one
    mode.  When no mode is left the whole client is locked out for a minute.

    The chain is written as what it sends at a `Place` and what it makes of an answer
    (`advance`), so that it can be run under any interleaving and against any answers.
    Whatever the API and the solvers answer, the next place FOLLOWS (`advance_follows`):
    what was sent and what the next place may cost is within what the place before it may. -/

namespace VkTurnTokenChain

open GoMap GoText

/-! ## JSON values

    `json.Unmarshal` into a `map[string]interface{}` gives a tree of maps, slices, strings,
    numbers, booleans and nil, and the code reads it by type assertions: a missing key and a
    value of another type are the same failure.  What a number is is left open; Go's is a
    `float64`. -/

/-- An `interface{}` that came out of a JSON text, with numbers `ν`. -/
inductive Json (ν : Type) where
  | null
  | bool (b : Bool)
  | number (x : ν)
  | string (s : Bytes)
  | array (items : List (Json ν))
  | object (fields : List (Bytes × Json ν))

/-- `map[string]interface{}`. -/
abbrev Object (ν : Type) := Map Bytes (Json ν)

variable {ν : Type}

/-- `v.(string)`. -/
def Json.string? : Json ν → Option Bytes
  | .string s => some s
  | _ => none

/-- `v.(float64)`. -/
def Json.number? : Json ν → Option ν
  | .number x => some x
  | _ => none

/-- `v.(bool)`. -/
def Json.bool? : Json ν → Option Bool
  | .bool b => some b
  | _ => none

/-- `v.([]interface{})`. -/
def Json.array? : Json ν → Option (List (Json ν))
  | .array items => some items
  | _ => none

/-- `v.(map[string]interface{})`. -/
def Json.object? : Json ν → Option (Object ν)
  | .object fields => some fields
  | _ => none

/-- `m[key].(string)`. -/
def stringAt (m : Object ν) (key : String) : Option Bytes := (get m (ascii key)).bind Json.string?

/-- `m[key].(float64)`. -/
def numberAt (m : Object ν) (key : String) : Option ν := (get m (ascii key)).bind Json.number?

/-- `m[key].(bool)`. -/
def boolAt (m : Object ν) (key : String) : Option Bool := (get m (ascii key)).bind Json.bool?

/-- `m[key].([]interface{})`. -/
def arrayAt (m : Object ν) (key : String) : Option (List (Json ν)) :=
  (get m (ascii key)).bind Json.array?

/-- `m[key].(map[string]interface{})`. -/
def objectAt (m : Object ν) (key : String) : Option (Object ν) :=
  (get m (ascii key)).bind Json.object?

/-- The keys, after `sort.Strings`. -/
def sortedKeys (m : Object ν) : List Bytes := (m.map Prod.fst).mergeSort fun a b => a ≤ b

/-! ## Solve modes -/

/-- `captchaSolveMode`. -/
inductive CaptchaSolveMode where
  | auto
  | sliderPOC
  | manual
  deriving DecidableEq, Repr

/-- `captchaSolveModeForAttempt`, `none` where its second result is false. -/
def captchaSolveModeForAttempt (attempt : Nat) (manualOnly enableSliderPOC : Bool) :
    Option CaptchaSolveMode :=
  if manualOnly then
    if attempt = 0 then some .manual else none
  else
    match attempt with
    | 0 => some .auto
    | 1 => if enableSliderPOC then some .sliderPOC else some .manual
    | 2 => if enableSliderPOC then some .manual else none
    | _ => none

/-! ## Settings and captchas -/

/-- `VKCredentials`. -/
structure VKCredentials where
  clientID : Bytes
  clientSecret : Bytes
  deriving DecidableEq, Repr

/-- `vkCredentialsList`. -/
def vkCredentialsList : List VKCredentials :=
  [⟨ascii "6287487", ascii "QbYic1K3lEV5kTGiqlq2"⟩,
   ⟨ascii "7879029", ascii "aR5NKGmm03GYrCiNKsaw"⟩,
   ⟨ascii "52461373", ascii "o557NLIkAErNhakXrQ7A"⟩,
   ⟨ascii "52649896", ascii "WStp4ihWG4l3nmXZgIbC"⟩,
   ⟨ascii "51781872", ascii "IjjCNl4L4Tf5QZEXIHKK"⟩]

/-- The settings of a process, and what the standard library makes of values: `int(x)` and
    `%.0f` of a number, `%v` of a map, and the `session_token` in the query of a
    `redirect_uri`, `none` where the URL does not parse. -/
structure Config (ν : Type) where
  manualCaptcha : Bool
  autoCaptchaSliderPOC : Bool
  credentials : List VKCredentials
  toInt : ν → Int
  format : ν → Bytes
  display : Object ν → Bytes
  sessionToken : Bytes → Option Bytes

/-- The modes of a process, in the order of the attempts. -/
def Config.modes (cfg : Config ν) : List CaptchaSolveMode :=
  if cfg.manualCaptcha then [.manual]
  else if cfg.autoCaptchaSliderPOC then [.auto, .sliderPOC, .manual]
  else [.auto, .manual]

/-- The modes in the order of the attempts. -/
theorem captchaSolveModeForAttempt_eq (cfg : Config ν) (attempt : Nat) :
    captchaSolveModeForAttempt attempt cfg.manualCaptcha cfg.autoCaptchaSliderPOC
      = cfg.modes[attempt]? := by
  rw [Config.modes]
  cases cfg.manualCaptcha <;> cases cfg.autoCaptchaSliderPOC <;>
    rcases attempt with _ | _ | _ | attempt <;> rfl

/-- `VkCaptchaError`. -/
structure VkCaptchaError where
  errorCode : Int
  errorMsg : Bytes
  captchaSid : Bytes
  captchaImg : Bytes
  redirectURI : Bytes
  isSoundCaptchaAvailable : Bool
  sessionToken : Bytes
  captchaTs : Bytes
  captchaAttempt : Bytes
  deriving DecidableEq, Repr

/-- A field that is a number or a text, the number first. -/
def Config.numberOrText (cfg : Config ν) (m : Object ν) (key : String) : Bytes :=
  match numberAt m key with
  | some x => cfg.format x
  | none => (stringAt m key).getD []

/-- A field that is a text or a number, the text first. -/
def Config.textOrNumber (cfg : Config ν) (m : Object ν) (key : String) : Bytes :=
  match stringAt m key with
  | some s => s
  | none => ((numberAt m key).map cfg.format).getD []

/-- `ParseVkCaptchaError`. -/
def parseVkCaptchaError (cfg : Config ν) (errData : Object ν) : Option VkCaptchaError :=
  match numberAt errData "error_code" with
  | none => none
  | some code =>
      let redirectURI := (stringAt errData "redirect_uri").getD []
      let captchaSid := cfg.textOrNumber errData "captcha_sid"
      let captchaImg := (stringAt errData "captcha_img").getD []
      let errorMsg := (stringAt errData "error_msg").getD []
      match (if redirectURI = [] then some [] else cfg.sessionToken redirectURI) with
      | none => none
      | some sessionToken =>
          if redirectURI = [] ∧ captchaImg ≠ [] ∧ captchaSid = [] then none
          else
            some { errorCode := cfg.toInt code
                   errorMsg := errorMsg
                   captchaSid := captchaSid
                   captchaImg := captchaImg
                   redirectURI := redirectURI
                   isSoundCaptchaAvailable :=
                     (boolAt errData "is_sound_captcha_available").getD false
                   sessionToken := sessionToken
                   captchaTs := cfg.numberOrText errData "captcha_ts"
                   captchaAttempt := cfg.numberOrText errData "captcha_attempt" }

/-- `IsCaptchaError`. -/
def VkCaptchaError.isCaptchaError (e : VkCaptchaError) : Bool :=
  e.errorCode = 14 && ((e.redirectURI ≠ [] && e.sessionToken ≠ []) || e.captchaImg ≠ [])

/-- `responseShapeError`. -/
def responseShapeError (message : String) (response : Object ν) : Bytes :=
  ascii message ++ ascii " (response fields: " ++ (ascii ", ").intercalate (sortedKeys response)
    ++ ascii ")"

/-! ## Places -/

/-- What a chain has from its start: the invite, the application, the name it has made up,
    escaped, and the device it will log in as. -/
structure Chain where
  link : Bytes
  creds : VKCredentials
  escapedName : Bytes
  deviceID : Bytes
  deriving DecidableEq, Repr

/-- Where a chain needs an answer: of the API, or of a solver. -/
inductive Place where
  | anonymToken
  | callPreview (token1 : Bytes)
  | anonymousToken (token1 : Bytes) (attempt : Nat) (data : Bytes)
  | solving (token1 : Bytes) (attempt : Nat) (data : Bytes) (captcha : VkCaptchaError)
      (mode : CaptchaSolveMode)
  | anonymLogin (token2 : Bytes)
  | joinConversation (token2 token3 : Bytes)
  deriving DecidableEq, Repr

/-- What is sent: a form to an address, by `doRequest`, or a captcha to a solver.  What the solver
    sends is its own affair. -/
inductive Sent where
  | request (url data : Bytes)
  | solve (mode : CaptchaSolveMode)
  deriving DecidableEq, Repr

/-- The form of the request for the token of the call, before any captcha. -/
def tokenForm (c : Chain) (token1 : Bytes) : Bytes :=
  ascii "vk_join_link=https://vk.com/call/join/" ++ c.link ++ ascii "&name=" ++ c.escapedName
    ++ ascii "&access_token=" ++ token1

/-- The form of that request with a solved captcha. -/
def solvedForm (c : Chain) (token1 : Bytes) (captcha : VkCaptchaError)
    (successToken captchaKey : Bytes) : Bytes :=
  let captchaAttempt :=
    if captcha.captchaAttempt = ascii "0" ∨ captcha.captchaAttempt = [] then ascii "1"
    else captcha.captchaAttempt
  if captchaKey ≠ [] then
    ascii "vk_join_link=https://vk.com/call/join/" ++ c.link ++ ascii "&name=" ++ c.escapedName
      ++ ascii "&captcha_key=" ++ queryEscape captchaKey ++ ascii "&captcha_sid="
      ++ captcha.captchaSid ++ ascii "&access_token=" ++ token1
  else
    ascii "vk_join_link=https://vk.com/call/join/" ++ c.link ++ ascii "&name=" ++ c.escapedName
      ++ ascii "&captcha_key=&captcha_sid=" ++ captcha.captchaSid
      ++ ascii "&is_sound_captcha=0&success_token=" ++ queryEscape successToken
      ++ ascii "&captcha_ts=" ++ captcha.captchaTs ++ ascii "&captcha_attempt="
      ++ captchaAttempt ++ ascii "&access_token=" ++ token1

/-- What a chain sends where it is. -/
def Place.sends (c : Chain) : Place → Sent
  | .anonymToken =>
      .request (ascii "https://login.vk.ru/?act=get_anonym_token")
        (ascii "client_id=" ++ c.creds.clientID ++ ascii "&token_type=messages&client_secret="
          ++ c.creds.clientSecret ++ ascii "&version=1&app_id=" ++ c.creds.clientID)
  | .callPreview token1 =>
      .request
        (ascii "https://api.vk.ru/method/calls.getCallPreview?v=5.275&client_id="
          ++ c.creds.clientID)
        (ascii "vk_join_link=https://vk.com/call/join/" ++ c.link
          ++ ascii "&fields=photo_200&access_token=" ++ token1)
  | .anonymousToken _ _ data =>
      .request
        (ascii "https://api.vk.ru/method/calls.getAnonymousToken?v=5.275&client_id="
          ++ c.creds.clientID) data
  | .solving _ _ _ _ mode => .solve mode
  | .anonymLogin _ =>
      .request (ascii "https://calls.okcdn.ru/fb.do")
        (ascii "session_data="
          ++ queryEscape (ascii "\x7b\"version\":2,\"device_id\":\"" ++ c.deviceID
            ++ ascii "\",\"client_version\":1.1,\"client_type\":\"SDK_JS\"\x7d")
          ++ ascii "&method=auth.anonymLogin&format=JSON&application_key=CGMMEJLGDIHBABABA")
  | .joinConversation token2 token3 =>
      .request (ascii "https://calls.okcdn.ru/fb.do")
        (ascii "joinLink=" ++ c.link
          ++ ascii "&isVideo=false&protocolVersion=5&capabilities=2F7F&anonymToken=" ++ token2
          ++ ascii "&method=vchat.joinConversationByLink&format=JSON"
          ++ ascii "&application_key=CGMMEJLGDIHBABABA&session_key=" ++ token3)

/-- The answer to what was sent: an error or a decoded body, and of a solver a token or a key
    or an error, with whether the minute of a manual solution is over. -/
inductive Answer (ν : Type) where
  | response (r : Except Bytes (Object ν))
  | solved (r : Except Bytes Bytes) (deadlineExceeded : Bool)

/-- How a chain goes on. -/
inductive Next where
  | ask (p : Place)
  | engage
  | fail (err : Bytes)
  | done (user pass address : Bytes)
  deriving DecidableEq, Repr

/-! ## Answers -/

/-- A captcha was not solved: the next attempt if there is a mode for it. -/
def notSolved (cfg : Config ν) (token1 : Bytes) (attempt : Nat) (data : Bytes) : Next :=
  match captchaSolveModeForAttempt (attempt + 1) cfg.manualCaptcha cfg.autoCaptchaSliderPOC with
  | some _ => .ask (.anonymousToken token1 (attempt + 1) data)
  | none => .engage

/-- The captcha has the fields that the mode needs. -/
def CaptchaSolveMode.able (captcha : VkCaptchaError) : CaptchaSolveMode → Bool
  | .auto | .sliderPOC => captcha.sessionToken ≠ [] && captcha.redirectURI ≠ []
  | .manual => captcha.redirectURI ≠ [] || captcha.captchaImg ≠ []

/-- Start to solve a captcha. -/
def startSolve (cfg : Config ν) (token1 : Bytes) (attempt : Nat) (data : Bytes)
    (captcha : VkCaptchaError) (mode : CaptchaSolveMode) : Next :=
  if mode.able captcha then .ask (.solving token1 attempt data captcha mode)
  else notSolved cfg token1 attempt data

/-- A captcha was received with an attempt. -/
def challenged (cfg : Config ν) (token1 : Bytes) (attempt : Nat) (data : Bytes)
    (captcha : VkCaptchaError) : Next :=
  match captchaSolveModeForAttempt attempt cfg.manualCaptcha cfg.autoCaptchaSliderPOC with
  | none => .engage
  | some mode => startSolve cfg token1 attempt data captcha mode

/-- The first of the two tokens. -/
def gotAnonymToken (resp : Object ν) : Next :=
  match objectAt resp "data" with
  | none => .fail (responseShapeError "unexpected anon token response" resp)
  | some dataMap =>
      match stringAt dataMap "access_token" with
      | none => .fail (responseShapeError "missing access_token in response" resp)
      | some token1 => .ask (.callPreview token1)

/-- The token of the call, or an error, or a captcha. -/
def gotAnonymousToken (cfg : Config ν) (token1 : Bytes) (attempt : Nat) (data : Bytes)
    (resp : Object ν) : Next :=
  match objectAt resp "error" with
  | some errObj =>
      match (parseVkCaptchaError cfg errObj).filter VkCaptchaError.isCaptchaError with
      | some captcha => challenged cfg token1 attempt data captcha
      | none => .fail (ascii "VK API error: " ++ cfg.display errObj)
  | none =>
      match objectAt resp "response" with
      | none => .fail (responseShapeError "unexpected getAnonymousToken response" resp)
      | some respMap =>
          match stringAt respMap "token" with
          | none => .fail (responseShapeError "missing token in response" resp)
          | some token2 => .ask (.anonymLogin token2)

/-- A solver has returned. -/
def gotSolution (cfg : Config ν) (c : Chain) (token1 : Bytes) (attempt : Nat) (data : Bytes)
    (captcha : VkCaptchaError) (mode : CaptchaSolveMode) (r : Except Bytes Bytes)
    (deadlineExceeded : Bool) : Next :=
  match r with
  | .error _ => notSolved cfg token1 attempt data
  | .ok text =>
      if mode = .manual ∧ deadlineExceeded = true then notSolved cfg token1 attempt data
      else if mode = .manual ∧ captcha.redirectURI = [] then
        .ask (.anonymousToken token1 (attempt + 1) (solvedForm c token1 captcha [] text))
      else .ask (.anonymousToken token1 (attempt + 1) (solvedForm c token1 captcha text []))

/-- The address of a TURN URL. -/
def turnAddress (urlStr : Bytes) : Bytes :=
  trimPrefix (trimPrefix (cut 0x3F urlStr).1 (ascii "turn:")) (ascii "turns:")

/-- The TURN credentials. -/
def gotConversation (resp : Object ν) : Next :=
  match objectAt resp "turn_server" with
  | none => .fail (responseShapeError "missing turn_server in response" resp)
  | some tsRaw =>
      match stringAt tsRaw "username", stringAt tsRaw "credential", arrayAt tsRaw "urls" with
      | none, _, _ => .fail (ascii "missing username in turn_server")
      | some _, none, _ => .fail (ascii "missing credential in turn_server")
      | some user, some pass, some (url :: _) =>
          match url.string? with
          | none => .fail (ascii "turn server url is not a string")
          | some urlStr => .done user pass (turnAddress urlStr)
      | some _, some _, _ => .fail (ascii "missing or empty urls in turn_server")

/-- What a chain makes of an answer. -/
def advance (cfg : Config ν) (c : Chain) : Place → Answer ν → Option Next
  | .anonymToken, .response (.ok resp) => some (gotAnonymToken resp)
  -- the preview is asked for, but not looked at
  | .callPreview token1, .response _ =>
      some (.ask (.anonymousToken token1 0 (tokenForm c token1)))
  | .anonymousToken token1 attempt data, .response (.ok resp) =>
      some (gotAnonymousToken cfg token1 attempt data resp)
  | .solving token1 attempt data captcha mode, .solved r deadlineExceeded =>
      some (gotSolution cfg c token1 attempt data captcha mode r deadlineExceeded)
  | .anonymLogin token2, .response (.ok resp) =>
      match stringAt resp "session_key" with
      | none => some (.fail (responseShapeError "missing session_key in response" resp))
      | some token3 => some (.ask (.joinConversation token2 token3))
  | .joinConversation _ _, .response (.ok resp) => some (gotConversation resp)
  | .solving .., .response _ => none
  | _, .response (.error err) => some (.fail err)
  | _, .solved _ _ => none

/-! ## What is still to come -/

/-- What a chain costs: its own calls of `doRequest`, and the modes of its solvers in their
    order.  A solver sends requests too; those are not counted here. -/
@[ext]
structure Cost where
  doRequests : Nat
  solvers : List CaptchaSolveMode
  deriving DecidableEq, Repr

instance : Zero Cost := ⟨⟨0, []⟩⟩

instance : Add Cost := ⟨fun a b => ⟨a.doRequests + b.doRequests, a.solvers ++ b.solvers⟩⟩

instance : AddMonoid Cost where
  add_assoc _ _ _ := Cost.ext (Nat.add_assoc _ _ _) (List.append_assoc _ _ _)
  zero_add _ := Cost.ext (Nat.zero_add _) (List.nil_append _)
  add_zero _ := Cost.ext (Nat.add_zero _) (List.append_nil _)
  nsmul := nsmulRec

instance : Preorder Cost where
  le a b := a.doRequests ≤ b.doRequests ∧ a.solvers.Sublist b.solvers
  le_refl _ := ⟨le_rfl, List.Sublist.refl _⟩
  le_trans _ _ _ h h' := ⟨h.1.trans h'.1, h.2.trans h'.2⟩

theorem Cost.add_le_add {a a' b b' : Cost} (h : a ≤ a') (h' : b ≤ b') : a + b ≤ a' + b' :=
  ⟨Nat.add_le_add h.1 h'.1, h.2.append h'.2⟩

theorem Cost.zero_le (a : Cost) : 0 ≤ a := ⟨Nat.zero_le _, List.nil_sublist _⟩

/-- What is sent, as a cost: one call of `doRequest`, or one of a solver. -/
def Sent.cost : Sent → Cost
  | .request _ _ => ⟨1, []⟩
  | .solve mode => ⟨0, [mode]⟩

/-- What a chain may still cost, what it sends at its place included. -/
def Place.left (modes : List CaptchaSolveMode) : Place → Cost
  | .anonymToken => ⟨modes.length + 5, modes⟩
  | .callPreview _ => ⟨modes.length + 4, modes⟩
  | .anonymousToken _ attempt _ => ⟨modes.length - attempt + 3, modes.drop attempt⟩
  | .solving _ attempt _ _ _ => ⟨modes.length - attempt + 2, modes.drop attempt⟩
  | .anonymLogin _ => ⟨2, []⟩
  | .joinConversation _ _ => ⟨1, []⟩

/-- A place where an attempt has its mode. -/
def Place.Sound (modes : List CaptchaSolveMode) : Place → Prop
  | .anonymousToken _ attempt _ => attempt ≤ modes.length
  | .solving _ attempt _ _ mode => modes[attempt]? = some mode
  | _ => True

/-- From `p` on to `p'`: the place is sound, and its cost fits in what `p` leaves. -/
structure Follows (modes : List CaptchaSolveMode) (c : Chain) (p p' : Place) : Prop where
  sound : p'.Sound modes
  room : (p.sends c).cost + p'.left modes ≤ p.left modes

variable {cfg : Config ν} {c : Chain} {token1 data : Bytes} {attempt : Nat}

/-- The next attempt, after a captcha that was not solved. -/
theorem notSolved_ask {p' : Place} (h : notSolved cfg token1 attempt data = .ask p') :
    p' = .anonymousToken token1 (attempt + 1) data ∧ attempt + 1 < cfg.modes.length := by
  rw [notSolved, captchaSolveModeForAttempt_eq] at h
  cases hm : cfg.modes[attempt + 1]? with
  | none =>
      rw [hm] at h
      cases h
  | some mode =>
      rw [hm] at h
      cases h
      exact ⟨rfl, (List.getElem?_eq_some_iff.mp hm).1⟩

/-- From a request for the token of the call to the next one, without a solver. -/
theorem follows_skipped (hlt : attempt + 1 < cfg.modes.length) :
    Follows cfg.modes c (.anonymousToken token1 attempt data)
      (.anonymousToken token1 (attempt + 1) data) := by
  refine ⟨Nat.le_of_lt hlt, ?_, ?_⟩
  · show 1 + (cfg.modes.length - (attempt + 1) + 3) ≤ cfg.modes.length - attempt + 3
    omega
  · show (cfg.modes.drop (attempt + 1)).Sublist (cfg.modes.drop attempt)
    rw [← List.drop_drop]
    exact List.drop_sublist _ _

/-- From a solver to the next request for the token of the call. -/
theorem follows_solved {captcha : VkCaptchaError} {mode : CaptchaSolveMode} {data' : Bytes}
    (hmode : cfg.modes[attempt]? = some mode) :
    Follows cfg.modes c (.solving token1 attempt data captcha mode)
      (.anonymousToken token1 (attempt + 1) data') := by
  obtain ⟨hlt, hget⟩ := List.getElem?_eq_some_iff.mp hmode
  refine ⟨hlt, ?_, ?_⟩
  · show 0 + (cfg.modes.length - (attempt + 1) + 3) ≤ cfg.modes.length - attempt + 2
    omega
  · show ([mode] ++ cfg.modes.drop (attempt + 1)).Sublist (cfg.modes.drop attempt)
    rw [List.drop_eq_getElem_cons hlt, hget]
    exact List.Sublist.refl _

/-- A captcha is solved, or skipped, in the mode of the attempt. -/
theorem follows_challenged {captcha : VkCaptchaError} {p' : Place}
    (h : challenged cfg token1 attempt data captcha = .ask p') :
    Follows cfg.modes c (.anonymousToken token1 attempt data) p' := by
  rw [challenged, captchaSolveModeForAttempt_eq] at h
  cases hm : cfg.modes[attempt]? with
  | none =>
      rw [hm] at h
      cases h
  | some mode =>
      rw [hm] at h
      simp only [startSolve] at h
      split at h
      · cases h
        exact ⟨hm, Nat.le_of_eq (Nat.add_comm 1 _), List.Sublist.refl _⟩
      · obtain ⟨rfl, hlt⟩ := notSolved_ask h
        exact follows_skipped hlt

theorem follows_gotAnonymousToken {resp : Object ν} {p' : Place}
    (h : gotAnonymousToken cfg token1 attempt data resp = .ask p') :
    Follows cfg.modes c (.anonymousToken token1 attempt data) p' := by
  rw [gotAnonymousToken] at h
  split at h
  · split at h
    · exact follows_challenged h
    · cases h
  · split at h
    · cases h
    · split at h
      · cases h
      · cases h
        exact ⟨trivial, Nat.le_add_left _ _, List.nil_sublist _⟩

/-- A solution leads to the next attempt. -/
theorem follows_gotSolution {captcha : VkCaptchaError} {mode : CaptchaSolveMode}
    {r : Except Bytes Bytes} {deadlineExceeded : Bool} {p' : Place}
    (hmode : cfg.modes[attempt]? = some mode)
    (h : gotSolution cfg c token1 attempt data captcha mode r deadlineExceeded = .ask p') :
    Follows cfg.modes c (.solving token1 attempt data captcha mode) p' := by
  cases r with
  | error e =>
      obtain ⟨rfl, -⟩ := notSolved_ask h
      exact follows_solved hmode
  | ok text =>
      simp only [gotSolution] at h
      split at h
      · obtain ⟨rfl, -⟩ := notSolved_ask h
        exact follows_solved hmode
      · split at h <;>
        · cases h
          exact follows_solved hmode

/-- The last answer asks for nothing more. -/
theorem gotConversation_ends {resp : Object ν} {p' : Place} : gotConversation resp ≠ .ask p' := by
  intro h
  rw [gotConversation] at h
  split at h
  · cases h
  · split at h
    · cases h
    · cases h
    · split at h <;> cases h
    · cases h

/-- **ONE STEP OF A CHAIN**: whatever the answer, the next place follows. -/
theorem advance_follows {p p' : Place} {answer : Answer ν} (hp : p.Sound cfg.modes)
    (h : advance cfg c p answer = some (.ask p')) : Follows cfg.modes c p p' := by
  unfold advance at h
  split at h
  case h_1 resp =>
    have h := Option.some.inj h
    rw [gotAnonymToken] at h
    split at h
    · cases h
    · split at h
      · cases h
      · cases h
        exact ⟨trivial, Nat.le_of_eq (Nat.add_comm 1 _), List.Sublist.refl _⟩
  case h_2 =>
    cases h
    exact ⟨Nat.zero_le _, Nat.le_of_eq (Nat.add_comm 1 _), List.Sublist.refl _⟩
  case h_3 => exact follows_gotAnonymousToken (Option.some.inj h)
  case h_4 => exact follows_gotSolution hp (Option.some.inj h)
  case h_5 =>
    split at h
    · cases h
    · cases h
      exact ⟨trivial, Nat.le_refl 2, List.Sublist.refl _⟩
  case h_6 => exact absurd (Option.some.inj h) gotConversation_ends
  all_goals cases h

/-- What is sent at a sound place is within what the place leaves. -/
theorem sends_fits {p : Place} (hp : p.Sound cfg.modes) (c : Chain) :
    (p.sends c).cost ≤ p.left cfg.modes := by
  cases p with
  | solving token1 attempt data captcha mode =>
      obtain ⟨hlt, hget⟩ := List.getElem?_eq_some_iff.mp hp
      refine ⟨Nat.zero_le _, ?_⟩
      show [mode].Sublist (cfg.modes.drop attempt)
      rw [List.drop_eq_getElem_cons hlt, hget]
      exact List.Sublist.cons_cons _ (List.nil_sublist _)
  | anonymLogin token2 => exact ⟨Nat.le_succ 1, List.nil_sublist _⟩
  | joinConversation token2 token3 => exact ⟨Nat.le_refl 1, List.nil_sublist _⟩
  | _ => exact ⟨Nat.le_add_left _ _, List.nil_sublist _⟩

end VkTurnTokenChain
