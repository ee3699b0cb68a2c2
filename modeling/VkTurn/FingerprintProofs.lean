import VkTurn.GoTextProofs

/-! # Certificate fingerprints

    A client pins its server by the SHA-256 digest of its leaf certificate, given as TEXT:
    64 hexadecimal digits, or 32 pairs with colons between them.  Both notations go
    through one decoder, once the colons are out.

    What a text means is said without the parser: `Spells text f` has one pair of
    digits for each byte of `f`.  The parser accepts the spellings, and nothing else
    (`parseFingerprint_iff`); so the client that a text configures accepts the
    certificates with the digest it spells, and no others (`configured_pin`). -/

namespace VkTurnFingerprint

open GoText

/-! ## Fingerprints and their text -/

/-- `fingerprintBytes`. -/
def fingerprintBytes : Nat := 32

/-- `Fingerprint`. -/
structure Fingerprint where
  bytes : Bytes
  size : bytes.length = fingerprintBytes
  deriving DecidableEq

/-- `copy(fingerprint[:], decoded)`, where `fingerprint` is zero. -/
def Fingerprint.copy (decoded : Bytes) : Fingerprint where
  bytes := decoded.take fingerprintBytes ++ List.replicate (fingerprintBytes - decoded.length) 0
  size := by
    rw [List.length_append, List.length_take, List.length_replicate]
    omega

/-- The errors of `ParseFingerprint`. -/
inductive FingerprintError where
  | empty
  | pairCount
  | pairLength
  | length
  | decode (err : HexError)
  deriving DecidableEq

def FingerprintError.text : FingerprintError → Bytes
  | .empty => ascii "DTLS certificate fingerprint must not be empty"
  | .pairCount =>
      ascii "DTLS certificate fingerprint must contain " ++ decimal fingerprintBytes ++
        ascii " byte pairs"
  | .pairLength =>
      ascii "DTLS certificate fingerprint byte pairs must contain two hexadecimal characters"
  | .length =>
      ascii "DTLS certificate fingerprint must contain " ++ decimal (fingerprintBytes * 2) ++
        ascii " hexadecimal characters"
  | .decode err => ascii "decode DTLS certificate fingerprint: " ++ err.text

/-- The colon. -/
def colon : UInt8 := 0x3A

/-- `normalized`: the value, without its colons if it has some. -/
def normalize (value : Bytes) : Except FingerprintError Bytes :=
  if value.contains colon then
    let parts := value.splitOn colon
    if parts.length ≠ fingerprintBytes then .error .pairCount
    else if parts.any fun part => part.length ≠ 2 then .error .pairLength
    else .ok parts.flatten
  else .ok value

/-- `ParseFingerprint`. -/
def parseFingerprint (value : Bytes) : Except FingerprintError Fingerprint :=
  let value := trimSpace value
  if value = [] then .error .empty
  else
    match normalize value with
    | .error err => .error err
    | .ok normalized =>
        if normalized.length ≠ fingerprintBytes * 2 then .error .length
        else
          match hexDecode normalized with
          | .error err => .error (.decode err)
          | .ok decoded => .ok (.copy decoded)

/-- The text cut in twos, as `String` cuts the encoded digest. -/
def pairsOf : Bytes → List Bytes
  | p :: q :: rest => [p, q] :: pairsOf rest
  | _ => []

/-- `Fingerprint.String`. -/
def Fingerprint.string (f : Fingerprint) : Bytes :=
  let encoded := (hexEncode f.bytes).map upperByte
  [colon].intercalate (pairsOf encoded)

/-! ## The client's policy -/

/-- `ClientAuthentication`: a mode, and the pin where there is one. -/
inductive ClientAuthentication where
  | unset
  | pinned (expected : Fingerprint)
  | insecure
  deriving DecidableEq

/-- The errors of `NewClientAuthentication`. -/
inductive AuthError where
  | both
  | required
  | fingerprint (err : FingerprintError)
  deriving DecidableEq

def AuthError.text : AuthError → Bytes
  | .both => ascii "DTLS fingerprint and insecure skip-verify cannot be enabled together"
  | .required =>
      ascii "DTLS server fingerprint is required; set -dtls-server-fingerprint or explicitly " ++
        ascii "opt in to -dtls-insecure-skip-verify"
  | .fingerprint err => err.text

/-- `NewClientAuthentication`. -/
def newClientAuthentication (fingerprint : Bytes) (insecureSkipVerify : Bool) :
    Except AuthError ClientAuthentication :=
  let fingerprint := trimSpace fingerprint
  if insecureSkipVerify then
    if fingerprint ≠ [] then .error .both else .ok .insecure
  else if fingerprint = [] then .error .required
  else
    match parseFingerprint fingerprint with
    | .error err => .error (.fingerprint err)
    | .ok expected => .ok (.pinned expected)

/-- The errors of `verifyRawCertificateFingerprint`. -/
inductive VerifyError where
  | missing
  | mismatch (actual : Fingerprint)
  deriving DecidableEq

def VerifyError.text : VerifyError → Bytes
  | .missing => ascii "DTLS peer did not present a certificate"
  | .mismatch actual => ascii "DTLS server certificate fingerprint mismatch: got " ++ actual.string

/-- `verifyRawCertificateFingerprint`, for a hash function in the place of SHA-256. -/
def verifyRawCertificateFingerprint (sum256 : Bytes → Fingerprint) (expected : Fingerprint) :
    List Bytes → Except VerifyError Unit
  | [] => .error .missing
  | leaf :: _ =>
      if leaf = [] then .error .missing
      else if expected = sum256 leaf then .ok ()
      else .error (.mismatch (sum256 leaf))

/-- The check that `Options` installs: none without a pin, and no client at all without a
    policy. -/
def ClientAuthentication.verify (sum256 : Bytes → Fingerprint) (rawCerts : List Bytes) :
    ClientAuthentication → Option (Except VerifyError Unit)
  | .unset => none
  | .pinned expected => some (verifyRawCertificateFingerprint sum256 expected rawCerts)
  | .insecure => some (.ok ())

/-! ## What a text means -/

/-- `text` spells `f`: a pair of digits for each byte, with or without colons between. -/
def Spells (text : Bytes) (f : Fingerprint) : Prop :=
  ∃ pairs, List.Forall₂ HexPair pairs f.bytes ∧
    (text = pairs.flatten ∨ text = [colon].intercalate pairs)

section Pairs

variable {pairs : List Bytes} {bs : Bytes}

theorem pairs_length (h : List.Forall₂ HexPair pairs bs) : ∀ pair ∈ pairs, pair.length = 2 := by
  induction h with
  | nil => intro pair hp; cases hp
  | cons hpair _ ih =>
      intro pair hp
      rcases List.mem_cons.mp hp with rfl | hp
      · obtain ⟨p, q, m, n, rfl, -⟩ := hpair
        rfl
      · exact ih pair hp

theorem pairs_digits (h : List.Forall₂ HexPair pairs bs) :
    ∀ pair ∈ pairs, ∀ b ∈ pair, ∃ n, HexDigit n b := by
  induction h with
  | nil => intro pair hp; cases hp
  | cons hpair _ ih =>
      intro pair hp
      rcases List.mem_cons.mp hp with rfl | hp
      · obtain ⟨p, q, m, n, rfl, hp, hq, -⟩ := hpair
        intro b hb
        rcases List.mem_pair.mp hb with rfl | rfl
        · exact ⟨m, hp⟩
        · exact ⟨n, hq⟩
      · exact ih pair hp

theorem pairs_visible (h : List.Forall₂ HexPair pairs bs) :
    ∀ pair ∈ pairs, ∀ b ∈ pair, within 0x30 0x66 b = true ∧ b ≠ colon := by
  intro pair hp b hb
  obtain ⟨n, hn⟩ := pairs_digits h pair hp b hb
  exact hn.visible

theorem flatten_two_length {us : List Bytes} (hu : ∀ u ∈ us, u.length = 2) :
    us.flatten.length = 2 * us.length := by
  induction us with
  | nil => rfl
  | cons u us ih =>
      rw [List.flatten_cons, List.length_append, hu u List.mem_cons_self,
        ih fun v hv => hu v (List.mem_cons_of_mem _ hv), List.length_cons]
      omega

/-- Texts of two bytes each are told apart by their concatenation. -/
theorem flatten_two_inj {us vs : List Bytes} (hu : ∀ u ∈ us, u.length = 2)
    (hv : ∀ v ∈ vs, v.length = 2) (h : us.flatten = vs.flatten) : us = vs := by
  induction us generalizing vs with
  | nil =>
      have hlen := congrArg List.length h
      rw [flatten_two_length hv, List.flatten_nil, List.length_nil] at hlen
      exact (List.length_eq_zero_iff.mp (by omega)).symm
  | cons u us ih =>
      cases vs with
      | nil =>
          have hlen := congrArg List.length h
          rw [flatten_two_length hu, List.flatten_nil, List.length_nil, List.length_cons] at hlen
          omega
      | cons v vs =>
          have hhead : u.length = v.length :=
            (hu u List.mem_cons_self).trans (hv v List.mem_cons_self).symm
          obtain ⟨rfl, hrest⟩ := List.append_inj h hhead
          rw [ih (fun w hw => hu w (List.mem_cons_of_mem _ hw))
            (fun w hw => hv w (List.mem_cons_of_mem _ hw)) hrest]

end Pairs

/-! ## The parser -/

theorem copy_bytes (f : Fingerprint) : Fingerprint.copy f.bytes = f := by
  cases f with
  | mk bytes size =>
      simp only [Fingerprint.copy, List.take_of_length_le size.le, size,
        Nat.sub_self, List.replicate_zero, List.append_nil]

/-- Without its colons, a spelling is its digits. -/
theorem normalize_spelling {text : Bytes} {f : Fingerprint} {pairs : List Bytes}
    (hpairs : List.Forall₂ HexPair pairs f.bytes)
    (htext : text = pairs.flatten ∨ text = [colon].intercalate pairs) :
    normalize text = .ok pairs.flatten := by
  have hcount : pairs.length = fingerprintBytes := hpairs.length_eq.trans f.size
  have hfree : ∀ pair ∈ pairs, colon ∉ pair := fun pair hp hc =>
    (pairs_visible hpairs pair hp colon hc).2 rfl
  rcases htext with rfl | rfl
  · have hnone : pairs.flatten.contains colon = false := by
      rw [List.contains_eq_mem, decide_eq_false_iff_not, List.mem_flatten]
      rintro ⟨pair, hp, hc⟩
      exact hfree pair hp hc
    rw [normalize, hnone]
    rfl
  · have hsome : ([colon].intercalate pairs).contains colon = true := by
      rw [List.contains_eq_mem, decide_eq_true_eq]
      cases pairs with
      | nil => cases hcount
      | cons u pairs =>
          cases pairs with
          | nil => cases hcount
          | cons v ws => exact sep_mem_intercalate ws
    have hne : pairs ≠ [] := by
      rintro rfl
      cases hcount
    have hlen : (pairs.any fun part => decide (part.length ≠ 2)) = false := by
      rw [List.any_eq_false]
      intro part hp
      rw [decide_eq_true_eq, not_not]
      exact pairs_length hpairs part hp
    rw [normalize, if_pos hsome, List.splitOn_intercalate colon hfree hne]
    simp only [hcount, ne_eq, not_true_eq_false, if_false]
    rw [if_neg (by rw [hlen]; exact Bool.false_ne_true)]

theorem parseFingerprint_of_spells {s : Bytes} {f : Fingerprint} (h : Spells (trimSpace s) f) :
    parseFingerprint s = .ok f := by
  obtain ⟨pairs, hpairs, htext⟩ := h
  have hnorm := normalize_spelling hpairs htext
  have hlen : pairs.flatten.length = fingerprintBytes * 2 := by
    rw [flatten_two_length (pairs_length hpairs), hpairs.length_eq, f.size, Nat.mul_comm]
  have hdec : hexDecode pairs.flatten = .ok f.bytes := hexDecode_iff.mpr ⟨pairs, hpairs, rfl⟩
  have hne : trimSpace s ≠ [] := by
    intro hnil
    rw [hnil] at hnorm
    rw [← Except.ok.inj hnorm] at hlen
    cases hlen
  rw [parseFingerprint, if_neg hne, hnorm]
  simp only [hlen, ne_eq, not_true_eq_false, if_false, hdec, copy_bytes]

/-- What `normalize` leaves is the text, or its parts of two bytes each. -/
theorem normalize_ok {text normalized : Bytes} (h : normalize text = .ok normalized) :
    text = normalized ∨ ∃ parts : List Bytes, (∀ part ∈ parts, part.length = 2) ∧
      normalized = parts.flatten ∧ text = [colon].intercalate parts := by
  unfold normalize at h
  split at h
  · simp only at h
    split at h
    · cases h
    · split at h
      · cases h
      · rename_i hlen
        cases h
        refine Or.inr ⟨_, ?_, rfl, (List.intercalate_splitOn colon).symm⟩
        intro part hp
        by_contra hne
        exact hlen (List.any_eq_true.mpr ⟨part, hp, decide_eq_true hne⟩)
  · cases h
    exact Or.inl rfl

theorem spells_of_parseFingerprint {s : Bytes} {f : Fingerprint}
    (h : parseFingerprint s = .ok f) : Spells (trimSpace s) f := by
  unfold parseFingerprint at h
  simp only at h
  split at h
  · cases h
  split at h
  · cases h
  rename_i normalized hnorm
  split at h
  · cases h
  rename_i hlen
  split at h
  · cases h
  rename_i decoded hdec
  cases h
  obtain ⟨pairs, hpairs, rfl⟩ := hexDecode_iff.mp hdec
  have hsize : decoded.length = fingerprintBytes := by
    rw [flatten_two_length (pairs_length hpairs), hpairs.length_eq] at hlen
    omega
  have hcopy : (Fingerprint.copy decoded).bytes = decoded :=
    congrArg Fingerprint.bytes (copy_bytes ⟨decoded, hsize⟩)
  refine ⟨pairs, hcopy.symm ▸ hpairs, ?_⟩
  rcases normalize_ok hnorm with htext | ⟨parts, htwo, hflat, htext⟩
  · exact Or.inl htext
  · rw [flatten_two_inj (pairs_length hpairs) htwo hflat]
    exact Or.inr htext

theorem parseFingerprint_iff {s : Bytes} {f : Fingerprint} :
    parseFingerprint s = .ok f ↔ Spells (trimSpace s) f :=
  ⟨spells_of_parseFingerprint, parseFingerprint_of_spells⟩

/-- A text spells one fingerprint. -/
theorem Spells.unique {s : Bytes} {f g : Fingerprint} (hf : Spells (trimSpace s) f)
    (hg : Spells (trimSpace s) g) : f = g :=
  Except.ok.inj ((parseFingerprint_of_spells hf).symm.trans (parseFingerprint_of_spells hg))

/-! ## Printing -/

theorem pairsOf_encoded (bs : Bytes) :
    pairsOf ((hexEncode bs).map upperByte) = bs.map fun b => (hexEncode [b]).map upperByte := by
  induction bs with
  | nil => rfl
  | cons b bs ih =>
      show [_, _] :: pairsOf ((hexEncode bs).map upperByte) = _ :: _
      rw [ih]
      rfl

/-- A fingerprint's text spells it. -/
theorem string_spells (f : Fingerprint) : Spells f.string f := by
  refine ⟨f.bytes.map fun b => (hexEncode [b]).map upperByte, ?_, Or.inr ?_⟩
  · rw [List.forall₂_map_left_iff]
    exact List.forall₂_same.mpr fun b _ => hexPair_upper b
  · rw [Fingerprint.string, pairsOf_encoded]

/-- A spelling has no white space to trim. -/
theorem Spells.word {text : Bytes} {f : Fingerprint} (h : Spells text f) : Word text := by
  obtain ⟨pairs, hpairs, htext⟩ := h
  have hin : ∀ b ∈ text, within 0x30 0x66 b = true := by
    intro b hb
    rcases htext with rfl | rfl
    · obtain ⟨pair, hp, hb⟩ := List.mem_flatten.mp hb
      exact (pairs_visible hpairs pair hp b hb).1
    · rcases mem_intercalate hb with rfl | ⟨pair, hp, hb⟩
      · rfl
      · exact (pairs_visible hpairs pair hp b hb).1
  refine word_of_within ?_ (by decide) (by decide) hin
  rintro rfl
  have hnorm := Except.ok.inj (normalize_spelling hpairs htext)
  have hlen := flatten_two_length (pairs_length hpairs)
  rw [← hnorm, hpairs.length_eq, f.size] at hlen
  cases hlen

theorem parseFingerprint_string (f : Fingerprint) : parseFingerprint f.string = .ok f := by
  refine parseFingerprint_of_spells ?_
  rw [trimSpace_word (string_spells f).word]
  exact string_spells f

/-! ## The accepted language -/

/-- 64 hexadecimal digits. -/
def Plain (text : Bytes) : Prop :=
  text.length = 64 ∧ ∀ b ∈ text, ∃ n, HexDigit n b

/-- 32 pairs of hexadecimal digits, with single colons between them. -/
def Separated (text : Bytes) : Prop :=
  ∃ pairs : List Bytes, pairs.length = 32 ∧
    (∀ pair ∈ pairs, pair.length = 2 ∧ ∀ b ∈ pair, ∃ n, HexDigit n b) ∧
    text = [colon].intercalate pairs

/-- Pairs of digits spell bytes. -/
theorem exists_bytes {pairs : List Bytes}
    (h : ∀ pair ∈ pairs, pair.length = 2 ∧ ∀ b ∈ pair, ∃ n, HexDigit n b) :
    ∃ bs, List.Forall₂ HexPair pairs bs := by
  induction pairs with
  | nil => exact ⟨[], List.Forall₂.nil⟩
  | cons pair pairs ih =>
      obtain ⟨bs, hbs⟩ := ih fun p hp => h p (List.mem_cons_of_mem _ hp)
      obtain ⟨hlen, hdigits⟩ := h pair List.mem_cons_self
      obtain ⟨p, q, rfl⟩ := List.length_eq_two.mp hlen
      obtain ⟨m, hm⟩ := hdigits p List.mem_cons_self
      obtain ⟨n, hn⟩ := hdigits q (List.mem_cons_of_mem _ List.mem_cons_self)
      refine ⟨UInt8.ofNat (16 * m + n) :: bs, List.Forall₂.cons ⟨p, q, m, n, rfl, hm, hn, ?_⟩ hbs⟩
      have hlt := hm.lt
      have hlt' := hn.lt
      rw [UInt8.toNat_ofNat', Nat.mod_eq_of_lt (by omega)]

/-- Digits are the concatenation of their pairs. -/
theorem pairsOf_flatten {k : Nat} {text : Bytes} (h : text.length = 2 * k) :
    (pairsOf text).flatten = text ∧ (pairsOf text).length = k ∧
      ∀ pair ∈ pairsOf text, pair.length = 2 := by
  induction k generalizing text with
  | zero =>
      obtain rfl := List.length_eq_zero_iff.mp h
      exact ⟨rfl, rfl, fun pair hp => (by cases hp)⟩
  | succ k ih =>
      cases text with
      | nil => cases h
      | cons p text =>
          cases text with
          | nil => cases h
          | cons q rest =>
              obtain ⟨hflat, hlen, htwo⟩ := @ih rest (by simpa [Nat.mul_succ] using h)
              refine ⟨?_, ?_, ?_⟩
              · rw [pairsOf, List.flatten_cons, hflat]
                rfl
              · rw [pairsOf, List.length_cons, hlen]
              · intro pair hp
                rcases List.mem_cons.mp hp with rfl | hp
                · rfl
                · exact htwo pair hp

/-- The texts that spell something. -/
theorem spelled_iff (text : Bytes) : (∃ f, Spells text f) ↔ Plain text ∨ Separated text := by
  constructor
  · rintro ⟨f, pairs, hpairs, htext⟩
    have hcount : pairs.length = 32 := hpairs.length_eq.trans f.size
    rcases htext with rfl | rfl
    · refine Or.inl ⟨by rw [flatten_two_length (pairs_length hpairs), hcount], ?_⟩
      intro b hb
      obtain ⟨pair, hp, hb⟩ := List.mem_flatten.mp hb
      exact pairs_digits hpairs pair hp b hb
    · exact Or.inr ⟨pairs, hcount,
        fun pair hp => ⟨pairs_length hpairs pair hp, pairs_digits hpairs pair hp⟩, rfl⟩
  · rintro (⟨hlen, hdigits⟩ | ⟨pairs, hcount, hpairs, rfl⟩)
    · obtain ⟨hflat, hcount, htwo⟩ := pairsOf_flatten (k := 32) hlen
      obtain ⟨bs, hbs⟩ := @exists_bytes (pairsOf text) fun pair hp => ⟨htwo pair hp,
        fun b hb => hdigits b (hflat ▸ List.mem_flatten.mpr ⟨pair, hp, hb⟩)⟩
      exact ⟨⟨bs, hbs.length_eq.symm.trans hcount⟩, _, hbs, Or.inl hflat.symm⟩
    · obtain ⟨bs, hbs⟩ := exists_bytes hpairs
      exact ⟨⟨bs, hbs.length_eq.symm.trans hcount⟩, pairs, hbs, Or.inr rfl⟩

/-! ## The pin -/

theorem newClientAuthentication_pinned {s : Bytes} {f : Fingerprint}
    (h : Spells (trimSpace s) f) : newClientAuthentication s false = .ok (.pinned f) := by
  have hparse : parseFingerprint (trimSpace s) = .ok f :=
    parseFingerprint_of_spells ((trimSpace_trimSpace s).symm ▸ h)
  rw [newClientAuthentication]
  simp only [Bool.false_eq_true, if_false, h.word.nonempty, hparse]

/-- A client that is not told to skip the check is pinned, to what its text spells. -/
theorem newClientAuthentication_ok {s : Bytes} {auth : ClientAuthentication}
    (h : newClientAuthentication s false = .ok auth) :
    ∃ f, auth = .pinned f ∧ Spells (trimSpace s) f := by
  unfold newClientAuthentication at h
  simp only [Bool.false_eq_true, if_false] at h
  split at h
  · cases h
  split at h
  · cases h
  rename_i f hf
  cases h
  refine ⟨f, rfl, ?_⟩
  have hspells := spells_of_parseFingerprint hf
  rwa [trimSpace_trimSpace] at hspells

/-- **THE CLIENT'S PIN**: a client configured by a text and not told to skip the check
    accepts the servers whose leaf certificate has the digest that the text spells. -/
theorem configured_pin (sum256 : Bytes → Fingerprint) {s : Bytes} {auth : ClientAuthentication}
    (h : newClientAuthentication s false = .ok auth) (rawCerts : List Bytes) :
    auth.verify sum256 rawCerts = some (.ok ()) ↔
      ∃ leaf rest, rawCerts = leaf :: rest ∧ leaf ≠ [] ∧ Spells (trimSpace s) (sum256 leaf) := by
  obtain ⟨f, rfl, hf⟩ := newClientAuthentication_ok h
  rw [ClientAuthentication.verify, Option.some.injEq]
  constructor
  · intro hok
    unfold verifyRawCertificateFingerprint at hok
    split at hok
    · cases hok
    split_ifs at hok with hempty hsame
    exact ⟨_, _, rfl, hempty, hsame ▸ hf⟩
  · rintro ⟨leaf, rest, rfl, hne, hleaf⟩
    rw [verifyRawCertificateFingerprint, if_neg hne, if_pos (hf.unique hleaf)]

/-- **THE TEXT FORMAT.**  Every fingerprint's own text parses to it.  A text parses to `f`
    exactly if without its surrounding white space it spells `f`; the texts accepted
    are 64 digits and 32 pairs with single colons.  And two accepted texts configure the
    same pin exactly if they spell the same digest. -/
theorem fingerprint_format :
    (∀ f : Fingerprint, parseFingerprint f.string = .ok f) ∧
    (∀ s f, parseFingerprint s = .ok f ↔ Spells (trimSpace s) f) ∧
    (∀ s, (∃ f, parseFingerprint s = .ok f) ↔ Plain (trimSpace s) ∨ Separated (trimSpace s)) ∧
    ∀ s s' f f', Spells (trimSpace s) f → Spells (trimSpace s') f' →
      (newClientAuthentication s false = newClientAuthentication s' false ↔ f = f') := by
  refine ⟨parseFingerprint_string, fun s f => parseFingerprint_iff, ?_, ?_⟩
  · intro s
    rw [← spelled_iff]
    exact exists_congr fun f => parseFingerprint_iff
  · intro s s' f f' hf hf'
    rw [newClientAuthentication_pinned hf, newClientAuthentication_pinned hf']
    constructor
    · intro h
      exact ClientAuthentication.pinned.inj (Except.ok.inj h)
    · rintro rfl
      rfl

end VkTurnFingerprint
