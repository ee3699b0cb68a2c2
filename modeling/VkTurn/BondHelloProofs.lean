import VkTurn.BondProofs
import VkTurn.GoTextProofs

/-! # The bond hello: the control records of a path

    Before KCP traffic starts, each path carries one control record, a line of
    text in a DTLS record of its own.  V1 has only the bond ID; V2 also has the
    number of paths and the wire-critical KCP profile, and is answered by an
    acknowledgement or by a rejection.  This file is the codec, byte by byte and
    with every refusal, and its round trip: what is written reads back, and what
    is accepted was valid. -/

namespace VkTurnBondHello

open VkTurnStripe VkTurnBond GoText

/-! ## Records -/

def bondHelloV1Token : Bytes := ascii "VKTURNBOND/1"
def bondHelloV2Token : Bytes := ascii "VKTURNBOND/2"
def bondHelloV2Ack : Bytes := ascii "VKTURNBOND/2 OK\n"
def bondHelloV2Error : Bytes := ascii "ERR"
def maxBondHelloSize : Nat := 256
def maxBondPaths : Int := 64
def bondProtocolV1 : Int := 1
def bondProtocolV2 : Int := 2
def minKCPMTU : Int := 50
def kcpXmitBufferSize : Int := 1500
def kcpCryptHeaderSize : Int := 20
def kcpFECHeaderSize : Int := 8

/-- `BondHello`. -/
structure BondHello where
  version : Int := 0
  bondID : Bytes := []
  expectedPaths : Int := 0
  mtu : Int := 0
  fecDataShards : Int := 0
  fecParityShards : Int := 0
  deriving DecidableEq, Repr

/-- The errors of the control plane, with what their texts print. -/
inductive HelloError where
  -- validateFECShards
  | fecNotPositive
  | fecTotal
  -- validateBondHello
  | invalidBondID
  | profileInV1
  | expectedPathsRange (max : Int)
  | fecProfile (e : HelloError)
  | mtuRange (min max : Int)
  | unsupportedVersion (version : Int)
  -- writeBondControlLine, readBondControlLine
  | controlLength
  | exceeds (max : Nat)
  | unterminated
  | conn (e : GoError)
  -- parseBondHelloLine
  | missingHello
  | fieldCountV1
  | fieldCountV2
  | numericField (raw : Bytes) (e : NumError)
  | unsupportedProtocol (token : Bytes)
  -- ValidateBondHelloTuning
  | mtuMismatch (client server : Int)
  | fecMismatch (clientData clientParity serverData serverParity : Int)
  -- WriteBondHelloReject, ReadBondHelloAck
  | invalidRejectionCode (code : Bytes)
  | unexpectedAck (line : Bytes)
  | rejected (code : Bytes)
  deriving DecidableEq, Repr

/-- `errors.Is(err, ErrBondHelloRejected)`: only a `BondHelloRejectionError`
    wraps it. -/
def HelloError.isRejection : HelloError → Bool
  | .rejected _ => true
  | _ => false

/-! ## Validation -/

/-- `validateFECShards`. -/
def validateFECShards (dataShards parityShards : Int) : Option HelloError :=
  if dataShards = 0 ∧ parityShards = 0 then none
  else if dataShards ≤ 0 ∨ parityShards ≤ 0 then some .fecNotPositive
  else if dataShards > 256 ∨ parityShards > 256 ∨ dataShards > 256 - parityShards then
    some .fecTotal
  else none

/-- `maxKCPMTU`. -/
def maxKCPMTU (dataShards parityShards : Int) : Int :=
  if dataShards > 0 ∧ parityShards > 0 then
    kcpXmitBufferSize - kcpCryptHeaderSize - kcpFECHeaderSize
  else kcpXmitBufferSize - kcpCryptHeaderSize

/-- The rune is between two characters. -/
def between (lo hi : Char) (r : Nat) : Bool := lo.toNat ≤ r && r ≤ hi.toNat

/-- One turn of the loop of `isValidBondID`. -/
def isHexRune (r : Nat) : Bool :=
  between 'a' 'f' r || between 'A' 'F' r || between '0' '9' r

/-- `isValidBondID`. -/
def isValidBondID (value : Bytes) : Bool :=
  if value.length < 8 ∨ value.length > 64 then false else (runes value).all isHexRune

/-- `isValidBondRejectionCode`. -/
def isValidBondRejectionCode (code : Bytes) : Bool :=
  if code.length < 1 ∨ code.length > 32 then false
  else (runes code).all fun r => between 'A' 'Z' r || between '0' '9' r || r == '_'.toNat

/-- `validateBondHello`. -/
def validateBondHello (hello : BondHello) : Option HelloError :=
  if !isValidBondID hello.bondID then some .invalidBondID
  else if hello.version = bondProtocolV1 then
    if hello.expectedPaths ≠ 0 ∨ hello.mtu ≠ 0 ∨ hello.fecDataShards ≠ 0 ∨
        hello.fecParityShards ≠ 0 then some .profileInV1
    else none
  else if hello.version = bondProtocolV2 then
    if hello.expectedPaths < 1 ∨ hello.expectedPaths > maxBondPaths then
      some (.expectedPathsRange maxBondPaths)
    else
      match validateFECShards hello.fecDataShards hello.fecParityShards with
      | some e => some (.fecProfile e)
      | none =>
          let maxMTU := maxKCPMTU hello.fecDataShards hello.fecParityShards
          if hello.mtu < minKCPMTU ∨ hello.mtu > maxMTU then
            some (.mtuRange minKCPMTU maxMTU)
          else none
  else some (.unsupportedVersion hello.version)

/-- The process-wide KCP settings that a hello is compared with. -/
structure Tuning where
  kcpMtu : Int
  kcpDataShards : Int
  kcpParityShards : Int
  deriving DecidableEq, Repr

/-- `CurrentBondHello`. -/
def currentBondHello (tuning : Tuning) (bondID : Bytes) (expectedPaths : Int) :
    BondHello where
  version := bondProtocolV2
  bondID := bondID
  expectedPaths := expectedPaths
  mtu := tuning.kcpMtu
  fecDataShards := tuning.kcpDataShards
  fecParityShards := tuning.kcpParityShards

/-- `ValidateBondHelloTuning`. -/
def validateBondHelloTuning (tuning : Tuning) (hello : BondHello) : Option HelloError :=
  match validateBondHello hello with
  | some e => some e
  | none =>
      if hello.version = bondProtocolV1 then none
      else if hello.mtu ≠ tuning.kcpMtu then
        some (.mtuMismatch hello.mtu tuning.kcpMtu)
      else if hello.fecDataShards ≠ tuning.kcpDataShards ∨
          hello.fecParityShards ≠ tuning.kcpParityShards then
        some (.fecMismatch hello.fecDataShards hello.fecParityShards
          tuning.kcpDataShards tuning.kcpParityShards)
      else none

/-! ## Control records on a connection -/

/-- What the calls that write one control record return.  `write` is `none`
    where `conn.Write` takes the record whole. -/
structure WriteEnd where
  setDeadline : Option GoError := none
  write : Option WriteResult := none
  resetDeadline : Option GoError := none
  deriving DecidableEq, Repr

/-- The error of writing a record, after the short-write test. -/
def WriteEnd.failure (conn : WriteEnd) (line : Bytes) : Option GoError :=
  match conn.write with
  | none => none
  | some r => r.failure line.length

/-- What the calls that read one control record return: `read` is the bytes
    that `conn.Read` left in a buffer of `maxBondHelloSize + 1`, and its
    error. -/
structure ReadEnd where
  setDeadline : Option GoError := none
  read : Bytes × Option GoError
  resetDeadline : Option GoError := none
  deriving DecidableEq, Repr

/-- `writeBondControlLine`: the records handed to `conn.Write`, and the error. -/
def writeBondControlLine (conn : WriteEnd) (line : Bytes) :
    List Bytes × Option HelloError :=
  if line.length > maxBondHelloSize ∨ hasSuffix line (ascii "\n") = false then
    ([], some .controlLength)
  else
    match conn.setDeadline with
    | some e => ([], some (.conn e))
    | none =>
        match conn.failure line with
        | some e => ([line], some (.conn e))
        | none => ([line], conn.resetDeadline.map .conn)

/-- `readBondControlLine`. -/
def readBondControlLine (conn : ReadEnd) : Bytes × Option HelloError :=
  match conn.setDeadline with
  | some e => ([], some (.conn e))
  | none =>
      let (record, err) := conn.read
      let err := match err with
        | some e => some e
        | none => conn.resetDeadline
      if record.length > maxBondHelloSize then ([], some (.exceeds maxBondHelloSize))
      else
        match err with
        | some e => ([], some (.conn e))
        | none =>
            if hasSuffix record (ascii "\n") = false then ([], some .unterminated)
            else (trimSpace record, none)

/-- The line of a hello. -/
def bondHelloLine (hello : BondHello) : Except HelloError Bytes :=
  if hello.version = bondProtocolV1 then
    .ok (join [bondHelloV1Token, hello.bondID] ++ ascii "\n")
  else if hello.version = bondProtocolV2 then
    .ok (join [bondHelloV2Token, hello.bondID, itoa hello.expectedPaths,
      itoa hello.mtu, itoa hello.fecDataShards, itoa hello.fecParityShards]
      ++ ascii "\n")
  else .error (.unsupportedVersion hello.version)

/-- `WriteBondHelloConfig`. -/
def writeBondHelloConfig (conn : WriteEnd) (hello : BondHello) :
    List Bytes × Option HelloError :=
  match validateBondHello hello with
  | some e => ([], some e)
  | none =>
      match bondHelloLine hello with
      | .error e => ([], some e)
      | .ok line => writeBondControlLine conn line

/-- `WriteBondHelloAck`. -/
def writeBondHelloAck (conn : WriteEnd) : List Bytes × Option HelloError :=
  writeBondControlLine conn bondHelloV2Ack

/-- `WriteBondHelloReject`. -/
def writeBondHelloReject (conn : WriteEnd) (code : Bytes) :
    List Bytes × Option HelloError :=
  if !isValidBondRejectionCode code then ([], some (.invalidRejectionCode code))
  else
    writeBondControlLine conn
      (join [bondHelloV2Token, bondHelloV2Error, code] ++ ascii "\n")

/-- The loop of `parseBondHelloLine` over the numeric fields. -/
def parseValues (arch : Arch) : List Bytes → Except HelloError (List Int)
  | [] => .ok []
  | raw :: rest =>
      match atoi arch.width raw with
      | .error e => .error (.numericField raw e)
      | .ok value =>
          match parseValues arch rest with
          | .error e => .error e
          | .ok values => .ok (value :: values)

/-- `parseBondHelloLine`. -/
def parseBondHelloLine (arch : Arch) (line : Bytes) : BondHello × Option HelloError :=
  match fields line with
  | [] => ({}, some .missingHello)
  | token :: rest =>
      if token = bondHelloV1Token then
        match rest with
        | [bondID] =>
            let hello : BondHello := { version := bondProtocolV1, bondID := bondID }
            (hello, validateBondHello hello)
        | _ => ({}, some .fieldCountV1)
      else if token = bondHelloV2Token then
        match rest with
        | [bondID, f2, f3, f4, f5] =>
            match parseValues arch [f2, f3, f4, f5] with
            | .error e => ({}, some e)
            | .ok values =>
                let hello : BondHello :=
                  { version := bondProtocolV2
                    bondID := bondID
                    expectedPaths := values.getD 0 0
                    mtu := values.getD 1 0
                    fecDataShards := values.getD 2 0
                    fecParityShards := values.getD 3 0 }
                (hello, validateBondHello hello)
        | _ => ({}, some .fieldCountV2)
      else ({}, some (.unsupportedProtocol token))

/-- `ReadBondHelloConfig`. -/
def readBondHelloConfig (arch : Arch) (conn : ReadEnd) :
    BondHello × Option HelloError :=
  match readBondControlLine conn with
  | (_, some e) => ({}, some e)
  | (line, none) => parseBondHelloLine arch line

/-- `ReadBondHelloAck`. -/
def readBondHelloAck (conn : ReadEnd) : Option HelloError :=
  match readBondControlLine conn with
  | (_, some e) => some e
  | (line, none) =>
      if line = trimSpace bondHelloV2Ack then none
      else
        match fields line with
        | [token, err, code] =>
            if token = bondHelloV2Token ∧ err = bondHelloV2Error ∧
                isValidBondRejectionCode code then some (.rejected code)
            else some (.unexpectedAck line)
        | _ => some (.unexpectedAck line)

/-- A connection that takes the record whole. -/
def wholeWrite : WriteEnd := {}

/-- A connection on which one `Read` returns one whole record, as far as the
    buffer of `maxBondHelloSize + 1` bytes holds it. -/
def wholeRead (record : Bytes) : ReadEnd where
  read := (record.take (maxBondHelloSize + 1), none)

/-! ## What a valid hello is -/

/-- A hexadecimal rune is visible ASCII. -/
theorem isHexRune_bounds {r : Nat} (h : isHexRune r = true) : 0x30 ≤ r ∧ r ≤ 0x66 := by
  have hch : 'a'.toNat = 97 ∧ 'f'.toNat = 102 ∧ 'A'.toNat = 65 ∧ 'F'.toNat = 70 ∧
      '0'.toNat = 48 ∧ '9'.toNat = 57 := by decide
  obtain ⟨h1, h2, h3, h4, h5, h6⟩ := hch
  simp only [isHexRune, between, Bool.or_eq_true, Bool.and_eq_true,
    decide_eq_true_eq, h1, h2, h3, h4, h5, h6] at h
  omega

/-- Runes between `0` and `f` make one word. -/
theorem word_of_runes {w : Bytes} (hne : w ≠ [])
    (hr : ∀ r ∈ runes w, 0x30 ≤ r ∧ r ≤ 0x66) : Word w := by
  obtain ⟨-, hruns⟩ := ascii_of_runes fun r hr' => lt_of_le_of_lt (hr r hr').2 (by decide)
  have hin : ∀ b ∈ w, within 0x30 0x66 b = true := by
    intro b hb
    have := hr b.toNat (by rw [hruns]; exact List.mem_map_of_mem hb)
    simpa [within] using this
  exact word_of_within hne (by decide) (by decide) hin

/-- A valid bond ID is one word of at most 64 bytes. -/
theorem word_of_isValidBondID {id : Bytes} (h : isValidBondID id = true) :
    Word id ∧ id.length ≤ 64 := by
  unfold isValidBondID at h
  split at h
  · cases h
  · rename_i hlen
    refine ⟨word_of_runes ?_ fun r hr => isHexRune_bounds (List.all_eq_true.mp h r hr), by omega⟩
    rintro rfl
    exact hlen (Or.inl (by decide))

theorem validateFECShards_bounds {d p : Int} (h : validateFECShards d p = none) :
    0 ≤ d ∧ d ≤ 256 ∧ 0 ≤ p ∧ p ≤ 256 := by
  unfold validateFECShards at h
  split at h
  · omega
  · split at h
    · cases h
    · split at h
      · cases h
      · omega

/-- The two kinds of valid hello. -/
theorem validateBondHello_cases {hello : BondHello} (h : validateBondHello hello = none) :
    isValidBondID hello.bondID = true ∧
      ((hello.version = bondProtocolV1 ∧ hello.expectedPaths = 0 ∧ hello.mtu = 0 ∧
          hello.fecDataShards = 0 ∧ hello.fecParityShards = 0) ∨
        (hello.version = bondProtocolV2 ∧
          1 ≤ hello.expectedPaths ∧ hello.expectedPaths ≤ maxBondPaths ∧
          minKCPMTU ≤ hello.mtu ∧ hello.mtu ≤ kcpXmitBufferSize ∧
          0 ≤ hello.fecDataShards ∧ hello.fecDataShards ≤ 256 ∧
          0 ≤ hello.fecParityShards ∧ hello.fecParityShards ≤ 256)) := by
  unfold validateBondHello at h
  split at h
  · cases h
  rename_i hid
  refine ⟨by simpa using hid, ?_⟩
  split at h
  · rename_i hv
    split at h
    · cases h
    · exact Or.inl ⟨hv, by omega⟩
  · split at h
    · rename_i hv
      split at h
      · cases h
      rename_i hpaths
      split at h
      · cases h
      rename_i hfec
      have hb := validateFECShards_bounds hfec
      have hmax : maxKCPMTU hello.fecDataShards hello.fecParityShards
          ≤ kcpXmitBufferSize := by
        unfold maxKCPMTU
        split <;> decide
      simp only at h
      split at h
      · cases h
      · exact Or.inr ⟨hv, by omega⟩
    · cases h

/-- A hello that fits the server's profile is valid, so a V2 one has asked for
    1 to 64 paths. -/
theorem validateBondHelloTuning_valid {tuning : Tuning} {hello : BondHello}
    (h : validateBondHelloTuning tuning hello = none) :
    validateBondHello hello = none ∧
      (hello.version = bondProtocolV2 →
        1 ≤ hello.expectedPaths ∧ hello.expectedPaths ≤ maxBondPaths) := by
  have hvalid : validateBondHello hello = none := by
    unfold validateBondHelloTuning at h
    split at h
    · cases h
    · assumption
  refine ⟨hvalid, ?_⟩
  intro hv
  rcases (validateBondHello_cases hvalid).2 with ⟨hv1, -⟩ | ⟨-, h1, h2, -⟩
  · exact absurd (hv1.symm.trans hv) (by decide)
  · exact ⟨h1, h2⟩

/-- A control line written without an error was written once. -/
theorem writeBondControlLine_ok {conn : WriteEnd} {line : Bytes} {rs : List Bytes}
    (h : writeBondControlLine conn line = (rs, none)) : rs = [line] := by
  unfold writeBondControlLine at h
  split at h
  · cases h
  · split at h
    · cases h
    · split at h
      · cases h
      · exact (Prod.mk.inj h).1.symm

/-- The record that rejects a hello. -/
def rejectRecord (code : Bytes) : Bytes :=
  join [bondHelloV2Token, bondHelloV2Error, code] ++ ascii "\n"

theorem writeBondHelloReject_ok {conn : WriteEnd} {code : Bytes} {rs : List Bytes}
    (h : writeBondHelloReject conn code = (rs, none)) :
    rs = [rejectRecord code] ∧ isValidBondRejectionCode code = true := by
  unfold writeBondHelloReject at h
  split at h
  · cases h
  · rename_i hvalid
    exact ⟨writeBondControlLine_ok h, by simpa using hvalid⟩

/-! ## The round trip -/

/-- A control line of words goes through a whole record unchanged. -/
theorem control_line_roundtrip {ws : List Bytes} (hw : ∀ w ∈ ws, Word w)
    (hne : ws ≠ []) (hlen : (join ws).length < maxBondHelloSize) :
    writeBondControlLine wholeWrite (join ws ++ ascii "\n")
        = ([join ws ++ ascii "\n"], none) ∧
      readBondControlLine (wholeRead (join ws ++ ascii "\n")) = (join ws, none) := by
  have hnl : ascii "\n" = [0x0A] := by decide
  have hsuf : hasSuffix (join ws ++ ascii "\n") (ascii "\n") = true :=
    List.isSuffixOf_iff_suffix.mpr (List.suffix_append ..)
  have hlen' : (join ws ++ ascii "\n").length ≤ maxBondHelloSize := by
    rw [hnl, List.length_append, List.length_singleton]
    exact hlen
  constructor
  · have hpass : ¬ ((join ws ++ ascii "\n").length > maxBondHelloSize ∨
        hasSuffix (join ws ++ ascii "\n") (ascii "\n") = false) := by
      rintro (hlong | hno)
      · omega
      · exact Bool.noConfusion (hsuf.symm.trans hno)
    rw [writeBondControlLine, if_neg hpass]
    rfl
  · have htake : (join ws ++ ascii "\n").take (maxBondHelloSize + 1)
        = join ws ++ ascii "\n" := List.take_of_length_le (by omega)
    show (if ((join ws ++ ascii "\n").take (maxBondHelloSize + 1)).length
      > maxBondHelloSize then _ else _) = _
    rw [htake, if_neg (by omega)]
    show (if hasSuffix (join ws ++ ascii "\n") (ascii "\n") = false then _ else _) = _
    rw [hsuf, if_neg Bool.noConfusion, hnl, trimSpace_line hw hne]

/-- A number of a valid hello is one word and reads back on every build. -/
theorem itoa_field (arch : Arch) {x : Int} (h0 : 0 ≤ x) (h1 : x ≤ kcpXmitBufferSize) :
    Word (itoa x) ∧ (itoa x).length ≤ 4 ∧ atoi arch.width (itoa x) = .ok x := by
  obtain ⟨n, rfl⟩ := Int.eq_ofNat_of_zero_le h0
  have hn : n ≤ 1500 := Int.ofNat_le.mp h1
  have hw : 1500 < 2 ^ (arch.width - 1) := by cases arch <;> decide
  exact ⟨word_decimal n, decimal_length (by decide) (lt_of_le_of_lt hn (by decide)),
    atoi_itoa (lt_of_le_of_lt hn hw)⟩

/-- What a hello is written as: a line of words short enough for a record, that
    parses back to the hello. -/
theorem bondHelloLine_words (arch : Arch) {hello : BondHello}
    (h : validateBondHello hello = none) :
    ∃ ws, bondHelloLine hello = .ok (join ws ++ ascii "\n") ∧ (∀ w ∈ ws, Word w) ∧
      ws ≠ [] ∧ (join ws).length < maxBondHelloSize ∧
      parseBondHelloLine arch (join ws) = (hello, none) := by
  obtain ⟨hid, hcases⟩ := validateBondHello_cases h
  obtain ⟨hword, hidlen⟩ := word_of_isValidBondID hid
  have htok : Word bondHelloV1Token ∧ Word bondHelloV2Token := by
    constructor <;> exact word_of_all (by decide) (by decide)
  obtain ⟨version, id, paths, mtu, d, p⟩ := hello
  rcases hcases with ⟨hv, hp, hm, hd, hpar⟩ | ⟨hv, hp1, hp2, hm1, hm2, hd1, hd2, hq1, hq2⟩
  · -- V1: the token and the ID
    simp only at hv hp hm hd hpar
    subst hv hp hm hd hpar
    have hws : ∀ w ∈ [bondHelloV1Token, id], Word w := by
      simpa using ⟨htok.1, hword⟩
    refine ⟨[bondHelloV1Token, id], rfl, hws, List.cons_ne_nil _ _, ?_, ?_⟩
    · have : (join [bondHelloV1Token, id]).length = 12 + (id.length + 1) := by
        rw [join_cons_cons, join_singleton, List.length_append, List.length_cons]
        rfl
      rw [this]
      show _ < 256
      simp only at hidlen
      omega
    · rw [parseBondHelloLine, fields_join hws]
      simp only [if_true]
      rw [h]
  · -- V2: the token, the ID and four numbers
    simp only at hv hp1 hp2 hm1 hm2 hd1 hd2 hq1 hq2
    subst hv
    have hmax : maxBondPaths = 64 ∧ minKCPMTU = 50 ∧ kcpXmitBufferSize = 1500 :=
      ⟨rfl, rfl, rfl⟩
    obtain ⟨w1, l1, r1⟩ := itoa_field arch (x := paths) (by omega) (by omega)
    obtain ⟨w2, l2, r2⟩ := itoa_field arch (x := mtu) (by omega) hm2
    obtain ⟨w3, l3, r3⟩ := itoa_field arch (x := d) hd1 (by omega)
    obtain ⟨w4, l4, r4⟩ := itoa_field arch (x := p) hq1 (by omega)
    have hws : ∀ w ∈ [bondHelloV2Token, id, itoa paths, itoa mtu, itoa d, itoa p],
        Word w := by
      simpa using ⟨htok.2, hword, w1, w2, w3, w4⟩
    refine ⟨_, rfl, hws, List.cons_ne_nil _ _, ?_, ?_⟩
    · have : (join [bondHelloV2Token, id, itoa paths, itoa mtu, itoa d, itoa p]).length
          = 12 + (id.length + 1 + ((itoa paths).length + 1 + ((itoa mtu).length + 1
            + ((itoa d).length + 1 + ((itoa p).length + 1))))) := by
        simp only [join_cons_cons, join_singleton, List.length_append, List.length_cons]
        have : bondHelloV2Token.length = 12 := by decide
        omega
      rw [this]
      show _ < 256
      simp only at hidlen
      omega
    · have hne : bondHelloV2Token ≠ bondHelloV1Token := by decide
      have hvals : parseValues arch [itoa paths, itoa mtu, itoa d, itoa p]
          = .ok [paths, mtu, d, p] := by
        simp only [parseValues, r1, r2, r3, r4]
      rw [parseBondHelloLine, fields_join hws]
      simp only [hne, hvals, if_true, if_false]
      exact Prod.ext rfl h

/-- A parsed line without an error gave a valid hello. -/
theorem parseBondHelloLine_valid {arch : Arch} {line : Bytes} {hello : BondHello}
    (h : parseBondHelloLine arch line = (hello, none)) :
    validateBondHello hello = none := by
  unfold parseBondHelloLine at h
  -- every branch without an error ends in `validateBondHello`
  have hsame : ∀ hello', (hello', validateBondHello hello') = (hello, none) →
      validateBondHello hello = none := by
    intro hello' he
    obtain ⟨rfl, hv⟩ := Prod.mk.inj he
    exact hv
  split at h
  · cases h
  · split at h
    · split at h
      · exact hsame _ h
      · cases h
    · split at h
      · split at h
        · split at h
          · cases h
          · exact hsame _ h
        · cases h
      · cases h

/-- So did a record that was accepted. -/
theorem readBondHelloConfig_valid {arch : Arch} {conn : ReadEnd} {hello : BondHello}
    (h : readBondHelloConfig arch conn = (hello, none)) :
    validateBondHello hello = none := by
  unfold readBondHelloConfig at h
  split at h
  · cases h
  · exact parseBondHelloLine_valid h

/-- One hello there and back. -/
theorem bondHello_roundtrip (arch : Arch) {hello : BondHello}
    (h : validateBondHello hello = none) :
    ∃ record, writeBondHelloConfig wholeWrite hello = ([record], none) ∧
      record.length ≤ maxBondHelloSize ∧
      readBondHelloConfig arch (wholeRead record) = (hello, none) := by
  obtain ⟨ws, hline, hw, hne, hlen, hparse⟩ := bondHelloLine_words arch h
  obtain ⟨hwrite, hread⟩ := control_line_roundtrip hw hne hlen
  refine ⟨join ws ++ ascii "\n", ?_, ?_, ?_⟩
  · rw [writeBondHelloConfig, h, hline]
    exact hwrite
  · rw [List.length_append]
    exact hlen
  · rw [readBondHelloConfig, hread]
    exact hparse

/-- **CODEC**: every valid hello is written as one record of at most 256 bytes
    that reads back as the same hello; every record that is accepted gives a
    valid hello, which written and read again is the same hello. -/
theorem bondHello_codec (arch : Arch) :
    (∀ hello, validateBondHello hello = none →
      ∃ record, writeBondHelloConfig wholeWrite hello = ([record], none) ∧
        record.length ≤ maxBondHelloSize ∧
        readBondHelloConfig arch (wholeRead record) = (hello, none)) ∧
    (∀ record hello, readBondHelloConfig arch (wholeRead record) = (hello, none) →
      validateBondHello hello = none ∧
      ∃ record', writeBondHelloConfig wholeWrite hello = ([record'], none) ∧
        readBondHelloConfig arch (wholeRead record') = (hello, none)) := by
  refine ⟨fun hello h => bondHello_roundtrip arch h, ?_⟩
  intro record hello hread
  have hvalid := readBondHelloConfig_valid hread
  obtain ⟨record', hwrite, -, hback⟩ := bondHello_roundtrip arch hvalid
  exact ⟨hvalid, record', hwrite, hback⟩

/-- A record with tabs, a sign and leading zeros is accepted, and normalised by
    writing it again. -/
theorem bondHello_codec_normalises :
    ∃ record', writeBondHelloConfig wholeWrite
        { version := 2, bondID := ascii "0123abCD", expectedPaths := 4, mtu := 1200 }
          = ([record'], none) ∧
      record' = ascii "VKTURNBOND/2 0123abCD 4 1200 0 0\n" ∧
      readBondHelloConfig .bits32 (wholeRead record')
        = ({ version := 2, bondID := ascii "0123abCD", expectedPaths := 4, mtu := 1200 },
            none) := by
  have hread : readBondHelloConfig .bits32
      (wholeRead (ascii " VKTURNBOND/2\t0123abCD +4 01200 -0  0\r\n"))
      = ({ version := 2, bondID := ascii "0123abCD", expectedPaths := 4, mtu := 1200 },
          none) := by decide
  obtain ⟨-, record', hwrite, hback⟩ := (bondHello_codec .bits32).2 _ _ hread
  refine ⟨record', hwrite, ?_, hback⟩
  have hline : writeBondHelloConfig wholeWrite
      { version := 2, bondID := ascii "0123abCD", expectedPaths := 4, mtu := 1200 }
      = ([ascii "VKTURNBOND/2 0123abCD 4 1200 0 0\n"], none) := by decide
  rw [hline] at hwrite
  exact (List.cons.inj (Prod.mk.inj hwrite).1).1.symm

end VkTurnBondHello
