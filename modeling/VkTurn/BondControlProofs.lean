import VkTurn.BondHelloProofs

/-! # The control records of protocol version 2

    Hello, acknowledgement and rejection begin with the same token and are told
    apart by the number of their fields and by what stands in the second one.  A
    rejection code may spell OK, a bond ID may look like a code.

    The three readings of a line exclude each other (`hello_not_answer`), so that
    no record is taken for one of another kind, on either side. -/

namespace VkTurnBondControl

open VkTurnStripe VkTurnBond VkTurnBondHello GoText

/-! ## Rejection codes -/

/-- A valid rejection code is one word of at most 32 bytes. -/
theorem word_of_isValidBondRejectionCode {code : Bytes}
    (h : isValidBondRejectionCode code = true) : Word code ∧ code.length ≤ 32 := by
  have hch : 'A'.toNat = 65 ∧ 'Z'.toNat = 90 ∧ '0'.toNat = 48 ∧ '9'.toNat = 57 ∧
      '_'.toNat = 95 := by decide
  obtain ⟨h1, h2, h3, h4, h5⟩ := hch
  unfold isValidBondRejectionCode at h
  split at h
  · cases h
  · rename_i hlen
    refine ⟨word_of_runes ?_ ?_, by omega⟩
    · rintro rfl
      exact hlen (Or.inl (by decide))
    · intro r hr
      have hin := List.all_eq_true.mp h r hr
      simp only [between, Bool.or_eq_true, Bool.and_eq_true, decide_eq_true_eq,
        beq_iff_eq, h1, h2, h3, h4, h5] at hin
      omega

/-- The words of a rejection. -/
theorem rejection_words {code : Bytes} (h : isValidBondRejectionCode code = true) :
    (∀ w ∈ [bondHelloV2Token, bondHelloV2Error, code], Word w) ∧
      (join [bondHelloV2Token, bondHelloV2Error, code]).length < maxBondHelloSize := by
  obtain ⟨hword, hlen⟩ := word_of_isValidBondRejectionCode h
  have htok : Word bondHelloV2Token ∧ Word bondHelloV2Error := by
    constructor <;> exact word_of_all (by decide) (by decide)
  refine ⟨by simpa using ⟨htok.1, htok.2, hword⟩, ?_⟩
  have hsizes : bondHelloV2Token.length = 12 ∧ bondHelloV2Error.length = 3 := by decide
  simp only [join_cons_cons, join_singleton, List.length_append, List.length_cons]
  show _ < 256
  omega

/-! ## What a line says to the client -/

/-- The text of an acknowledgement. -/
theorem trimSpace_ack : trimSpace bondHelloV2Ack = ascii "VKTURNBOND/2 OK" := by decide

/-- A line that `ReadBondHelloAck` takes for an answer: an acknowledgement, or the
    rejection with a code. -/
def Answers (line : Bytes) : Option Bytes → Prop
  | none => line = trimSpace bondHelloV2Ack
  | some code => fields line = [bondHelloV2Token, bondHelloV2Error, code]

/-- What the result of `ReadBondHelloAck` says about the line. -/
theorem answers_of_readBondHelloAck {conn : ReadEnd} {line : Bytes}
    (hline : readBondControlLine conn = (line, none)) :
    (readBondHelloAck conn = none → Answers line none) ∧
      ∀ code, readBondHelloAck conn = some (.rejected code) → Answers line (some code) := by
  refine ⟨?_, ?_⟩
  · intro h
    simp only [readBondHelloAck, hline] at h
    split at h
    · assumption
    · split at h
      · split at h <;> cases h
      · cases h
  · intro code h
    simp only [readBondHelloAck, hline] at h
    split at h
    · cases h
    · split at h
      · rename_i hfields
        split at h
        · rename_i hmatch
          obtain ⟨rfl, rfl, -⟩ := hmatch
          cases h
          exact hfields
        · cases h
      · cases h

/-- An error of the connection is no answer. -/
theorem no_line_no_answer {conn : ReadEnd} {line : Bytes} {e : HelloError}
    (hline : readBondControlLine conn = (line, some e)) : readBondHelloAck conn = some e := by
  rw [readBondHelloAck, hline]

/-- **A HELLO IS NO ANSWER**: no line is both a hello and an answer. -/
theorem hello_not_answer {arch : Arch} {line : Bytes} {hello : BondHello}
    (h : parseBondHelloLine arch line = (hello, none)) (answer : Option Bytes) :
    ¬ Answers line answer := by
  intro ha
  cases answer with
  | none =>
      have hfields : fields line = [bondHelloV2Token, ascii "OK"] := by
        rw [show line = trimSpace bondHelloV2Ack from ha]
        decide
      have hne : bondHelloV2Token ≠ bondHelloV1Token := by decide
      rw [parseBondHelloLine, hfields] at h
      simp only [hne, if_true, if_false] at h
      cases h
  | some code =>
      have hfields : fields line = [bondHelloV2Token, bondHelloV2Error, code] := ha
      have hne : bondHelloV2Token ≠ bondHelloV1Token := by decide
      rw [parseBondHelloLine, hfields] at h
      simp only [hne, if_true, if_false] at h
      cases h

/-! ## Records -/

/-- The line of a whole record: at most 256 bytes that end in a newline. -/
theorem readBondControlLine_whole (record : Bytes) :
    readBondControlLine (wholeRead record) =
      if maxBondHelloSize < record.length then ([], some (.exceeds maxBondHelloSize))
      else if hasSuffix record (ascii "\n") = false then ([], some .unterminated)
      else (trimSpace record, none) := by
  rw [wholeRead]
  by_cases hlen : maxBondHelloSize < record.length
  · have htake : (record.take (maxBondHelloSize + 1)).length > maxBondHelloSize := by
      rw [List.length_take]
      omega
    simp only [readBondControlLine, if_pos htake, if_pos hlen]
  · have htake : record.take (maxBondHelloSize + 1) = record :=
      List.take_of_length_le (by omega)
    simp only [readBondControlLine, htake, if_neg hlen]

/-- When a record is an acknowledgement. -/
theorem readBondHelloAck_whole (record : Bytes) :
    readBondHelloAck (wholeRead record) = none ↔
      hasSuffix record (ascii "\n") = true ∧ record.length ≤ maxBondHelloSize ∧
        trimSpace record = ascii "VKTURNBOND/2 OK" := by
  have hline := readBondControlLine_whole record
  by_cases hlen : maxBondHelloSize < record.length
  · rw [if_pos hlen] at hline
    rw [no_line_no_answer hline]
    constructor
    · intro h
      cases h
    · rintro ⟨-, hle, -⟩
      omega
  · rw [if_neg hlen] at hline
    cases hend : hasSuffix record (ascii "\n") with
    | false =>
        rw [hend, if_pos rfl] at hline
        rw [no_line_no_answer hline]
        constructor
        · intro h
          cases h
        · rintro ⟨h, -, -⟩
          cases h
    | true =>
        rw [hend, if_neg Bool.noConfusion] at hline
        constructor
        · intro h
          have htext := (answers_of_readBondHelloAck hline).1 h
          exact ⟨rfl, by omega, htext.trans trimSpace_ack⟩
        · rintro ⟨-, -, htext⟩
          rw [readBondHelloAck, hline]
          exact if_pos (htext.trans trimSpace_ack.symm)

/-- A rejection goes through a whole record. -/
theorem rejection_roundtrip {code : Bytes} (h : isValidBondRejectionCode code = true) :
    writeBondHelloReject wholeWrite code = ([rejectRecord code], none) ∧
      readBondHelloAck (wholeRead (rejectRecord code)) = some (.rejected code) := by
  obtain ⟨hw, hlen⟩ := rejection_words h
  obtain ⟨hwrite, hread⟩ := control_line_roundtrip hw (List.cons_ne_nil _ _) hlen
  have hfields := fields_join hw
  refine ⟨?_, ?_⟩
  · rw [writeBondHelloReject, h]
    exact hwrite
  · -- three fields are not the two of an acknowledgement
    have hne : join [bondHelloV2Token, bondHelloV2Error, code] ≠ trimSpace bondHelloV2Ack := by
      intro heq
      have hack : fields (trimSpace bondHelloV2Ack) = [bondHelloV2Token, ascii "OK"] := by
        decide
      rw [← heq, hfields] at hack
      cases hack
    simp only [rejectRecord, readBondHelloAck, hread, if_neg hne, hfields, h, true_and,
      if_true]

/-- The record of a hello is no answer. -/
theorem hello_unanswering {hello : BondHello} (h : validateBondHello hello = none) :
    ∃ record, writeBondHelloConfig wholeWrite hello = ([record], none) ∧
      ∃ e, readBondHelloAck (wholeRead record) = some e ∧ e.isRejection = false := by
  obtain ⟨ws, hline, hw, hne, hlen, hparse⟩ := bondHelloLine_words .bits64 h
  obtain ⟨hwrite, hread⟩ := control_line_roundtrip hw hne hlen
  refine ⟨join ws ++ ascii "\n", ?_, ?_⟩
  · rw [writeBondHelloConfig, h, hline]
    exact hwrite
  · obtain ⟨hnone, hsome⟩ := answers_of_readBondHelloAck hread
    cases hres : readBondHelloAck (wholeRead (join ws ++ ascii "\n")) with
    | none => exact absurd (hnone hres) (hello_not_answer hparse none)
    | some e =>
        refine ⟨e, rfl, ?_⟩
        cases e with
        | rejected code => exact absurd (hsome code hres) (hello_not_answer hparse (some code))
        | _ => rfl

/-- **UNAMBIGUOUS CONTROL RECORDS**:

    * the record written for a valid rejection code, on any connection, reads back as
      the rejection with that code;
    * a record is an acknowledgement if and only if it ends in a newline, has at most
      256 bytes and says OK;
    * the record of a valid hello is neither an acknowledgement nor a rejection;
    * the line of an acknowledgement or of a rejection is no hello. -/
theorem control_records_unambiguous (arch : Arch) :
    (∀ code, isValidBondRejectionCode code = true →
      (writeBondHelloReject wholeWrite code).2 = none ∧
      ∀ conn rs, writeBondHelloReject conn code = (rs, none) →
        ∃ record, rs = [record] ∧
          readBondHelloAck (wholeRead record) = some (.rejected code)) ∧
    (∀ record, readBondHelloAck (wholeRead record) = none ↔
      hasSuffix record (ascii "\n") = true ∧ record.length ≤ maxBondHelloSize ∧
        trimSpace record = ascii "VKTURNBOND/2 OK") ∧
    (∀ hello, validateBondHello hello = none →
      ∃ record, writeBondHelloConfig wholeWrite hello = ([record], none) ∧
        ∃ e, readBondHelloAck (wholeRead record) = some e ∧ e.isRejection = false) ∧
    (∀ conn line, readBondControlLine conn = (line, none) →
      (readBondHelloAck conn = none ∨ ∃ code, readBondHelloAck conn = some (.rejected code)) →
      (parseBondHelloLine arch line).2 ≠ none) := by
  refine ⟨?_, readBondHelloAck_whole, fun hello h => hello_unanswering h, ?_⟩
  · intro code h
    obtain ⟨hwrite, hread⟩ := rejection_roundtrip h
    refine ⟨by rw [hwrite], ?_⟩
    intro conn rs hrs
    exact ⟨rejectRecord code, (writeBondHelloReject_ok hrs).1, hread⟩
  · rintro conn line hline hanswer hparse
    obtain ⟨hnone, hsome⟩ := answers_of_readBondHelloAck hline
    have hhello : parseBondHelloLine arch line = ((parseBondHelloLine arch line).1, none) :=
      Prod.ext rfl hparse
    rcases hanswer with hack | ⟨code, hrej⟩
    · exact hello_not_answer hhello none (hnone hack)
    · exact hello_not_answer hhello (some code) (hsome code hrej)

/-- A rejection whose code spells OK is a rejection. -/
theorem code_ok_rejected :
    isValidBondRejectionCode (ascii "OK") = true ∧
      ∃ record, writeBondHelloReject wholeWrite (ascii "OK") = ([record], none) ∧
        readBondHelloAck (wholeRead record) = some (.rejected (ascii "OK")) := by
  have hvalid : isValidBondRejectionCode (ascii "OK") = true := by decide
  have hwrite : writeBondHelloReject wholeWrite (ascii "OK")
      = ([ascii "VKTURNBOND/2 ERR OK\n"], none) := by decide
  obtain ⟨record, hrs, hread⟩ :=
    ((control_records_unambiguous .bits32).1 _ hvalid).2 wholeWrite _ hwrite
  exact ⟨hvalid, record, hwrite.trans (by rw [hrs]), hread⟩

end VkTurnBondControl
