import Mathlib.Data.List.DropRight
import Mathlib.Data.List.Forall2
import Mathlib.Tactic

/-! # Go strings: runes, fields, decimals, hex and queries

    A Go string is a sequence of BYTES.  The text functions of the standard
    library decode it rune by rune, a byte that starts no encoding counting as
    one replacement rune.  This file has the ones that line protocols are built
    from (`range`, `strings.Fields`, `strings.TrimSpace`, `strings.HasSuffix`,
    `strconv.Atoi`, `%d`, `encoding/hex`) and the round trips that such a protocol
    needs: `fields_join` (words joined by blanks split again into the same words),
    `trimSpace_line` (the end of the line comes off and nothing else does),
    `atoi_itoa` (a decimal that fits the build's `int` reads back) and
    `hexDecode_hexEncode`; and `trimSpace_trimSpace`, for code that trims twice.
    `hexDecode_iff` says which texts the decoder accepts.

    At the end come what forms are read and written with: splitting at a separator and
    at its first occurrence (`cut`), `strings.ToLower`, `url.QueryUnescape` and
    `url.QueryEscape`. -/

namespace GoText

/-- A Go string. -/
abbrev Bytes := List UInt8

/-- A string literal of ASCII characters. -/
def ascii (s : String) : Bytes := s.toList.map fun c => UInt8.ofNat c.toNat

/-! ## Runes -/

/-- `utf8.RuneError`. -/
def runeError : Nat := 0xFFFD

/-- For the first byte of a longer encoding: its width, and the range of the
    second byte.  The ranges rule out overlong forms and surrogates. -/
def leading (x : Nat) : Option (Nat × Nat × Nat) :=
  if 0xC2 ≤ x ∧ x ≤ 0xDF then some (2, 0x80, 0xBF)
  else if x = 0xE0 then some (3, 0xA0, 0xBF)
  else if x = 0xED then some (3, 0x80, 0x9F)
  else if 0xE1 ≤ x ∧ x ≤ 0xEF then some (3, 0x80, 0xBF)
  else if x = 0xF0 then some (4, 0x90, 0xBF)
  else if 0xF1 ≤ x ∧ x ≤ 0xF3 then some (4, 0x80, 0xBF)
  else if x = 0xF4 then some (4, 0x80, 0x8F)
  else none

/-- The byte is in the range. -/
def within (lo hi : Nat) (b : UInt8) : Bool := lo ≤ b.toNat && b.toNat ≤ hi

/-- `utf8.DecodeRuneInString`: the first rune and its width in bytes. -/
def decodeRune : Bytes → Nat × Nat
  | [] => (runeError, 0)
  | b :: rest =>
      if b.toNat < 0x80 then (b.toNat, 1)
      else
        match leading b.toNat, rest with
        | some (2, lo, hi), c :: _ =>
            if within lo hi c then
              ((b.toNat - 0xC0) * 0x40 + (c.toNat - 0x80), 2)
            else (runeError, 1)
        | some (3, lo, hi), c :: d :: _ =>
            if within lo hi c && within 0x80 0xBF d then
              ((b.toNat - 0xE0) * 0x1000 + (c.toNat - 0x80) * 0x40
                + (d.toNat - 0x80), 3)
            else (runeError, 1)
        | some (4, lo, hi), c :: d :: e :: _ =>
            if within lo hi c && within 0x80 0xBF d && within 0x80 0xBF e then
              ((b.toNat - 0xF0) * 0x40000 + (c.toNat - 0x80) * 0x1000
                + (d.toNat - 0x80) * 0x40 + (e.toNat - 0x80), 4)
            else (runeError, 1)
        | _, _ => (runeError, 1)

/-- `for _, r := range s`: the runes of a string.  The number is how many bytes
    of the last rune are still to be skipped. -/
def runesAfter : Nat → Bytes → List Nat
  | _, [] => []
  | 0, b :: rest =>
      (decodeRune (b :: rest)).1 :: runesAfter ((decodeRune (b :: rest)).2 - 1) rest
  | n + 1, _ :: rest => runesAfter n rest

/-- The runes of a string. -/
def runes (s : Bytes) : List Nat := runesAfter 0 s

theorem decodeRune_ascii {b : UInt8} (h : b.toNat < 0x80) (rest : Bytes) :
    decodeRune (b :: rest) = (b.toNat, 1) := by
  simp only [decodeRune]
  rw [if_pos h]

/-- Where the second byte of an encoding starts, the value is past ASCII. -/
theorem leading_bounds {x w lo hi : Nat} (h : leading x = some (w, lo, hi)) :
    0x80 ≤ lo ∧ (w = 2 → 0xC2 ≤ x) ∧ (w = 3 → 0xE1 ≤ x ∨ 0xA0 ≤ lo) ∧
      (w = 4 → 0xF1 ≤ x ∨ 0x90 ≤ lo) := by
  unfold leading at h
  split_ifs at h <;>
    simp only [Option.some.injEq, Prod.mk.injEq] at h <;>
    obtain ⟨rfl, rfl, rfl⟩ := h <;> omega

/-- A byte past ASCII never decodes to an ASCII rune. -/
theorem decodeRune_ge {b : UInt8} (h : 0x80 ≤ b.toNat) (rest : Bytes) :
    0x80 ≤ (decodeRune (b :: rest)).1 := by
  simp only [decodeRune]
  rw [if_neg (by omega)]
  split
  · rename_i hl
    have hb := leading_bounds hl
    split
    · omega
    · exact (by decide : 0x80 ≤ runeError)
  · rename_i lo hi c d _ hl
    have hb := leading_bounds hl
    split
    · rename_i hin
      simp only [within, Bool.and_eq_true, decide_eq_true_eq] at hin
      show 0x80 ≤ _ + _ + _
      omega
    · exact (by decide : 0x80 ≤ runeError)
  · rename_i lo hi c d e _ hl
    have hb := leading_bounds hl
    split
    · rename_i hin
      simp only [within, Bool.and_eq_true, decide_eq_true_eq] at hin
      show 0x80 ≤ _ + _ + _ + _
      omega
    · exact (by decide : 0x80 ≤ runeError)
  · exact (by decide : 0x80 ≤ runeError)

/-- The first rune is decoded from its own bytes. -/
theorem decodeRune_append {b : UInt8} {x y : Bytes}
    (h : (decodeRune (b :: (x ++ y))).2 ≤ x.length + 1) :
    decodeRune (b :: x) = decodeRune (b :: (x ++ y)) := by
  simp only [decodeRune] at h ⊢
  by_cases hb : b.toNat < 0x80
  · rw [if_pos hb, if_pos hb]
  rw [if_neg hb] at h
  rw [if_neg hb, if_neg hb]
  -- a shorter string decodes differently only where the rune is cut
  generalize leading b.toNat = l at h ⊢
  rcases l with _ | ⟨_ | _ | _ | _ | _ | w, lo, hi⟩ <;>
    rcases x with _ | ⟨c, _ | ⟨d, _ | ⟨e, x⟩⟩⟩ <;>
    rcases y with _ | ⟨c', _ | ⟨d', _ | ⟨e', y⟩⟩⟩ <;>
    first
    | rfl
    | (simp only [List.nil_append, List.cons_append, List.length_nil, List.length_cons] at h ⊢
       split at h
       · dsimp only at h
         omega
       · rw [if_neg ‹_›])

theorem decodeRune_width (s : Bytes) : (decodeRune s).2 ≤ s.length := by
  cases s with
  | nil => exact Nat.le_refl _
  | cons b rest =>
      simp only [decodeRune]
      repeat' split
      all_goals simp only [List.length_cons]; omega

/-- A string whose runes are all ASCII is a string of ASCII bytes, and its runes
    are its bytes. -/
theorem ascii_of_runes {s : Bytes} (h : ∀ r ∈ runes s, r < 0x80) :
    (∀ b ∈ s, b.toNat < 0x80) ∧ runes s = s.map UInt8.toNat := by
  induction s with
  | nil => exact ⟨fun b hb => (by cases hb), rfl⟩
  | cons b rest ih =>
      have hhead : (decodeRune (b :: rest)).1 < 0x80 := h _ (List.mem_cons_self ..)
      have hb : b.toNat < 0x80 := by
        by_contra hge
        have := decodeRune_ge (Nat.le_of_not_lt hge) rest
        omega
      have hruns : runes (b :: rest) = b.toNat :: runes rest := by
        show (decodeRune (b :: rest)).1
          :: runesAfter ((decodeRune (b :: rest)).2 - 1) rest = _
        rw [decodeRune_ascii hb]
        rfl
      rw [hruns] at h ⊢
      obtain ⟨h1, h2⟩ := ih fun r hr => h r (List.mem_cons_of_mem _ hr)
      refine ⟨?_, by rw [h2]; rfl⟩
      intro c hc
      rcases List.mem_cons.mp hc with rfl | hc
      · exact hb
      · exact h1 c hc

/-! ## White space -/

/-- `unicode.IsSpace`. -/
def isSpace (r : Nat) : Bool :=
  (0x09 ≤ r && r ≤ 0x0D) || r == 0x20 || r == 0x85 || r == 0xA0 || r == 0x1680
    || (0x2000 ≤ r && r ≤ 0x200A) || r == 0x2028 || r == 0x2029 || r == 0x202F
    || r == 0x205F || r == 0x3000

/-- Each byte with whether the rune that it is part of is white space.  The
    number and the flag are what is left of the last rune. -/
def taggedAfter : Nat → Bool → Bytes → List (UInt8 × Bool)
  | _, _, [] => []
  | 0, _, b :: rest =>
      let d := decodeRune (b :: rest)
      (b, isSpace d.1) :: taggedAfter (d.2 - 1) (isSpace d.1) rest
  | n + 1, sp, b :: rest => (b, sp) :: taggedAfter n sp rest

/-- The bytes of a string, those of white space tagged. -/
def tagged (s : Bytes) : List (UInt8 × Bool) := taggedAfter 0 false s

/-- The untagged stretches, where `cur` is the stretch begun. -/
def stretches : Bytes → List (UInt8 × Bool) → List Bytes
  | [], [] => []
  | cur, [] => [cur]
  | cur, (b, false) :: rest => stretches (cur ++ [b]) rest
  | [], (_, true) :: rest => stretches [] rest
  | cur, (_, true) :: rest => cur :: stretches [] rest

/-- `strings.Fields`. -/
def fields (s : Bytes) : List Bytes := stretches [] (tagged s)

/-- `strings.TrimSpace`.  The last rune is the same whether a string is decoded
    forwards or backwards: a first byte of an encoding is never inside one. -/
def trimSpace (s : Bytes) : Bytes :=
  (((tagged s).dropWhile Prod.snd).rdropWhile Prod.snd).map Prod.fst

/-- `strings.HasSuffix`. -/
def hasSuffix (s suffix : Bytes) : Bool := suffix.isSuffixOf s

/-- An ASCII string is tagged byte by byte. -/
theorem tagged_ascii {s : Bytes} (h : ∀ b ∈ s, b.toNat < 0x80) :
    tagged s = s.map fun b => (b, isSpace b.toNat) := by
  have hany : ∀ sp, taggedAfter 0 sp s = s.map fun b => (b, isSpace b.toNat) := by
    induction s with
    | nil => intro sp; rfl
    | cons b rest ih =>
        intro sp
        have hd := decodeRune_ascii (h b (List.mem_cons_self ..)) rest
        show (b, isSpace (decodeRune (b :: rest)).1)
          :: taggedAfter ((decodeRune (b :: rest)).2 - 1) _ rest = _
        rw [hd]
        exact congrArg _ (ih (fun c hc => h c (List.mem_cons_of_mem _ hc)) _)
  exact hany false

/-- A non-empty string of visible ASCII. -/
structure Word (w : Bytes) : Prop where
  nonempty : w ≠ []
  ascii : ∀ b ∈ w, b.toNat < 0x80
  visible : ∀ b ∈ w, isSpace b.toNat = false

/-- A word, by looking at its bytes. -/
theorem word_of_all {w : Bytes} (hne : w ≠ [])
    (h : (w.all fun b => decide (b.toNat < 0x80) && !isSpace b.toNat) = true) : Word w := by
  have hall : ∀ b ∈ w, b.toNat < 0x80 ∧ isSpace b.toNat = false := by
    simpa using h
  exact ⟨hne, fun b hb => (hall b hb).1, fun b hb => (hall b hb).2⟩

/-- Words with one blank between them. -/
def join (ws : List Bytes) : Bytes := [0x20].intercalate ws

theorem join_cons_cons (w v : Bytes) (ws : List Bytes) :
    join (w :: v :: ws) = w ++ 0x20 :: join (v :: ws) := by
  simp [join, List.intercalate]

theorem join_singleton (w : Bytes) : join [w] = w := by
  simp [join, List.intercalate]

theorem join_ascii {ws : List Bytes} (hw : ∀ w ∈ ws, Word w) :
    ∀ b ∈ join ws, b.toNat < 0x80 := by
  induction ws with
  | nil => intro b hb; cases hb
  | cons w ws ih =>
      have hword := hw w (List.mem_cons_self ..)
      cases ws with
      | nil => rw [join_singleton]; exact hword.ascii
      | cons v ws =>
          rw [join_cons_cons]
          intro b hb
          rcases List.mem_append.mp hb with hb | hb
          · exact hword.ascii b hb
          rcases List.mem_cons.mp hb with rfl | hb
          · decide
          · exact ih (fun u hu => hw u (List.mem_cons_of_mem _ hu)) b hb

/-- A stretch of visible bytes is taken whole. -/
theorem stretches_visible {w : Bytes} (hv : ∀ b ∈ w, isSpace b.toNat = false) :
    ∀ (cur : Bytes) (rest : List (UInt8 × Bool)),
      stretches cur (w.map (fun b => (b, isSpace b.toNat)) ++ rest)
        = stretches (cur ++ w) rest := by
  induction w with
  | nil => intro cur rest; rw [List.append_nil]; rfl
  | cons b w ih =>
      intro cur rest
      have hb := hv b (List.mem_cons_self ..)
      rw [List.map_cons, hb, List.cons_append, stretches,
        ih (fun c hc => hv c (List.mem_cons_of_mem _ hc)), List.append_assoc]
      rfl

/-- **SPLITTING**: words joined by blanks split into the same words. -/
theorem fields_join {ws : List Bytes} (hw : ∀ w ∈ ws, Word w) :
    fields (join ws) = ws := by
  rw [fields, tagged_ascii (join_ascii hw)]
  induction ws with
  | nil => rfl
  | cons w ws ih =>
      have hword := hw w (List.mem_cons_self ..)
      obtain ⟨b, w', rfl⟩ : ∃ b w', w = b :: w' := by
        cases w with
        | nil => exact absurd rfl hword.nonempty
        | cons b w' => exact ⟨b, w', rfl⟩
      cases ws with
      | nil =>
          have h := stretches_visible hword.visible [] []
          rw [List.append_nil] at h
          rw [join_singleton, h]
          rfl
      | cons v ws =>
          have h := ih fun u hu => hw u (List.mem_cons_of_mem _ hu)
          rw [join_cons_cons, List.map_append, stretches_visible hword.visible,
            List.map_cons]
          show (b :: w') :: stretches [] _ = _
          rw [h]

/-- Nothing but the end of the line comes off a line that starts and ends with a
    visible byte. -/
theorem trimSpace_newline {s : Bytes} (ha : ∀ b ∈ s, b.toNat < 0x80)
    (hhead : ∀ b ∈ s.head?, isSpace b.toNat = false)
    (hlast : ∀ b ∈ s.getLast?, isSpace b.toNat = false) (hne : s ≠ []) :
    trimSpace (s ++ [0x0A]) = s := by
  have ha' : ∀ b ∈ s ++ [(0x0A : UInt8)], b.toNat < 0x80 := by
    intro b hb
    rcases List.mem_append.mp hb with hb | hb
    · exact ha b hb
    · rw [List.mem_singleton.mp hb]; decide
  rw [trimSpace, tagged_ascii ha', List.map_append]
  -- the first byte stays
  have hleft : (s.map (fun b => (b, isSpace b.toNat))
      ++ [(0x0A : UInt8)].map (fun b => (b, isSpace b.toNat))).dropWhile Prod.snd
      = s.map (fun b => (b, isSpace b.toNat)) ++ [(0x0A, true)] := by
    cases s with
    | nil => exact absurd rfl hne
    | cons b rest =>
        have hb := hhead b rfl
        rw [List.map_cons, List.cons_append, List.dropWhile_cons, hb]
        rfl
  -- the last byte stays, once the newline is off
  have hright : (s.map (fun b => (b, isSpace b.toNat))).rdropWhile Prod.snd
      = s.map (fun b => (b, isSpace b.toNat)) := by
    rw [List.rdropWhile_eq_self_iff]
    intro hl
    rw [List.getLast_map, hlast _ (List.getLast?_eq_some_getLast hne)]
    exact Bool.false_ne_true
  rw [hleft, List.rdropWhile_concat, if_pos rfl, hright, List.map_map]
  exact List.map_id s

/-! ## Trimming twice -/

/-- Leading white space comes off rune by rune. -/
theorem dropWhile_tagged (s : Bytes) (n : Nat) :
    ∃ s', (taggedAfter n true s).dropWhile Prod.snd = tagged s' := by
  induction s generalizing n with
  | nil => exact ⟨[], by cases n <;> rfl⟩
  | cons b rest ih =>
      cases n with
      | succ n => exact ih n
      | zero =>
          by_cases hsp : isSpace (decodeRune (b :: rest)).1 = true
          · obtain ⟨s', hs'⟩ := ih ((decodeRune (b :: rest)).2 - 1)
            refine ⟨s', ?_⟩
            simp only [taggedAfter, hsp, List.dropWhile_cons, if_true]
            exact hs'
          · refine ⟨b :: rest, ?_⟩
            simp only [tagged, taggedAfter, List.dropWhile_cons, hsp, if_false, Bool.false_eq_true]

/-- The bytes of the rest of a rune all have its tag. -/
theorem taggedAfter_getElem? {s : Bytes} {n k : Nat} {sp : Bool} (hk : k < n) {e : UInt8 × Bool}
    (h : (taggedAfter n sp s)[k]? = some e) : e.2 = sp := by
  induction s generalizing n k with
  | nil => cases n <;> simp [taggedAfter] at h
  | cons b rest ih =>
      cases n with
      | zero => omega
      | succ n =>
          cases k with
          | zero =>
              rw [taggedAfter, List.getElem?_cons_zero] at h
              rw [← Option.some.inj h]
          | succ k =>
              rw [taggedAfter, List.getElem?_cons_succ] at h
              exact ih (Nat.lt_of_succ_lt_succ hk) h

theorem map_fst_taggedAfter (s : Bytes) (n : Nat) (sp : Bool) :
    (taggedAfter n sp s).map Prod.fst = s := by
  induction s generalizing n sp with
  | nil => cases n <;> rfl
  | cons b rest ih =>
      cases n with
      | zero => simp only [taggedAfter, List.map_cons, ih]
      | succ n => simp only [taggedAfter, List.map_cons, ih]

/-- A tagged string cut behind a byte that is not white space, white space only being cut
    off, is tagged the same. -/
theorem taggedAfter_cut {s : Bytes} {n : Nat} {sp : Bool} {u v : List (UInt8 × Bool)}
    (h : taggedAfter n sp s = u ++ v) (hv : ∀ e ∈ v, e.2 = true)
    (hu : ∀ e ∈ u.getLast?, e.2 = false) :
    taggedAfter n sp (u.map Prod.fst) = u := by
  induction s generalizing n sp u with
  | nil =>
      have hnil : u ++ v = [] := by rw [← h]; cases n <;> rfl
      rw [(List.append_eq_nil_iff.mp hnil).1]
      cases n <;> rfl
  | cons b rest ih =>
      cases u with
      | nil => cases n <;> rfl
      | cons e u =>
          -- the rest is cut in the same place
          have hlast : ∀ e ∈ u.getLast?, e.2 = false := by
            intro e' he'
            have hne : u ≠ [] := by rintro rfl; cases he'
            exact hu e' (by rwa [List.getLast?_cons_of_ne_nil hne])
          cases n with
          | succ n =>
              obtain ⟨rfl, htail⟩ := List.cons.inj h
              show (b, sp) :: taggedAfter n sp (u.map Prod.fst) = _
              rw [ih htail hlast]
          | zero =>
              obtain ⟨rfl, htail⟩ := List.cons.inj h
              set d := decodeRune (b :: rest) with hd
              have hrest : rest = u.map Prod.fst ++ v.map Prod.fst := by
                rw [← List.map_append]
                exact (map_fst_taggedAfter rest _ _).symm.trans (congrArg _ htail)
              -- the first rune is not cut: all its bytes have its tag
              have hwhole : d.2 ≤ (u.map Prod.fst).length + 1 := by
                by_contra hcut
                rw [List.length_map, not_le] at hcut
                have htag : ∀ k e, k ≤ u.length → (u ++ v)[k]? = some e → e.2 = isSpace d.1 := by
                  intro k e hk he
                  have hlt : k < d.2 - 1 := by omega
                  exact taggedAfter_getElem? hlt ((congrArg (·[k]?) htail).trans he)
                cases v with
                | nil =>
                    have hw := decodeRune_width (b :: rest)
                    have hlen : rest.length = u.length := by
                      rw [hrest, List.map_nil, List.append_nil, List.length_map]
                    rw [← hd, List.length_cons] at hw
                    omega
                | cons x v =>
                    have hx := htag u.length x le_rfl (by
                      rw [List.getElem?_append_right le_rfl, Nat.sub_self]; rfl)
                    rw [hv x (List.mem_cons_self ..)] at hx
                    rcases List.eq_nil_or_concat u with rfl | ⟨u', y, rfl⟩
                    · have := hu _ rfl
                      rw [← hx] at this
                      cases this
                    · have hy := htag u'.length y (by simp) (by simp)
                      have := hlast y (by simp)
                      rw [hy, ← hx] at this
                      cases this
              have hsame : decodeRune (b :: u.map Prod.fst) = d := by
                rw [hd, hrest]
                exact decodeRune_append (hrest ▸ hwhole)
              show (b, isSpace (decodeRune (b :: u.map Prod.fst)).1) ::
                taggedAfter ((decodeRune (b :: u.map Prod.fst)).2 - 1) _ (u.map Prod.fst) = _
              rw [hsame, ih htail hlast]

/-- Where nothing comes off the front, nothing comes off the front of a first part. -/
theorem dropWhile_of_isPrefix {p : UInt8 × Bool → Bool} {u w : List (UInt8 × Bool)}
    (h : u <+: w) (hw : w.dropWhile p = w) : u.dropWhile p = u := by
  obtain ⟨v, rfl⟩ := h
  cases u with
  | nil => rfl
  | cons e u =>
      have he := List.dropWhile_eq_self_iff.mp hw (by simp)
      exact List.dropWhile_eq_self_iff.mpr fun _ => he

/-- **TRIMMING TWICE** takes off nothing more. -/
theorem trimSpace_trimSpace (s : Bytes) : trimSpace (trimSpace s) = trimSpace s := by
  obtain ⟨s', hs'⟩ := dropWhile_tagged s 0
  have hleft : (tagged s).dropWhile Prod.snd = tagged s' := by
    rw [← hs']
    cases s <;> rfl
  set u := (tagged s').rdropWhile Prod.snd with hu
  have htrim : trimSpace s = u.map Prod.fst := by rw [trimSpace, hleft]
  have hsame : tagged (trimSpace s) = u := by
    rw [htrim]
    refine taggedAfter_cut List.rdropWhile_append_rtakeWhile.symm
      (fun e he => List.mem_rtakeWhile_imp he) ?_
    intro e he
    obtain ⟨hne, rfl⟩ := List.mem_getLast?_eq_getLast he
    exact Bool.eq_false_of_not_eq_true (List.rdropWhile_last_not _ _ hne)
  have hdrop : u.dropWhile Prod.snd = u := by
    refine dropWhile_of_isPrefix (List.rdropWhile_prefix _ _) ?_
    rw [← hleft, List.dropWhile_idempotent]
  rw [trimSpace, hsame, hdrop, hu, List.rdropWhile_idempotent, ← hu, htrim]

/-! ## Lines of words -/

theorem join_head {w : Bytes} (ws : List Bytes) (hne : w ≠ []) :
    (join (w :: ws)).head? = w.head? := by
  cases ws with
  | nil => rw [join_singleton]
  | cons v ws =>
      rw [join_cons_cons, List.head?_append]
      cases w with
      | nil => exact absurd rfl hne
      | cons b w' => rfl

theorem join_ne_nil {w : Bytes} (ws : List Bytes) (hne : w ≠ []) :
    join (w :: ws) ≠ [] := by
  intro hnil
  have h := join_head ws hne
  rw [hnil] at h
  exact hne (List.head?_eq_none_iff.mp h.symm)

theorem join_getLast {ws : List Bytes} (hw : ∀ w ∈ ws, Word w) :
    ∀ b ∈ (join ws).getLast?, isSpace b.toNat = false := by
  induction ws with
  | nil => intro b hb; cases hb
  | cons w ws ih =>
      cases ws with
      | nil =>
          rw [join_singleton]
          intro b hb
          exact (hw w (List.mem_cons_self ..)).visible b (List.mem_of_getLast? hb)
      | cons v ws =>
          have hne := join_ne_nil ws (hw v (by simp)).nonempty
          rw [join_cons_cons, List.getLast?_append_of_ne_nil _ (by simp),
            List.getLast?_cons_of_ne_nil hne]
          exact ih fun u hu => hw u (List.mem_cons_of_mem _ hu)

/-- **TRIMMING**: a line of words loses its newline and nothing else. -/
theorem trimSpace_line {ws : List Bytes} (hw : ∀ w ∈ ws, Word w) (hne : ws ≠ []) :
    trimSpace (join ws ++ [0x0A]) = join ws := by
  cases ws with
  | nil => exact absurd rfl hne
  | cons w ws =>
      have hword := hw w (List.mem_cons_self ..)
      refine trimSpace_newline (join_ascii hw) ?_ (join_getLast hw)
        (join_ne_nil ws hword.nonempty)
      rw [join_head ws hword.nonempty]
      intro b hb
      exact hword.visible b (List.mem_of_head? hb)

/-! ## Decimals -/

/-- `strconv.ErrSyntax` and `strconv.ErrRange`. -/
inductive NumError where
  | errSyntax
  | errRange
  deriving DecidableEq, Repr

/-- The value of a decimal digit. -/
def digit (b : UInt8) : Option Nat :=
  if within 0x30 0x39 b then some (b.toNat - 0x30) else none

/-- The digit loop of `strconv.ParseUint` in base 10.  It stops at the first
    byte that is no digit and at the first value that is too large. -/
def parseDigits (maxVal : Nat) : Nat → Bytes → Except NumError Nat
  | n, [] => .ok n
  | n, b :: rest =>
      match digit b with
      | none => .error .errSyntax
      | some d =>
          if maxVal < n * 10 + d then .error .errRange
          else parseDigits maxVal (n * 10 + d) rest

/-- `strconv.ParseUint(s, 10, bits)`. -/
def parseUint (bits : Nat) (s : Bytes) : Except NumError Nat :=
  if s = [] then .error .errSyntax else parseDigits (2 ^ bits - 1) 0 s

/-- The sign of a number, and the rest of it. -/
def sign : Bytes → Bool × Bytes
  | [] => (false, [])
  | b :: rest =>
      if b = 0x2D then (true, rest)
      else if b = 0x2B then (false, rest)
      else (false, b :: rest)

/-- `strconv.Atoi` of a build whose `int` has so many bits. -/
def atoi (bits : Nat) (s : Bytes) : Except NumError Int :=
  match parseUint bits (sign s).2 with
  | .error e => .error e
  | .ok un =>
      if (sign s).1 then
        if 2 ^ (bits - 1) < un then .error .errRange else .ok (-(un : Int))
      else
        if 2 ^ (bits - 1) ≤ un then .error .errRange else .ok un

/-- The decimal digits of a number. -/
def decimal (n : Nat) : Bytes :=
  (Nat.toDigits 10 n).map fun c => UInt8.ofNat c.toNat

/-- `strconv.Itoa`, and `%d` of an `int`. -/
def itoa : Int → Bytes
  | .ofNat n => decimal n
  | .negSucc n => 0x2D :: decimal (n + 1)

/-- The byte of a digit character is that digit. -/
theorem digit_of_isDigit {c : Char} (h : c.isDigit = true) :
    digit (UInt8.ofNat c.toNat) = some (c.toNat - '0'.toNat) ∧
      within 0x30 0x39 (UInt8.ofNat c.toNat) = true := by
  have hb : 48 ≤ c.toNat ∧ c.toNat ≤ 57 := by
    simp only [Char.isDigit, Bool.and_eq_true, decide_eq_true_eq] at h
    exact ⟨UInt32.le_iff_toNat_le.mp h.1, UInt32.le_iff_toNat_le.mp h.2⟩
  have hn : (UInt8.ofNat c.toNat).toNat = c.toNat := by
    rw [UInt8.toNat_ofNat']
    omega
  have hin : within 0x30 0x39 (UInt8.ofNat c.toNat) = true := by
    simp only [within, hn, Bool.and_eq_true, decide_eq_true_eq]
    exact hb
  refine ⟨?_, hin⟩
  rw [digit, if_pos hin, hn]
  rfl

/-- The digit loop computes the number, when it stays in range. -/
theorem parseDigits_digits {maxVal : Nat} {cs : List Char}
    (hd : ∀ c ∈ cs, c.isDigit = true) :
    ∀ n, Nat.ofDigitChars 10 cs n ≤ maxVal →
      parseDigits maxVal n (cs.map fun c => UInt8.ofNat c.toNat)
        = .ok (Nat.ofDigitChars 10 cs n) := by
  induction cs with
  | nil => intro n _; rfl
  | cons c cs ih =>
      intro n hle
      rw [Nat.ofDigitChars_cons] at hle ⊢
      have hc := (digit_of_isDigit (hd c (List.mem_cons_self ..))).1
      have hgrow : 10 * n + (c.toNat - '0'.toNat)
          ≤ Nat.ofDigitChars 10 cs (10 * n + (c.toNat - '0'.toNat)) := by
        rw [Nat.ofDigitChars_eq_ofDigitChars_zero]
        exact Nat.le_add_right_of_le (Nat.le_mul_of_pos_left _ (by positivity))
      rw [List.map_cons, parseDigits, hc, Nat.mul_comm n 10]
      simp only
      rw [if_neg (by omega), ih (fun d hd' => hd d (List.mem_cons_of_mem _ hd')) _ hle]

theorem isDigit_toDigits {n : Nat} : ∀ c ∈ Nat.toDigits 10 n, c.isDigit = true :=
  fun _ hc => Nat.isDigit_of_mem_toDigits (by decide) (by decide) hc

theorem decimal_ne_nil (n : Nat) : decimal n ≠ [] := by
  intro h
  exact Nat.toDigits_ne_nil (List.map_eq_nil_iff.mp h)

/-- The bytes of a decimal are digits. -/
theorem decimal_within {n : Nat} : ∀ b ∈ decimal n, within 0x30 0x39 b = true := by
  intro b hb
  obtain ⟨c, hc, rfl⟩ := List.mem_map.mp hb
  exact (digit_of_isDigit (isDigit_toDigits c hc)).2

theorem word_of_within {lo hi : Nat} {w : Bytes} (hne : w ≠ []) (hlo : 0x20 < lo)
    (hhi : hi < 0x80) (h : ∀ b ∈ w, within lo hi b = true) : Word w := by
  have hb : ∀ b ∈ w, lo ≤ b.toNat ∧ b.toNat ≤ hi := by
    intro b hb
    simpa [within] using h b hb
  refine ⟨hne, fun b hm => lt_of_le_of_lt (hb b hm).2 hhi, ?_⟩
  intro b hm
  obtain ⟨h1, h2⟩ := hb b hm
  simp only [isSpace, Bool.or_eq_false_iff, Bool.and_eq_false_iff,
    decide_eq_false_iff_not, beq_eq_false_iff_ne]
  omega

theorem word_decimal (n : Nat) : Word (decimal n) :=
  word_of_within (decimal_ne_nil n) (by decide) (by decide) decimal_within

theorem decimal_length {n k : Nat} (hk : 0 < k) (h : n < 10 ^ k) :
    (decimal n).length ≤ k := by
  rw [decimal, List.length_map]
  exact (Nat.length_toDigits_le_iff (by decide) hk).mpr h

/-- A digit is not a sign. -/
theorem sign_decimal (n : Nat) : sign (decimal n) = (false, decimal n) := by
  cases hd : decimal n with
  | nil => exact absurd hd (decimal_ne_nil n)
  | cons b rest =>
      have hb : within 0x30 0x39 b = true :=
        decimal_within b (by rw [hd]; exact List.mem_cons_self ..)
      have hne : b ≠ 0x2D ∧ b ≠ 0x2B := by
        constructor <;> rintro rfl <;> cases hb
      rw [sign, if_neg hne.1, if_neg hne.2]

/-- **READING BACK**: a decimal that fits the build's `int` reads back. -/
theorem atoi_itoa {bits n : Nat} (h : n < 2 ^ (bits - 1)) :
    atoi bits (itoa n) = .ok (n : Int) := by
  have hle : n ≤ 2 ^ bits - 1 := by
    have : 2 ^ (bits - 1) ≤ 2 ^ bits := Nat.pow_le_pow_right (by decide) (by omega)
    omega
  have hparse : parseUint bits (decimal n) = .ok n := by
    rw [parseUint, if_neg (decimal_ne_nil n), decimal, parseDigits_digits isDigit_toDigits,
      Nat.ofDigitChars_ten_toDigits]
    rw [Nat.ofDigitChars_ten_toDigits]
    exact hle
  show atoi bits (decimal n) = _
  rw [atoi, sign_decimal, hparse]
  simp only [Bool.false_eq_true, if_false]
  rw [if_neg (by omega)]

/-! ## Separators -/

/-- A separated text has a separator. -/
theorem sep_mem_intercalate {sep : UInt8} {u v : Bytes} (ws : List Bytes) :
    sep ∈ [sep].intercalate (u :: v :: ws) := by
  rw [List.intercalate_cons_cons]
  exact List.mem_append_left _ (List.mem_append_right _ List.mem_cons_self)

/-- What stands in a separated text. -/
theorem mem_intercalate {sep b : UInt8} {ws : List Bytes} (h : b ∈ [sep].intercalate ws) :
    b = sep ∨ ∃ w ∈ ws, b ∈ w := by
  induction ws with
  | nil => cases h
  | cons u ws ih =>
      cases ws with
      | nil =>
          rw [List.intercalate_singleton] at h
          exact Or.inr ⟨u, List.mem_cons_self, h⟩
      | cons v ws =>
          rw [List.intercalate_cons_cons] at h
          rcases List.mem_append.mp h with h | h
          · rcases List.mem_append.mp h with h | h
            · exact Or.inr ⟨u, List.mem_cons_self, h⟩
            · exact Or.inl (List.mem_singleton.mp h)
          · rcases ih h with hsep | ⟨w, hw, hb⟩
            · exact Or.inl hsep
            · exact Or.inr ⟨w, List.mem_cons_of_mem _ hw, hb⟩

/-- `strings.Split` leaves no separator in its parts. -/
theorem not_mem_of_mem_splitOn {sep : UInt8} {s w : Bytes} (h : w ∈ s.splitOn sep) :
    sep ∉ w := by
  induction s generalizing w with
  | nil =>
      rw [List.splitOn_nil, List.mem_singleton] at h
      rw [h]
      exact List.not_mem_nil
  | cons b rest ih =>
      have hcons : (b :: rest).splitOn sep = if b == sep then [] :: rest.splitOn sep
          else (rest.splitOn sep).modifyHead (b :: ·) := List.splitOnP_cons_eq_if_modifyHead b rest
      rw [hcons] at h
      by_cases hb : b = sep
      · rw [if_pos (beq_iff_eq.mpr hb)] at h
        rcases List.mem_cons.mp h with rfl | h
        · exact List.not_mem_nil
        · exact ih h
      · rw [if_neg (fun e => hb (beq_iff_eq.mp e))] at h
        cases hrest : rest.splitOn sep with
        | nil => rw [hrest] at h; cases h
        | cons u us =>
            rw [hrest] at h ih
            rcases List.mem_cons.mp h with rfl | h
            · rw [List.mem_cons, not_or]
              exact ⟨Ne.symm hb, ih List.mem_cons_self⟩
            · exact ih (List.mem_cons_of_mem _ h)

/-- Where `strings.Cut` cuts: the text before the first separator, the text after it, and
    whether there is one. -/
def cut (sep : UInt8) : Bytes → Bytes × Bytes × Bool
  | [] => ([], [], false)
  | b :: rest =>
      if b = sep then ([], rest, true)
      else
        let (before, after, found) := cut sep rest
        (b :: before, after, found)

theorem cut_not_mem {sep : UInt8} {s : Bytes} (h : sep ∉ s) : cut sep s = (s, [], false) := by
  induction s with
  | nil => rfl
  | cons b rest ih =>
      rw [List.mem_cons, not_or] at h
      rw [cut, if_neg (Ne.symm h.1), ih h.2]

theorem cut_append {sep : UInt8} {before : Bytes} (h : sep ∉ before) (after : Bytes) :
    cut sep (before ++ sep :: after) = (before, after, true) := by
  induction before with
  | nil => rw [List.nil_append, cut, if_pos rfl]
  | cons b rest ih =>
      rw [List.mem_cons, not_or] at h
      rw [List.cons_append, cut, if_neg (Ne.symm h.1), ih h.2]

/-- A text has no separator, or is cut at its first one. -/
theorem cut_cases (sep : UInt8) (s : Bytes) :
    sep ∉ s ∨ ∃ before after, sep ∉ before ∧ s = before ++ sep :: after := by
  by_cases h : sep ∈ s
  · obtain ⟨before, after, rfl, hnot⟩ := List.eq_append_cons_of_mem h
    exact Or.inr ⟨before, after, hnot, rfl⟩
  · exact Or.inl h

/-! ## Hexadecimal -/

/-- The errors of `encoding/hex`. -/
inductive HexError where
  | invalidByte (b : UInt8)
  | errLength
  deriving DecidableEq

/-- `hextable`. -/
def hexChar (n : Nat) : UInt8 := UInt8.ofNat (if n < 10 then 0x30 + n else 0x57 + n)

/-- `reverseHexTable`. -/
def fromHexChar (b : UInt8) : Option Nat :=
  if within 0x30 0x39 b then some (b.toNat - 0x30)
  else if within 0x61 0x66 b then some (b.toNat - 0x61 + 10)
  else if within 0x41 0x46 b then some (b.toNat - 0x41 + 10)
  else none

/-- `hex.EncodeToString`. -/
def hexEncode (bs : Bytes) : Bytes :=
  bs.flatMap fun b => [hexChar (b.toNat / 16), hexChar (b.toNat % 16)]

/-- `hex.DecodeString`. -/
def hexDecode : Bytes → Except HexError Bytes
  | [] => .ok []
  | [p] =>
      match fromHexChar p with
      | none => .error (.invalidByte p)
      | some _ => .error .errLength
  | p :: q :: rest =>
      match fromHexChar p, fromHexChar q with
      | none, _ => .error (.invalidByte p)
      | some _, none => .error (.invalidByte q)
      | some a, some b => (hexDecode rest).map (UInt8.ofNat (16 * a + b) :: ·)

theorem fromHexChar_hexChar : ∀ n < 16, fromHexChar (hexChar n) = some n := by decide

theorem hexChar_visible :
    ∀ n < 16, (hexChar n).toNat < 0x80 ∧ isSpace (hexChar n).toNat = false := by decide

/-- **HEX ROUND TRIP** -/
theorem hexDecode_hexEncode (bs : Bytes) : hexDecode (hexEncode bs) = .ok bs := by
  induction bs with
  | nil => rfl
  | cons b bs ih =>
      have hlt : b.toNat < 256 := b.toNat_lt
      have hb : 16 * (b.toNat / 16) + b.toNat % 16 = b.toNat := Nat.div_add_mod _ _
      show hexDecode (hexChar (b.toNat / 16) :: hexChar (b.toNat % 16) :: hexEncode bs) = _
      rw [hexDecode, fromHexChar_hexChar _ (by omega), fromHexChar_hexChar _ (by omega)]
      simp only [ih, hb, UInt8.ofNat_toNat]
      rfl

theorem hexEncode_length (bs : Bytes) : (hexEncode bs).length = 2 * bs.length := by
  induction bs with
  | nil => rfl
  | cons b bs ih =>
      show (hexEncode bs).length + 2 = 2 * (bs.length + 1)
      omega

theorem word_hexEncode {bs : Bytes} (hne : bs ≠ []) : Word (hexEncode bs) := by
  have hall : ∀ c ∈ hexEncode bs, c.toNat < 0x80 ∧ isSpace c.toNat = false := by
    intro c hc
    obtain ⟨b, -, hc⟩ := List.mem_flatMap.mp hc
    have hlt : b.toNat < 256 := b.toNat_lt
    rcases List.mem_cons.mp hc with rfl | hc
    · exact hexChar_visible _ (by omega)
    · rw [List.mem_singleton.mp hc]
      exact hexChar_visible _ (by omega)
  refine ⟨?_, fun c hc => (hall c hc).1, fun c hc => (hall c hc).2⟩
  intro hnil
  have hlen := hexEncode_length bs
  rw [hnil, List.length_nil] at hlen
  exact hne (List.length_eq_zero_iff.mp (by omega))

/-- `utf8.AppendRune`: what cannot be encoded becomes the replacement rune. -/
def encodeRune (r : Nat) : Bytes :=
  if r < 0x80 then [UInt8.ofNat r]
  else if r < 0x800 then [UInt8.ofNat (0xC0 + r / 0x40), UInt8.ofNat (0x80 + r % 0x40)]
  else if r < 0x10000 ∧ ¬ (0xD800 ≤ r ∧ r < 0xE000) then
    [UInt8.ofNat (0xE0 + r / 0x1000), UInt8.ofNat (0x80 + r / 0x40 % 0x40),
      UInt8.ofNat (0x80 + r % 0x40)]
  else if 0x10000 ≤ r ∧ r < 0x110000 then
    [UInt8.ofNat (0xF0 + r / 0x40000), UInt8.ofNat (0x80 + r / 0x1000 % 0x40),
      UInt8.ofNat (0x80 + r / 0x40 % 0x40), UInt8.ofNat (0x80 + r % 0x40)]
  else [0xEF, 0xBF, 0xBD]

/-- One byte in upper case, if it is an ASCII letter. -/
def upperByte (b : UInt8) : UInt8 := if within 0x61 0x7A b then b - 0x20 else b

/-- The text of an error; the byte is printed by `%#U`. -/
def HexError.text : HexError → Bytes
  | .errLength => ascii "encoding/hex: odd length hex string"
  | .invalidByte b =>
      ascii "encoding/hex: invalid byte: U+00" ++ (hexEncode [b]).map upperByte ++
        -- `strconv.IsPrint`
        if within 0x20 0x7E b || (within 0xA1 0xFF b && b != 0xAD) then
          ascii " '" ++ encodeRune b.toNat ++ ascii "'"
        else []

/-- `b` is the digit of `n`, in one case or the other. -/
def HexDigit (n : Nat) (b : UInt8) : Prop :=
  (ascii "0123456789abcdef")[n]? = some b ∨ (ascii "0123456789ABCDEF")[n]? = some b

instance (n : Nat) (b : UInt8) : Decidable (HexDigit n b) :=
  inferInstanceAs (Decidable (_ ∨ _))

/-- Two digits that spell a byte. -/
def HexPair (pair : Bytes) (b : UInt8) : Prop :=
  ∃ p q m n, pair = [p, q] ∧ HexDigit m p ∧ HexDigit n q ∧ b.toNat = 16 * m + n

theorem HexDigit.lt {n : Nat} {b : UInt8} (h : HexDigit n b) : n < 16 := by
  rcases h with h | h
  · exact (List.getElem?_eq_some_iff.mp h).1
  · exact (List.getElem?_eq_some_iff.mp h).1

theorem fromHexChar_lt {b : UInt8} {n : Nat} (h : fromHexChar b = some n) : n < 16 := by
  unfold fromHexChar at h
  split_ifs at h with h1 h2 h3 <;> cases h <;>
    simp only [within, Bool.and_eq_true, decide_eq_true_eq] at * <;> omega

/-- A statement about bytes, checked for all of them. -/
theorem byte_forall {P : UInt8 → Prop} (h : ∀ k < 256, P (UInt8.ofNat k)) (b : UInt8) : P b :=
  UInt8.ofNat_toNat (x := b) ▸ h b.toNat b.toNat_lt

/-- A statement about digits, checked for the sixteen of either case. -/
theorem HexDigit.check {p : Nat → UInt8 → Bool}
    (hlower : ∀ n < 16, (ascii "0123456789abcdef")[n]?.all (p n) = true)
    (hupper : ∀ n < 16, (ascii "0123456789ABCDEF")[n]?.all (p n) = true)
    {n : Nat} {b : UInt8} (h : HexDigit n b) : p n b = true := by
  have hn := h.lt
  rcases h with h | h
  · have hp := hlower n hn
    rw [h] at hp
    exact hp
  · have hp := hupper n hn
    rw [h] at hp
    exact hp

theorem fromHexChar_iff {b : UInt8} {n : Nat} : fromHexChar b = some n ↔ HexDigit n b := by
  constructor
  · intro h
    have hall : ∀ b, (fromHexChar b).all (fun n => decide (HexDigit n b)) = true :=
      byte_forall (by decide +kernel)
    have hb := hall b
    rw [h] at hb
    exact of_decide_eq_true hb
  · intro h
    have hdigit := HexDigit.check (p := fun n b => decide (fromHexChar b = some n))
      (by decide) (by decide) h
    exact of_decide_eq_true hdigit

/-- **WHAT `hex.DecodeString` ACCEPTS**: pairs of digits, which spell the bytes. -/
theorem hexDecode_iff {s bs : Bytes} :
    hexDecode s = .ok bs ↔ ∃ pairs, List.Forall₂ HexPair pairs bs ∧ s = pairs.flatten := by
  constructor
  · intro h
    fun_induction hexDecode s generalizing bs with
    | case1 =>
        cases h
        exact ⟨[], List.Forall₂.nil, rfl⟩
    | case2 => cases h
    | case3 => cases h
    | case4 => cases h
    | case5 => cases h
    | case6 p q rest a b hb ha ih =>
        cases hrest : hexDecode rest with
        | error e => rw [hrest] at h; cases h
        | ok bs' =>
            rw [hrest] at h
            cases h
            obtain ⟨pairs, hpairs, rfl⟩ := ih hrest
            refine ⟨[p, q] :: pairs, List.Forall₂.cons ?_ hpairs, rfl⟩
            have hlt := fromHexChar_lt ha
            have hlt' := fromHexChar_lt hb
            refine ⟨p, q, a, b, rfl, fromHexChar_iff.mp ha, fromHexChar_iff.mp hb, ?_⟩
            rw [UInt8.toNat_ofNat', Nat.mod_eq_of_lt (by omega)]
  · rintro ⟨pairs, hpairs, rfl⟩
    induction hpairs with
    | nil => rfl
    | @cons pair b pairs bs hpair _ ih =>
        obtain ⟨p, q, m, n, rfl, hp, hq, hb⟩ := hpair
        show hexDecode (p :: q :: pairs.flatten) = _
        rw [hexDecode, fromHexChar_iff.mpr hp, fromHexChar_iff.mpr hq, ih]
        show Except.ok (UInt8.ofNat (16 * m + n) :: bs) = _
        rw [← hb, UInt8.ofNat_toNat]

/-- A byte encoded and put in upper case is spelled by its pair of digits. -/
theorem hexPair_upper (b : UInt8) : HexPair ((hexEncode [b]).map upperByte) b := by
  have hdigit : ∀ n < 16, HexDigit n (upperByte (hexChar n)) := by decide
  have hlt : b.toNat < 256 := b.toNat_lt
  exact ⟨_, _, _, _, rfl, hdigit (b.toNat / 16) (by omega), hdigit (b.toNat % 16) (by omega),
    (Nat.div_add_mod _ _).symm⟩

theorem HexDigit.visible {n : Nat} {b : UInt8} (h : HexDigit n b) :
    within 0x30 0x66 b = true ∧ b ≠ 0x3A := by
  have hdigit := HexDigit.check (p := fun _ b => within 0x30 0x66 b && b != 0x3A)
    (by decide) (by decide) h
  rw [Bool.and_eq_true, bne_iff_ne] at hdigit
  exact hdigit

/-- Nothing comes off a word. -/
theorem trimSpace_word {w : Bytes} (h : Word w) : trimSpace w = w := by
  have hnone : ∀ e ∈ w.map fun b => (b, isSpace b.toNat), ¬ e.2 = true := by
    intro e he
    obtain ⟨b, hb, rfl⟩ := List.mem_map.mp he
    exact Bool.eq_false_iff.mp (h.visible b hb)
  rw [trimSpace, tagged_ascii h.ascii,
    List.dropWhile_eq_self_iff.mpr fun hl => hnone _ (List.getElem_mem hl),
    List.rdropWhile_eq_self_iff.mpr fun hl => hnone _ (List.getLast_mem hl), List.map_map]
  exact List.map_id w

/-! ## Letter case -/

/-- Every `stride`-th rune from `lo` to `hi` has its lower case `delta` further on. -/
structure CaseRange where
  lo : Nat
  hi : Nat
  stride : Nat
  delta : Int

/-- The upper-case and title-case runes of `unicode.CaseRanges`, where there are several. -/
def lowerRanges : List CaseRange :=
  [⟨0x41, 0x5A, 1, 32⟩, ⟨0xC0, 0xD6, 1, 32⟩, ⟨0xD8, 0xDE, 1, 32⟩, ⟨0x100, 0x12E, 2, 1⟩,
    ⟨0x132, 0x136, 2, 1⟩, ⟨0x139, 0x147, 2, 1⟩, ⟨0x14A, 0x176, 2, 1⟩, ⟨0x179, 0x17D, 2, 1⟩,
    ⟨0x182, 0x184, 2, 1⟩, ⟨0x189, 0x18A, 1, 205⟩, ⟨0x1A0, 0x1A4, 2, 1⟩, ⟨0x1B1, 0x1B2, 1, 217⟩,
    ⟨0x1B3, 0x1B5, 2, 1⟩, ⟨0x1CB, 0x1DB, 2, 1⟩, ⟨0x1DE, 0x1EE, 2, 1⟩, ⟨0x1F2, 0x1F4, 2, 1⟩,
    ⟨0x1F8, 0x21E, 2, 1⟩, ⟨0x222, 0x232, 2, 1⟩, ⟨0x246, 0x24E, 2, 1⟩, ⟨0x370, 0x372, 2, 1⟩,
    ⟨0x388, 0x38A, 1, 37⟩, ⟨0x38E, 0x38F, 1, 63⟩, ⟨0x391, 0x3A1, 1, 32⟩, ⟨0x3A3, 0x3AB, 1, 32⟩,
    ⟨0x3D8, 0x3EE, 2, 1⟩, ⟨0x3FD, 0x3FF, 1, -130⟩, ⟨0x400, 0x40F, 1, 80⟩, ⟨0x410, 0x42F, 1, 32⟩,
    ⟨0x460, 0x480, 2, 1⟩, ⟨0x48A, 0x4BE, 2, 1⟩, ⟨0x4C1, 0x4CD, 2, 1⟩, ⟨0x4D0, 0x52E, 2, 1⟩,
    ⟨0x531, 0x556, 1, 48⟩, ⟨0x10A0, 0x10C5, 1, 7264⟩, ⟨0x13A0, 0x13EF, 1, 38864⟩,
    ⟨0x13F0, 0x13F5, 1, 8⟩, ⟨0x1C90, 0x1CBA, 1, -3008⟩, ⟨0x1CBD, 0x1CBF, 1, -3008⟩,
    ⟨0x1E00, 0x1E94, 2, 1⟩, ⟨0x1EA0, 0x1EFE, 2, 1⟩, ⟨0x1F08, 0x1F0F, 1, -8⟩,
    ⟨0x1F18, 0x1F1D, 1, -8⟩, ⟨0x1F28, 0x1F2F, 1, -8⟩, ⟨0x1F38, 0x1F3F, 1, -8⟩,
    ⟨0x1F48, 0x1F4D, 1, -8⟩, ⟨0x1F59, 0x1F5F, 2, -8⟩, ⟨0x1F68, 0x1F6F, 1, -8⟩,
    ⟨0x1F88, 0x1F8F, 1, -8⟩, ⟨0x1F98, 0x1F9F, 1, -8⟩, ⟨0x1FA8, 0x1FAF, 1, -8⟩,
    ⟨0x1FB8, 0x1FB9, 1, -8⟩, ⟨0x1FBA, 0x1FBB, 1, -74⟩, ⟨0x1FC8, 0x1FCB, 1, -86⟩,
    ⟨0x1FD8, 0x1FD9, 1, -8⟩, ⟨0x1FDA, 0x1FDB, 1, -100⟩, ⟨0x1FE8, 0x1FE9, 1, -8⟩,
    ⟨0x1FEA, 0x1FEB, 1, -112⟩, ⟨0x1FF8, 0x1FF9, 1, -128⟩, ⟨0x1FFA, 0x1FFB, 1, -126⟩,
    ⟨0x2160, 0x216F, 1, 16⟩, ⟨0x24B6, 0x24CF, 1, 26⟩, ⟨0x2C00, 0x2C2F, 1, 48⟩,
    ⟨0x2C67, 0x2C6B, 2, 1⟩, ⟨0x2C7E, 0x2C7F, 1, -10815⟩, ⟨0x2C80, 0x2CE2, 2, 1⟩,
    ⟨0x2CEB, 0x2CED, 2, 1⟩, ⟨0xA640, 0xA66C, 2, 1⟩, ⟨0xA680, 0xA69A, 2, 1⟩, ⟨0xA722, 0xA72E, 2, 1⟩,
    ⟨0xA732, 0xA76E, 2, 1⟩, ⟨0xA779, 0xA77B, 2, 1⟩, ⟨0xA77E, 0xA786, 2, 1⟩, ⟨0xA790, 0xA792, 2, 1⟩,
    ⟨0xA796, 0xA7A8, 2, 1⟩, ⟨0xA7B4, 0xA7C2, 2, 1⟩, ⟨0xA7C7, 0xA7C9, 2, 1⟩, ⟨0xA7D6, 0xA7D8, 2, 1⟩,
    ⟨0xFF21, 0xFF3A, 1, 32⟩, ⟨0x10400, 0x10427, 1, 40⟩, ⟨0x104B0, 0x104D3, 1, 40⟩,
    ⟨0x10570, 0x1057A, 1, 39⟩, ⟨0x1057C, 0x1058A, 1, 39⟩, ⟨0x1058C, 0x10592, 1, 39⟩,
    ⟨0x10594, 0x10595, 1, 39⟩, ⟨0x10C80, 0x10CB2, 1, 64⟩, ⟨0x118A0, 0x118BF, 1, 32⟩,
    ⟨0x16E40, 0x16E5F, 1, 32⟩, ⟨0x1E900, 0x1E921, 1, 34⟩]

/-- Those that stand alone, each with its delta. -/
def lowerSingles : List (Nat × Int) :=
  [(0x130, -199), (0x178, -121), (0x181, 210), (0x186, 206), (0x187, 1), (0x18B, 1), (0x18E, 79),
    (0x18F, 202), (0x190, 203), (0x191, 1), (0x193, 205), (0x194, 207), (0x196, 211), (0x197, 209),
    (0x198, 1), (0x19C, 211), (0x19D, 213), (0x19F, 214), (0x1A6, 218), (0x1A7, 1), (0x1A9, 218),
    (0x1AC, 1), (0x1AE, 218), (0x1AF, 1), (0x1B7, 219), (0x1B8, 1), (0x1BC, 1), (0x1C4, 2),
    (0x1C5, 1), (0x1C7, 2), (0x1C8, 1), (0x1CA, 2), (0x1F1, 2), (0x1F6, -97), (0x1F7, -56),
    (0x220, -130), (0x23A, 10795), (0x23B, 1), (0x23D, -163), (0x23E, 10792), (0x241, 1),
    (0x243, -195), (0x244, 69), (0x245, 71), (0x376, 1), (0x37F, 116), (0x386, 38), (0x38C, 64),
    (0x3CF, 8), (0x3F4, -60), (0x3F7, 1), (0x3F9, -7), (0x3FA, 1), (0x4C0, 15), (0x10C7, 7264),
    (0x10CD, 7264), (0x1E9E, -7615), (0x1FBC, -9), (0x1FCC, -9), (0x1FEC, -7), (0x1FFC, -9),
    (0x2126, -7517), (0x212A, -8383), (0x212B, -8262), (0x2132, 28), (0x2183, 1), (0x2C60, 1),
    (0x2C62, -10743), (0x2C63, -3814), (0x2C64, -10727), (0x2C6D, -10780), (0x2C6E, -10749),
    (0x2C6F, -10783), (0x2C70, -10782), (0x2C72, 1), (0x2C75, 1), (0x2CF2, 1), (0xA77D, -35332),
    (0xA78B, 1), (0xA78D, -42280), (0xA7AA, -42308), (0xA7AB, -42319), (0xA7AC, -42315),
    (0xA7AD, -42305), (0xA7AE, -42308), (0xA7B0, -42258), (0xA7B1, -42282), (0xA7B2, -42261),
    (0xA7B3, 928), (0xA7C4, -48), (0xA7C5, -42307), (0xA7C6, -35384), (0xA7D0, 1), (0xA7F5, 1)]

/-- `unicode.ToLower`. -/
def toLowerRune (r : Nat) : Nat :=
  match lowerRanges.find? fun c => c.lo ≤ r && r ≤ c.hi && (r - c.lo) % c.stride == 0 with
  | some c => (r + c.delta).toNat
  | none => (r + (lowerSingles.lookup r).getD 0).toNat

/-- One byte in lower case, if it is an ASCII letter. -/
def lowerByte (b : UInt8) : UInt8 := if within 0x41 0x5A b then b + 0x20 else b

/-- `strings.ToLower`: byte by byte for ASCII, otherwise rune by rune. -/
def toLowerText (s : Bytes) : Bytes :=
  if s.all fun b => b.toNat < 0x80 then s.map lowerByte
  else (runes s).flatMap fun r => encodeRune (toLowerRune r)

/-! ## Query strings -/

/-- `url.QueryUnescape`, `none` where an escape is malformed. -/
def queryUnescape : Bytes → Option Bytes
  | [] => some []
  | b :: rest =>
      if b = 0x25 then
        match rest with
        | p :: q :: rest =>
            match fromHexChar p, fromHexChar q with
            | some m, some n => (queryUnescape rest).map (UInt8.ofNat (16 * m + n) :: ·)
            | _, _ => none
        | _ => none
      else if b = 0x2B then (queryUnescape rest).map (0x20 :: ·)
      else (queryUnescape rest).map (b :: ·)

/-- The bytes that `url.QueryEscape` leaves as they are. -/
def unreserved (b : UInt8) : Bool :=
  within 0x30 0x39 b || within 0x41 0x5A b || within 0x61 0x7A b || b = 0x2D || b = 0x2E
    || b = 0x5F || b = 0x7E

/-- `url.QueryEscape`. -/
def queryEscape (s : Bytes) : Bytes :=
  s.flatMap fun b =>
    if unreserved b then [b]
    else if b = 0x20 then [0x2B]
    else 0x25 :: (hexEncode [b]).map upperByte

/-! ## Parts of a string -/

/-- `strings.Contains`. -/
def containsText (s sub : Bytes) : Bool := s.tails.any (sub.isPrefixOf ·)

/-- `strings.TrimPrefix`. -/
def trimPrefix (s start : Bytes) : Bytes :=
  if start.isPrefixOf s then s.drop start.length else s

end GoText
