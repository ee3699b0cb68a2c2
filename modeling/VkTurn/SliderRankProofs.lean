import Mathlib.Data.List.Sort
import Mathlib.Logic.Equiv.Basic
import VkTurn.SliderTileProofs
import VkTurn.StripeProofs

/-! # Ranking the slider's candidates

    The server sends the grid's size, a list of swaps and a number of attempts.  Candidate
    `idx` of the slider applies a prefix of the swaps; the solver renders each
    candidate, scores how well neighbouring tiles fit, and ranks them.

    A prefix is a PERMUTATION: `composed` multiplies its transpositions, and the loop
    computes that product (`applySwaps_ok`).  With it the parts fit together for every
    payload that the parser accepts: no candidate fails (`candidate_ok`), so ranking
    returns every index once, in order.  Memory is taken to be unbounded. -/

namespace VkTurnSlider

open GoImage GoText VkTurnStripe

/-! ## The payload -/

/-- `defaultSliderAttempts`. -/
def defaultSliderAttempts : Int := 4

/-- The errors of `parseSliderSteps`. -/
inductive StepsError where
  | tooShort
  | size (value : Int)
  | swapPayload
  deriving DecidableEq

def StepsError.text : StepsError → Bytes
  | .tooShort => ascii "slider steps payload too short"
  | .size value => ascii "invalid slider size: " ++ itoa value
  | .swapPayload => ascii "invalid slider swap payload"

/-- The attempts and the swaps: an odd one out at the end is the number of attempts. -/
def takeAttempts (remaining : List Int) : Int × List Int :=
  if remaining.length % 2 ≠ 0 then (remaining.getLastD 0, remaining.dropLast)
  else (defaultSliderAttempts, remaining)

/-- `parseSliderSteps`: the size, the swaps and the attempts. -/
def parseSliderSteps (steps : List Int) : Except StepsError (Int × List Int × Int) :=
  if steps.length < 3 then .error .tooShort
  else
    let size := steps.headD 0
    if size ≤ 0 then .error (.size size)
    else
      let (attempts, remaining) := takeAttempts steps.tail
      let attempts := if attempts ≤ 0 then defaultSliderAttempts else attempts
      if remaining.length = 0 ∨ remaining.length % 2 ≠ 0 then .error .swapPayload
      else .ok (size, remaining, attempts)

/-! ## Candidates -/

/-- `mapping[left], mapping[right] = mapping[right], mapping[left]`. -/
def swapTiles (mapping : List Int) (left right : Nat) : List Int :=
  (mapping.set left (mapping.getD right 0)).set right (mapping.getD left 0)

/-- The loop of `buildSliderTileMapping`, over the steps that are left. -/
def applySwaps (tileCount : Int) : List Int → List Int → Except SliderError (List Int)
  | mapping, left :: right :: rest =>
      if left < 0 ∨ right < 0 ∨ left ≥ tileCount ∨ right ≥ tileCount then
        .error (.outOfRange left right)
      else applySwaps tileCount (swapTiles mapping left.toNat right.toNat) rest
  | mapping, _ => .ok mapping

/-- `sliderCandidate`. -/
structure SliderCandidate where
  index : Int
  activeSteps : List Int
  score : Int64
  deriving DecidableEq

/-- `absDiff`. -/
def absDiff (left right : UInt32) : Int64 :=
  if left > right then Int64.ofNat (left - right).toNat else Int64.ofNat (right - left).toNat

/-- `pixelDiff`. -/
def pixelDiff (left right : Color) : Int64 :=
  absDiff left.r right.r + absDiff left.g right.g + absDiff left.b right.b

section Ranking

variable (int : Int → Int)

/-- `buildSliderActiveSteps`. -/
def buildSliderActiveSteps (swaps : List Int) (candidateIndex : Int) : List Int :=
  if candidateIndex ≤ 0 then []
  else
    let stop := int (candidateIndex * 2)
    let stop := if candidateIndex.tmod 2 = 0 then int (stop - 2) else stop
    let stop := if stop < 0 then 0 else stop
    let stop := if stop > swaps.length then (swaps.length : Int) else stop
    swaps.take stop.toNat

/-- `buildSliderTileMapping`. -/
def buildSliderTileMapping (gridSize : Int) (activeSteps : List Int) :
    Except SliderError (List Int) :=
  let tileCount := int (gridSize * gridSize)
  if tileCount ≤ 0 then .error (.tileCount tileCount)
  else if activeSteps.length % 2 ≠ 0 then .error (.activeSteps activeSteps.length)
  else applySwaps tileCount ((List.range tileCount.toNat).map Int.ofNat) activeSteps

/-- The seam between a tile and the next one in its row, in `scoreRenderedSliderImage`. -/
def rowSeam (img : Image) (gridSize : Int) (score : Int64) (row col : Nat) : Int64 :=
  let index := int (int (row * gridSize) + col)
  let leftRect := sliderTileRect int img.bounds gridSize index
  let rightRect := sliderTileRect int img.bounds gridSize (int (index + 1))
  let height := min (leftRect.dy int) (rightRect.dy int)
  (List.range height.toNat).foldl (fun (score : Int64) (offset : Nat) =>
    score + pixelDiff
      (img.colorAt (int (leftRect.max.x - 1)) (int (leftRect.min.y + offset)))
      (img.colorAt rightRect.min.x (int (rightRect.min.y + offset)))) score

/-- The seam between a tile and the one below it. -/
def columnSeam (img : Image) (gridSize : Int) (score : Int64) (row col : Nat) : Int64 :=
  let topRect := sliderTileRect int img.bounds gridSize (int (int (row * gridSize) + col))
  let bottomRect :=
    sliderTileRect int img.bounds gridSize (int (int (int (row + 1) * gridSize) + col))
  let width := min (topRect.dx int) (bottomRect.dx int)
  (List.range width.toNat).foldl (fun (score : Int64) (offset : Nat) =>
    score + pixelDiff
      (img.colorAt (int (topRect.min.x + offset)) (int (topRect.max.y - 1)))
      (img.colorAt (int (bottomRect.min.x + offset)) bottomRect.min.y)) score

/-- `scoreRenderedSliderImage`. -/
def scoreRenderedSliderImage (img : Image) (gridSize : Int) : Int64 :=
  let score := (List.range gridSize.toNat).foldl (fun score row =>
    (List.range (int (gridSize - 1)).toNat).foldl (fun score col =>
      rowSeam int img gridSize score row col) score) 0
  (List.range (int (gridSize - 1)).toNat).foldl (fun score row =>
    (List.range gridSize.toNat).foldl (fun score col =>
      columnSeam int img gridSize score row col) score) score

/-- `scoreSliderCandidate`. -/
def scoreSliderCandidate (img : Image) (gridSize : Int) (mapping : List Int) :
    Except SliderError Int64 :=
  match renderSliderCandidate int img gridSize mapping with
  | .error err => .error err
  | .ok rendered => .ok (scoreRenderedSliderImage int rendered.image gridSize)

/-- The body of the loop of `rankSliderCandidates`. -/
def candidate (img : Image) (gridSize : Int) (swaps : List Int) (idx : Int) :
    Except SliderError SliderCandidate :=
  let activeSteps := buildSliderActiveSteps int swaps idx
  match buildSliderTileMapping int gridSize activeSteps with
  | .error err => .error err
  | .ok mapping =>
      match scoreSliderCandidate int img gridSize mapping with
      | .error err => .error err
      | .ok score => .ok ⟨idx, activeSteps, score⟩

/-- The loop, over the indices that are left. -/
def collect (img : Image) (gridSize : Int) (swaps : List Int) :
    List Int → Except SliderError (List SliderCandidate)
  | [] => .ok []
  | idx :: rest =>
      match candidate int img gridSize swaps idx with
      | .error err => .error err
      | .ok c =>
          match collect img gridSize swaps rest with
          | .error err => .error err
          | .ok cs => .ok (c :: cs)

/-- The order of the ranking; a candidate may stand before itself. -/
def SliderCandidate.le (a b : SliderCandidate) : Prop :=
  if a.score = b.score then a.index ≤ b.index else a.score < b.score

instance : DecidableRel SliderCandidate.le := fun a b =>
  inferInstanceAs (Decidable (if a.score = b.score then a.index ≤ b.index else a.score < b.score))

/-- The indices 1, 2, ..., `count`. -/
def indices (count : Nat) : List Int := (List.range count).map fun k : Nat => (k : Int) + 1

/-- `rankSliderCandidates`.  The order is total, so every sort that is right returns
    the same. -/
def rankSliderCandidates (img : Image) (gridSize : Int) (swaps : List Int) :
    Except SliderError (List SliderCandidate) :=
  let candidateCount := swaps.length / 2
  if candidateCount = 0 then .error .noCandidates
  else
    match collect int img gridSize swaps (indices candidateCount) with
    | .error err => .error err
    | .ok candidates => .ok (candidates.insertionSort SliderCandidate.le)

end Ranking

/-! ## What the parser accepts -/

/-- Two steps or more leave one swap or more, and no half of one. -/
theorem takeAttempts_swaps {remaining : List Int} (h : 2 ≤ remaining.length) :
    0 < (takeAttempts remaining).2.length ∧ (takeAttempts remaining).2.length % 2 = 0 ∧
      (takeAttempts remaining).2.length ≤ remaining.length := by
  rw [takeAttempts]
  split
  · rw [List.length_dropLast]
    omega
  · show 0 < remaining.length ∧ remaining.length % 2 = 0 ∧ remaining.length ≤ remaining.length
    omega

/-- What the parser returns; its last check never fails. -/
theorem parseSliderSteps_eq {steps : List Int} (hlen : ¬ steps.length < 3)
    (hsize : ¬ steps.headD 0 ≤ 0) :
    parseSliderSteps steps = .ok (steps.headD 0, (takeAttempts steps.tail).2,
      if (takeAttempts steps.tail).1 ≤ 0 then defaultSliderAttempts
      else (takeAttempts steps.tail).1) := by
  have htail : 2 ≤ steps.tail.length := by
    rw [List.length_tail]
    omega
  obtain ⟨hpos, heven, -⟩ := takeAttempts_swaps htail
  rw [parseSliderSteps, if_neg hlen]
  simp only
  rw [if_neg hsize, if_neg (by omega)]

/-- An accepted payload has a size and one swap or more; the attempts are not among the
    swaps. -/
theorem parseSliderSteps_ok {steps swaps : List Int} {size attempts : Int}
    (h : parseSliderSteps steps = .ok (size, swaps, attempts)) :
    0 < size ∧ 0 < attempts ∧ 0 < swaps.length ∧ swaps.length % 2 = 0 ∧
      swaps.length ≤ steps.length := by
  by_cases hlen : steps.length < 3
  · rw [parseSliderSteps, if_pos hlen] at h
    cases h
  by_cases hsize : steps.headD 0 ≤ 0
  · rw [parseSliderSteps, if_neg hlen] at h
    simp only [hsize, if_true] at h
    cases h
  rw [parseSliderSteps_eq hlen hsize] at h
  cases h
  have htail : 2 ≤ steps.tail.length := by
    rw [List.length_tail]
    omega
  obtain ⟨hpos, heven, hle⟩ := takeAttempts_swaps htail
  refine ⟨not_le.mp hsize, ?_, hpos, heven, hle.trans ?_⟩
  · split
    · decide
    · omega
  · rw [List.length_tail]
    omega

/-! ## Active steps -/

/-- **THE PREFIX RULE**: candidate `idx` applies `idx` pairs if it is odd, and one less if
    it is even. -/
theorem buildSliderActiveSteps_eq {arch : Arch} {swaps : List Int} {idx : Nat}
    (hslice : (swaps.length : Int) < 2 ^ (arch.width - 1)) (h0 : 0 < idx)
    (hidx : idx ≤ swaps.length / 2) :
    buildSliderActiveSteps arch.wrap swaps idx
      = swaps.take (2 * (if idx % 2 = 0 then idx - 1 else idx)) := by
  have hwrap : arch.wrap ((idx : Int) * 2) = (idx : Int) * 2 := wrap_eq_self (by omega) (by omega)
  have hwrap' : arch.wrap ((idx : Int) * 2 - 2) = (idx : Int) * 2 - 2 :=
    wrap_eq_self (by omega) (by omega)
  have hmod : (idx : Int).tmod 2 = (idx % 2 : Nat) := (Int.ofNat_tmod idx 2).symm
  rw [buildSliderActiveSteps, if_neg (by omega)]
  simp only [hwrap, hwrap', hmod]
  refine congrArg (swaps.take ·) ?_
  by_cases heven : idx % 2 = 0
  · have hcast : ((idx % 2 : Nat) : Int) = 0 := by omega
    rw [if_pos heven, if_pos hcast]
    split <;> split <;> omega
  · have hcast : ((idx % 2 : Nat) : Int) ≠ 0 := by omega
    rw [if_neg heven, if_neg hcast]
    split <;> split <;> omega

/-! ## Tile mappings -/

/-- The permutation of a list of swaps: the product of its transpositions. -/
def composed : List Int → Equiv.Perm Int
  | left :: right :: rest => Equiv.swap left right * composed rest
  | _ => 1

/-- The mapping of a permutation of `n` tiles. -/
def mappingOf (n : Nat) (τ : Int → Int) : List Int := (List.range n).map fun i : Nat => τ i

theorem getElem?_mappingOf (n : Nat) (τ : Int → Int) (i : Nat) :
    (mappingOf n τ)[i]? = if i < n then some (τ i) else none := by
  rw [mappingOf, List.getElem?_map]
  split
  · rw [List.getElem?_range ‹_›, Option.map_some]
  · rw [List.getElem?_eq_none (by rw [List.length_range]; omega), Option.map_none]

/-- One swap. -/
theorem swapTiles_mappingOf {n left right : Nat} (hl : left < n) (hr : right < n)
    (τ : Int → Int) :
    swapTiles (mappingOf n τ) left right
      = mappingOf n fun i => τ (Equiv.swap (left : Int) right i) := by
  have hlen : (mappingOf n τ).length = n := by rw [mappingOf, List.length_map, List.length_range]
  have hget : ∀ i < n, (mappingOf n τ).getD i 0 = τ i := fun i hi => by
    rw [List.getD_eq_getElem?_getD, getElem?_mappingOf, if_pos hi, Option.getD_some]
  refine List.ext_getElem? fun i => ?_
  rw [swapTiles, hget left hl, hget right hr, List.getElem?_set, List.getElem?_set,
    List.length_set, hlen, getElem?_mappingOf, getElem?_mappingOf]
  by_cases hir : right = i
  · subst hir
    rw [if_pos rfl, if_pos hr, if_pos hr, Equiv.swap_apply_right]
  · rw [if_neg hir]
    by_cases hil : left = i
    · subst hil
      rw [if_pos rfl, if_pos hl, if_pos hl, Equiv.swap_apply_left]
    · have hne : (i : Int) ≠ left := fun e => hil (Int.ofNat_inj.mp e.symm)
      have hne' : (i : Int) ≠ right := fun e => hir (Int.ofNat_inj.mp e.symm)
      rw [if_neg hil, Equiv.swap_apply_of_ne_of_ne hne hne']

/-- **THE LOOP**: in range, it composes the mapping with the swaps. -/
theorem applySwaps_ok {n : Nat} (steps : List Int) (τ : Int → Int)
    (hrange : ∀ s ∈ steps, 0 ≤ s ∧ s < (n : Int)) :
    applySwaps n (mappingOf n τ) steps = .ok (mappingOf n fun i => τ (composed steps i)) := by
  fun_induction composed steps generalizing τ with
  | case1 left right rest ih =>
      obtain ⟨hl, hl'⟩ := hrange left List.mem_cons_self
      obtain ⟨hr, hr'⟩ := hrange right (List.mem_cons_of_mem _ List.mem_cons_self)
      rw [applySwaps, if_neg (by omega), swapTiles_mappingOf (by omega) (by omega),
        Int.toNat_of_nonneg hl, Int.toNat_of_nonneg hr]
      exact ih _ fun s hs => hrange s (List.mem_cons_of_mem _ (List.mem_cons_of_mem _ hs))
  | case2 steps hshort =>
      rw [applySwaps]
      · rfl
      · exact hshort

/-- The swaps move no tile out of the grid. -/
theorem composed_range {n : Nat} {steps : List Int}
    (hrange : ∀ s ∈ steps, 0 ≤ s ∧ s < (n : Int)) {i : Int} (hi : 0 ≤ i ∧ i < n) :
    0 ≤ composed steps i ∧ composed steps i < n := by
  fun_induction composed steps with
  | case1 left right rest ih =>
      have hrest := ih fun s hs => hrange s (List.mem_cons_of_mem _ (List.mem_cons_of_mem _ hs))
      rw [Equiv.Perm.mul_apply]
      by_cases hl : composed rest i = left
      · rw [hl, Equiv.swap_apply_left]
        exact hrange right (List.mem_cons_of_mem _ List.mem_cons_self)
      · by_cases hr : composed rest i = right
        · rw [hr, Equiv.swap_apply_right]
          exact hrange left List.mem_cons_self
        · rw [Equiv.swap_apply_of_ne_of_ne hl hr]
          exact hrest
  | case2 steps hshort => exact hi

/-- **A PERMUTATION**: every tile is used, once. -/
theorem mappingOf_perm {n : Nat} {steps : List Int}
    (hrange : ∀ s ∈ steps, 0 ≤ s ∧ s < (n : Int)) :
    (mappingOf n (composed steps)).Perm ((List.range n).map Int.ofNat) := by
  have hnodup : (mappingOf n (composed steps)).Nodup := by
    refine List.Nodup.map ?_ List.nodup_range
    intro a b hab
    exact Int.ofNat_inj.mp ((composed steps).injective hab)
  have hsub : mappingOf n (composed steps) ⊆ (List.range n).map Int.ofNat := by
    intro m hm
    obtain ⟨i, hi, rfl⟩ := List.mem_map.mp hm
    obtain ⟨h0, hn⟩ := composed_range hrange (i := (i : Int))
      ⟨Int.natCast_nonneg i, Int.ofNat_lt.mpr (List.mem_range.mp hi)⟩
    exact List.mem_map.mpr ⟨(composed steps i).toNat, List.mem_range.mpr (by omega),
      Int.toNat_of_nonneg h0⟩
  refine (List.subperm_of_subset hnodup hsub).perm_of_length_le ?_
  rw [List.length_map, mappingOf, List.length_map]

theorem buildSliderTileMapping_ok {arch : Arch} {g : Nat} {steps : List Int} (hg : 0 < g)
    (hint : (g : Int) * g < 2 ^ (arch.width - 1)) (heven : steps.length % 2 = 0)
    (hrange : ∀ s ∈ steps, 0 ≤ s ∧ s < (g : Int) * g) :
    buildSliderTileMapping arch.wrap g steps = .ok (mappingOf (g * g) (composed steps)) := by
  have hpos : (0 : Int) < (g : Int) * g := mul_pos (Int.ofNat_lt.mpr hg) (Int.ofNat_lt.mpr hg)
  have hwrap : arch.wrap ((g : Int) * g) = ((g * g : Nat) : Int) := by
    rw [wrap_eq_self (by omega) hint, Nat.cast_mul]
  rw [buildSliderTileMapping, hwrap, if_neg (by rw [Nat.cast_mul]; omega), if_neg (by omega)]
  exact applySwaps_ok steps id (by rw [Nat.cast_mul]; exact hrange)

/-! ## The ranking -/

theorem indices_nodup (count : Nat) : (indices count).Nodup := by
  refine List.Nodup.map ?_ List.nodup_range
  intro a b hab
  exact Int.ofNat_inj.mp (add_right_cancel hab)

section Rank

variable {arch : Arch} {g : Nat} {img : Image} {swaps : List Int}

/-- What a candidate is, by its index. -/
structure Ranked (arch : Arch) (img : Image) (g : Nat) (swaps : List Int) (c : SliderCandidate) :
    Prop where
  isPrefix : c.activeSteps <+: swaps
  even : c.activeSteps.length % 2 = 0
  pairs : (c.activeSteps.length : Int) ≤ 2 * c.index
  permutation : (mappingOf (g * g) (composed c.activeSteps)).Perm
    ((List.range (g * g)).map Int.ofNat)
  mapping : buildSliderTileMapping arch.wrap g c.activeSteps
    = .ok (mappingOf (g * g) (composed c.activeSteps))
  score : scoreSliderCandidate arch.wrap img g (mappingOf (g * g) (composed c.activeSteps))
    = .ok c.score

/-- A mapping of the right length is rendered and scored. -/
theorem scoreSliderCandidate_ok (hg : 0 < g) (hint : (g : Int) * g < 2 ^ (arch.width - 1))
    (img : Image) {mapping : List Int} (hlen : mapping.length = g * g) :
    ∃ score, scoreSliderCandidate arch.wrap img g mapping = .ok score := by
  have hpos : (0 : Int) < (g : Int) * g := mul_pos (Int.ofNat_lt.mpr hg) (Int.ofNat_lt.mpr hg)
  have hcount : (mapping.length : Int) = arch.wrap ((g : Int) * g) := by
    rw [wrap_eq_self (by omega) hint, hlen, Nat.cast_mul]
  have hrender : ∃ r, renderSliderCandidate arch.wrap img g mapping = .ok r := by
    rw [renderSliderCandidate, if_neg (by omega)]
    simp only
    rw [if_neg (not_not.mpr hcount)]
    exact ⟨_, rfl⟩
  obtain ⟨r, hr⟩ := hrender
  rw [scoreSliderCandidate, hr]
  exact ⟨_, rfl⟩

/-- **ONE CANDIDATE**: it does not fail. -/
theorem candidate_ok (hg : 0 < g) (hint : (g : Int) * g < 2 ^ (arch.width - 1))
    (hslice : (swaps.length : Int) < 2 ^ (arch.width - 1))
    (hrange : ∀ s ∈ swaps, 0 ≤ s ∧ s < (g : Int) * g) (img : Image) {idx : Nat} (h0 : 0 < idx)
    (hidx : idx ≤ swaps.length / 2) :
    ∃ c, candidate arch.wrap img g swaps idx = .ok c ∧ c.index = idx ∧
      Ranked arch img g swaps c := by
  have hactive := buildSliderActiveSteps_eq hslice h0 hidx
  have hpairs : (if idx % 2 = 0 then idx - 1 else idx) ≤ idx := by
    split <;> omega
  set steps := buildSliderActiveSteps arch.wrap swaps idx with hsteps
  have hlen : steps.length = 2 * (if idx % 2 = 0 then idx - 1 else idx) := by
    rw [hactive, List.length_take]
    omega
  have hpre : steps <+: swaps := hactive ▸ List.take_prefix _ _
  have hsub : ∀ s ∈ steps, 0 ≤ s ∧ s < (g : Int) * g := fun s hs =>
    hrange s (hpre.subset hs)
  have hmap := buildSliderTileMapping_ok hg hint (by omega) hsub
  obtain ⟨score, hscore⟩ := @scoreSliderCandidate_ok arch g hg hint img
    (mappingOf (g * g) (composed steps)) (by rw [mappingOf, List.length_map, List.length_range])
  refine ⟨⟨idx, steps, score⟩, ?_, rfl, ?_⟩
  · rw [candidate, ← hsteps]
    simp only [hmap, hscore]
  · have heven : steps.length % 2 = 0 := by omega
    have hbound : (steps.length : Int) ≤ 2 * idx := by omega
    exact ⟨hpre, heven, hbound, mappingOf_perm (by rw [Nat.cast_mul]; exact hsub), hmap, hscore⟩

/-- The loop collects its candidates, one for each index. -/
theorem collect_ok {int : Int → Int} {size : Int} {P : SliderCandidate → Prop} {l : List Int}
    (h : ∀ idx ∈ l, ∃ c, candidate int img size swaps idx = .ok c ∧ c.index = idx ∧ P c) :
    ∃ cs, collect int img size swaps l = .ok cs ∧ cs.map SliderCandidate.index = l ∧
      ∀ c ∈ cs, P c := by
  induction l with
  | nil => exact ⟨[], rfl, rfl, fun c hc => (by cases hc)⟩
  | cons idx rest ih =>
      obtain ⟨c, hc, hindex, hP⟩ := h idx List.mem_cons_self
      obtain ⟨cs, hcs, hindices, hall⟩ := ih fun i hi => h i (List.mem_cons_of_mem _ hi)
      refine ⟨c :: cs, ?_, ?_, ?_⟩
      · rw [collect, hc, hcs]
      · rw [List.map_cons, hindex, hindices]
      · intro d hd
        rcases List.mem_cons.mp hd with rfl | hd
        · exact hP
        · exact hall d hd

end Rank

theorem SliderCandidate.le_iff {a b : SliderCandidate} :
    a.le b ↔ a.score.toInt < b.score.toInt ∨
      (a.score.toInt = b.score.toInt ∧ a.index ≤ b.index) := by
  rw [SliderCandidate.le]
  by_cases hs : a.score = b.score
  · rw [if_pos hs, hs]
    omega
  · have hne : a.score.toInt ≠ b.score.toInt := fun e => hs (Int64.toInt_inj.mp e)
    rw [if_neg hs, Int64.lt_iff_toInt_lt]
    omega

instance : Std.Total SliderCandidate.le := ⟨fun a b => by
  rw [SliderCandidate.le_iff, SliderCandidate.le_iff]
  omega⟩

instance : IsTrans SliderCandidate SliderCandidate.le := ⟨fun a b c hab hbc => by
  rw [SliderCandidate.le_iff] at hab hbc ⊢
  omega⟩

/-- One candidate stands before another: by score, and then by index. -/
def SliderCandidate.Before (a b : SliderCandidate) : Prop :=
  a.score < b.score ∨ (a.score = b.score ∧ a.index < b.index)

/-- Candidates with distinct indices are sorted strictly. -/
theorem sorted_before {cs : List SliderCandidate}
    (hdistinct : (cs.map SliderCandidate.index).Nodup) :
    (cs.insertionSort SliderCandidate.le).Pairwise SliderCandidate.Before := by
  have hperm := List.perm_insertionSort SliderCandidate.le cs
  have hne : (cs.insertionSort SliderCandidate.le).Pairwise fun a b => a.index ≠ b.index :=
    List.pairwise_map.mp ((hperm.map SliderCandidate.index).nodup_iff.mpr hdistinct)
  refine ((List.pairwise_insertionSort SliderCandidate.le cs).and hne).imp ?_
  rintro a b ⟨hle, hindex⟩
  rw [SliderCandidate.le] at hle
  split at hle
  · exact Or.inr ⟨‹_›, lt_of_le_of_ne hle hindex⟩
  · exact Or.inl hle

/-- **THE RANKING.**  For every payload that the parser accepts, whose swaps name tiles and
    whose number of tiles is an `int`, and for every image, ranking succeeds.  It
    returns one candidate for each index from 1 to half the number of swaps, ordered by
    score and then by index.  Each has an even prefix of the swaps, of at most
    `index` pairs; and the mapping it was scored by is the permutation of the tiles that
    is the product of those transpositions. -/
theorem candidate_ranking {arch : Arch} {steps swaps : List Int} {size attempts : Int}
    (hslice : (steps.length : Int) < 2 ^ (arch.width - 1))
    (hsteps : parseSliderSteps steps = .ok (size, swaps, attempts))
    (hint : size * size < 2 ^ (arch.width - 1))
    (hrange : ∀ s ∈ swaps, 0 ≤ s ∧ s < size * size) (img : Image) :
    ∃ candidates, rankSliderCandidates arch.wrap img size swaps = .ok candidates ∧
      (candidates.map SliderCandidate.index).Perm (indices (swaps.length / 2)) ∧
      candidates.Pairwise SliderCandidate.Before ∧
      ∀ c ∈ candidates, c.activeSteps <+: swaps ∧ c.activeSteps.length % 2 = 0 ∧
        (c.activeSteps.length : Int) ≤ 2 * c.index ∧
        ∃ mapping : List Int, buildSliderTileMapping arch.wrap size c.activeSteps = .ok mapping ∧
          mapping = mappingOf (size * size).toNat (composed c.activeSteps) ∧
          mapping.Perm ((List.range (size * size).toNat).map Int.ofNat) ∧
          scoreSliderCandidate arch.wrap img size mapping = .ok c.score := by
  obtain ⟨hpos, -, hsome, heven, hle⟩ := parseSliderSteps_ok hsteps
  obtain ⟨g, rfl⟩ := Int.eq_ofNat_of_zero_le hpos.le
  have hg : 0 < g := Int.ofNat_lt.mp hpos
  have htiles : ((g : Int) * g).toNat = g * g := by rw [← Nat.cast_mul, Int.toNat_natCast]
  have hall : ∀ idx ∈ indices (swaps.length / 2),
      ∃ c, candidate arch.wrap img g swaps idx = .ok c ∧ c.index = idx ∧
        Ranked arch img g swaps c := by
    intro idx hidx
    obtain ⟨k, hk, rfl⟩ := List.mem_map.mp hidx
    exact candidate_ok hg hint (by omega) hrange img (Nat.succ_pos k) (List.mem_range.mp hk)
  obtain ⟨cs, hcs, hindices, hranked⟩ := collect_ok hall
  have hperm := List.perm_insertionSort SliderCandidate.le cs
  refine ⟨cs.insertionSort SliderCandidate.le, ?_, ?_, ?_, ?_⟩
  · rw [rankSliderCandidates, if_neg (by omega), hcs]
  · rw [← hindices]
    exact hperm.map SliderCandidate.index
  · exact sorted_before (hindices ▸ indices_nodup _)
  · intro c hc
    have hc' := hranked c (hperm.mem_iff.mp hc)
    rw [htiles]
    exact ⟨hc'.isPrefix, hc'.even, hc'.pairs, _, hc'.mapping, rfl, hc'.permutation, hc'.score⟩

/-- The payload 3 | 0 1 | 0 1 | 2 2, for a grid of three. -/
theorem three_candidates_ranked :
    ∃ candidates, rankSliderCandidates Arch.bits64.wrap stripes 3 [0, 1, 0, 1, 2, 2]
        = .ok candidates ∧ (candidates.map SliderCandidate.index).Perm [1, 2, 3] := by
  obtain ⟨candidates, hrank, hindices, -⟩ := @candidate_ranking .bits64 [3, 0, 1, 0, 1, 2, 2]
    [0, 1, 0, 1, 2, 2] 3 4 (by decide) (by rfl) (by decide) (by decide) stripes
  exact ⟨candidates, hrank, hindices⟩

end VkTurnSlider
