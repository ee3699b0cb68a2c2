import VkTurn.GoImageProofs
import VkTurn.GoTextProofs

/-! # Tiles of the slider captcha

    The slider captcha is an image cut into `gridSize * gridSize` tiles that the server
    has permuted.  The solver renders each candidate: tile `i` of the picture is tile
    `mapping[i]` of the image, scaled.

    Along one side the tiles are the pieces between the EDGES `lo + k * len / gridSize`.
    Edges only go one way, so their pieces tell the points apart and leave none out
    (`piece_unique`, `piece_iff`), also where `gridSize` does not divide the length.  Every
    point of the picture is therefore written by one tile (`render_pixel`), and the rest
    is about where that tile has it from. -/

namespace VkTurnSlider

open GoImage GoText

/-! ## The renderer -/

/-- The errors of ranking and rendering. -/
inductive SliderError where
  | gridSize (size : Int)
  | mappingLength (length : Int)
  | tileCount (count : Int)
  | activeSteps (length : Int)
  | outOfRange (left right : Int)
  | noCandidates
  deriving DecidableEq

def SliderError.text : SliderError → Bytes
  | .gridSize size => ascii "invalid grid size: " ++ itoa size
  | .mappingLength length => ascii "unexpected tile mapping length: " ++ itoa length
  | .tileCount count => ascii "invalid slider tile count: " ++ itoa count
  | .activeSteps length => ascii "invalid active steps length: " ++ itoa length
  | .outOfRange left right =>
      ascii "slider step out of range: " ++ itoa left ++ ascii "," ++ itoa right
  | .noCandidates => ascii "slider has no candidates"

section Renderer

variable (int : Int → Int)

/-- `sliderTileRect`. -/
def sliderTileRect (bounds : Rectangle) (gridSize index : Int) : Rectangle :=
  let row := index.tdiv gridSize
  let col := index.tmod gridSize
  let x0 := int (bounds.min.x + (int (col * bounds.dx int)).tdiv gridSize)
  let x1 := int (bounds.min.x + (int (int (col + 1) * bounds.dx int)).tdiv gridSize)
  let y0 := int (bounds.min.y + (int (row * bounds.dy int)).tdiv gridSize)
  let y1 := int (bounds.min.y + (int (int (row + 1) * bounds.dy int)).tdiv gridSize)
  rect x0 y0 x1 y1

/-- `copyScaledTile`. -/
def copyScaledTile (dst : RGBAImage) (dstRect : Rectangle) (src : Image) (srcRect : Rectangle) :
    RGBAImage :=
  if dstRect.empty || srcRect.empty then dst
  else
    let dstWidth := dstRect.dx int
    let dstHeight := dstRect.dy int
    let srcWidth := srcRect.dx int
    let srcHeight := srcRect.dy int
    (List.range dstHeight.toNat).foldl (fun (dst : RGBAImage) (y : Nat) =>
      let sy := int (srcRect.min.y + (int (y * srcHeight)).tdiv dstHeight)
      (List.range dstWidth.toNat).foldl (fun (dst : RGBAImage) (x : Nat) =>
        let sx := int (srcRect.min.x + (int (x * srcWidth)).tdiv dstWidth)
        dst.set (int (dstRect.min.x + x)) (int (dstRect.min.y + y)) (src.colorAt sx sy)) dst) dst

/-- `renderSliderCandidate`. -/
def renderSliderCandidate (img : Image) (gridSize : Int) (mapping : List Int) :
    Except SliderError RGBAImage :=
  if gridSize ≤ 0 then .error (.gridSize gridSize)
  else
    let tileCount := int (gridSize * gridSize)
    if (mapping.length : Int) ≠ tileCount then .error (.mappingLength mapping.length)
    else
      let bounds := img.bounds
      -- an entry of the mapping and where it stands: source and destination
      .ok (mapping.zipIdx.foldl (fun rendered e =>
        let srcRect := sliderTileRect int bounds gridSize e.1
        let dstRect := sliderTileRect int bounds gridSize e.2
        copyScaledTile int rendered dstRect img srcRect) (newRGBA bounds img.wellFormed))

end Renderer

/-! ## Pieces between edges -/

/-- `x` is in piece `k`, between edge `k` and the next, whichever comes first. -/
def Between (e : Nat → Int) (k : Nat) (x : Int) : Prop :=
  min (e k) (e (k + 1)) ≤ x ∧ x < max (e k) (e (k + 1))

/-- Edges that only go one way. -/
def OneWay (e : Nat → Int) : Prop := Monotone e ∨ Antitone e

section Pieces

variable {e : Nat → Int} {x : Int}

theorem between_of_monotone (h : Monotone e) (k : Nat) :
    Between e k x ↔ e k ≤ x ∧ x < e (k + 1) := by
  have hle : e k ≤ e (k + 1) := h (Nat.le_succ k)
  rw [Between, min_eq_left hle, max_eq_right hle]

/-- Edges that go down are edges that go up, seen from the other side. -/
theorem between_of_antitone (h : Antitone e) (k : Nat) :
    Between e k x ↔ Between (fun k => -e k) k (-x - 1) := by
  have hle : e (k + 1) ≤ e k := h (Nat.le_succ k)
  have hneg : Monotone fun k => -e k := fun _ _ hij => neg_le_neg (h hij)
  rw [between_of_monotone hneg, Between, min_eq_right hle, max_eq_left hle]
  omega

/-- A point between the first edge and the last is in some piece. -/
theorem piece_exists (n : Nat) (h0 : e 0 ≤ x) (hn : x < e n) :
    ∃ k < n, e k ≤ x ∧ x < e (k + 1) := by
  induction n with
  | zero => exact absurd hn (not_lt.mpr h0)
  | succ n ih =>
      by_cases hx : x < e n
      · obtain ⟨k, hk, hpiece⟩ := ih hx
        exact ⟨k, Nat.lt_succ_of_lt hk, hpiece⟩
      · exact ⟨n, Nat.lt_succ_self n, not_lt.mp hx, hn⟩

theorem piece_iff_of_monotone (h : Monotone e) (n : Nat) :
    (∃ k < n, Between e k x) ↔ e 0 ≤ x ∧ x < e n := by
  constructor
  · rintro ⟨k, hk, hpiece⟩
    obtain ⟨hlo, hhi⟩ := (between_of_monotone h k).mp hpiece
    exact ⟨(h (Nat.zero_le k)).trans hlo, hhi.trans_le (h hk)⟩
  · rintro ⟨h0, hn⟩
    obtain ⟨k, hk, hpiece⟩ := piece_exists n h0 hn
    exact ⟨k, hk, (between_of_monotone h k).mpr hpiece⟩

/-- **NOTHING IS LEFT OUT**: the first `n` pieces are what lies between edge 0 and edge
    `n`. -/
theorem piece_iff (h : OneWay e) (n : Nat) :
    (∃ k < n, Between e k x) ↔ min (e 0) (e n) ≤ x ∧ x < max (e 0) (e n) := by
  rcases h with h | h
  · rw [piece_iff_of_monotone h, min_eq_left (h (Nat.zero_le n)), max_eq_right (h (Nat.zero_le n))]
  · have hneg : Monotone fun k => -e k := fun _ _ hij => neg_le_neg (h hij)
    have hflip : (∃ k < n, Between e k x) ↔ ∃ k < n, Between (fun k => -e k) k (-x - 1) :=
      exists_congr fun k => and_congr_right fun _ => between_of_antitone h k
    rw [hflip, piece_iff_of_monotone hneg, min_eq_right (h (Nat.zero_le n)),
      max_eq_left (h (Nat.zero_le n))]
    omega

theorem piece_unique_of_monotone (h : Monotone e) {j k : Nat} (hj : Between e j x)
    (hk : Between e k x) : j = k := by
  obtain ⟨hj1, hj2⟩ := (between_of_monotone h j).mp hj
  obtain ⟨hk1, hk2⟩ := (between_of_monotone h k).mp hk
  rcases Nat.lt_trichotomy j k with hlt | heq | hgt
  · exact absurd (hj2.trans_le (h hlt)) (not_lt.mpr hk1)
  · exact heq
  · exact absurd (hk2.trans_le (h hgt)) (not_lt.mpr hj1)

/-- **NOTHING IS SHARED**: a point is in one piece. -/
theorem piece_unique (h : OneWay e) {j k : Nat} (hj : Between e j x) (hk : Between e k x) :
    j = k := by
  rcases h with h | h
  · exact piece_unique_of_monotone h hj hk
  · have hneg : Monotone fun k => -e k := fun _ _ hij => neg_le_neg (h hij)
    exact piece_unique_of_monotone hneg ((between_of_antitone h j).mp hj)
      ((between_of_antitone h k).mp hk)

end Pieces

/-- Edge `k` of a side that starts at `lo`, cut into `g` pieces. -/
def edge (lo len : Int) (g : Nat) (k : Int) : Int := lo + (k * len).tdiv g

section Edges

variable {g : Nat} (lo len : Int)

theorem edge_zero : edge lo len g 0 = lo := by
  rw [edge, zero_mul, Int.zero_tdiv, add_zero]

theorem edge_last (hg : 0 < g) : edge lo len g g = lo + len := by
  rw [edge, Int.mul_tdiv_cancel_left _ (by omega)]

theorem edge_oneWay (hg : 0 < g) : OneWay fun k : Nat => edge lo len g k := by
  have hup : ∀ (len : Int), 0 ≤ len → Monotone fun k : Nat => ((k : Int) * len).tdiv g := by
    intro len hlen j k hjk
    have hj : (0 : Int) ≤ j * len := mul_nonneg (Int.natCast_nonneg j) hlen
    have hk : (0 : Int) ≤ k * len := mul_nonneg (Int.natCast_nonneg k) hlen
    show ((j : Int) * len).tdiv g ≤ ((k : Int) * len).tdiv g
    rw [Int.tdiv_eq_ediv_of_nonneg hj, Int.tdiv_eq_ediv_of_nonneg hk]
    exact Int.ediv_le_ediv (Int.ofNat_lt.mpr hg)
      (mul_le_mul_of_nonneg_right (Int.ofNat_le.mpr hjk) hlen)
  rcases le_total 0 len with hlen | hlen
  · exact Or.inl fun j k hjk => add_le_add_right (hup len hlen hjk) lo
  · -- division truncates, so a negative side has the negated edges
    refine Or.inr fun j k hjk => ?_
    have hneg := hup (-len) (neg_nonneg.mpr hlen) hjk
    simp only [mul_neg, Int.neg_tdiv] at hneg
    exact add_le_add_right (neg_le_neg_iff.mp hneg) lo

end Edges

/-! ## Tiles

    From here on coordinates are mathematical integers. -/

/-- Tile `index` of a grid. -/
def tile (bounds : Rectangle) (g : Nat) (index : Int) : Rectangle :=
  sliderTileRect id bounds g index

section Tiles

variable {bounds : Rectangle} {g : Nat}

theorem tile_eq (bounds : Rectangle) (g : Nat) (index : Int) :
    tile bounds g index
      = rect (edge bounds.min.x (bounds.dx id) g (index.tmod g))
          (edge bounds.min.y (bounds.dy id) g (index.tdiv g))
          (edge bounds.min.x (bounds.dx id) g (index.tmod g + 1))
          (edge bounds.min.y (bounds.dy id) g (index.tdiv g + 1)) := rfl

/-- A point of a tile is in a piece of either side. -/
theorem tile_has {i : Nat} {x y : Int} :
    (tile bounds g i).Has x y ↔
      Between (fun k : Nat => edge bounds.min.x (bounds.dx id) g k) (i % g) x ∧
        Between (fun k : Nat => edge bounds.min.y (bounds.dy id) g k) (i / g) y := by
  rw [tile_eq, ← Int.ofNat_tmod, ← Int.ofNat_tdiv]
  exact Iff.rfl

/-- **DISJOINT**: no point is in two tiles. -/
theorem tile_unique (hg : 0 < g) {i j : Nat} {x y : Int} (hi : (tile bounds g i).Has x y)
    (hj : (tile bounds g j).Has x y) : i = j := by
  obtain ⟨hix, hiy⟩ := tile_has.mp hi
  obtain ⟨hjx, hjy⟩ := tile_has.mp hj
  have hcol : i % g = j % g := piece_unique (edge_oneWay _ _ hg) hix hjx
  have hrow : i / g = j / g := piece_unique (edge_oneWay _ _ hg) hiy hjy
  rw [← Nat.div_add_mod i g, ← Nat.div_add_mod j g, hcol, hrow]

/-- **COVERED**: the tiles are the rectangle, with its corners in order. -/
theorem tile_cover (hg : 0 < g) (x y : Int) :
    (∃ i < g * g, (tile bounds g i).Has x y) ↔ bounds.canon.Has x y := by
  have hx := piece_iff (x := x) (edge_oneWay bounds.min.x (bounds.dx id) hg) g
  have hy := piece_iff (x := y) (edge_oneWay bounds.min.y (bounds.dy id) hg) g
  have hxlast : bounds.min.x + bounds.dx id = bounds.max.x := add_sub_cancel _ _
  have hylast : bounds.min.y + bounds.dy id = bounds.max.y := add_sub_cancel _ _
  rw [Nat.cast_zero, edge_zero, edge_last _ _ hg, hxlast] at hx
  rw [Nat.cast_zero, edge_zero, edge_last _ _ hg, hylast] at hy
  have hcanon : bounds.canon.Has x y ↔
      (min bounds.min.x bounds.max.x ≤ x ∧ x < max bounds.min.x bounds.max.x) ∧
        (min bounds.min.y bounds.max.y ≤ y ∧ y < max bounds.min.y bounds.max.y) := Iff.rfl
  rw [hcanon, ← hx, ← hy]
  constructor
  · rintro ⟨i, hi, hhas⟩
    obtain ⟨hcol, hrow⟩ := tile_has.mp hhas
    exact ⟨⟨i % g, Nat.mod_lt i hg, hcol⟩, ⟨i / g, Nat.div_lt_of_lt_mul hi, hrow⟩⟩
  · rintro ⟨⟨col, hcol, hx⟩, ⟨row, hrow, hy⟩⟩
    refine ⟨g * row + col, ?_, tile_has.mpr ?_⟩
    · calc g * row + col < g * row + g := Nat.add_lt_add_left hcol _
        _ = g * (row + 1) := (Nat.mul_succ g row).symm
        _ ≤ g * g := Nat.mul_le_mul_left g hrow
    · rw [Nat.mul_add_mod, Nat.mod_eq_of_lt hcol, Nat.mul_add_div hg, Nat.div_eq_of_lt hcol,
        Nat.add_zero]
      exact ⟨hx, hy⟩

end Tiles

/-! ## Rendering is painting -/

/-- The colour that a tile gets at a point from another tile. -/
def sample (img : Image) (dst src : Rectangle) (x y : Int) : Color :=
  img.colorAt (src.min.x + ((x - dst.min.x) * src.dx id).tdiv (dst.dx id))
    (src.min.y + ((y - dst.min.y) * src.dy id).tdiv (dst.dy id))

/-- The writes that copy a tile. -/
def tileWrites (img : Image) (dst src : Rectangle) : List Write :=
  if dst.empty || src.empty then []
  else
    (List.range (dst.dy id).toNat).flatMap fun (y : Nat) =>
      (List.range (dst.dx id).toNat).map fun (x : Nat) =>
        ⟨dst.min.x + x, dst.min.y + y, sample img dst src (dst.min.x + x) (dst.min.y + y)⟩

theorem copyScaledTile_paint (p : RGBAImage) (img : Image) (dst src : Rectangle) :
    copyScaledTile id p dst img src = p.paint (tileWrites img dst src) := by
  rw [copyScaledTile, tileWrites]
  split
  · rfl
  · simp only [RGBAImage.paint, List.foldl_flatMap, List.foldl_map, RGBAImage.write, sample,
      add_sub_cancel_left, id]

/-- The writes that render a mapping. -/
def renderWrites (img : Image) (g : Nat) (mapping : List Int) : List Write :=
  mapping.zipIdx.flatMap fun e => tileWrites img (tile img.bounds g e.2) (tile img.bounds g e.1)

/-- The picture of a mapping. -/
def rendering (img : Image) (g : Nat) (mapping : List Int) : RGBAImage :=
  (newRGBA img.bounds img.wellFormed).paint (renderWrites img g mapping)

theorem renderSliderCandidate_ok {g : Nat} (hg : 0 < g) (img : Image) {mapping : List Int}
    (hlen : mapping.length = g * g) :
    renderSliderCandidate id img g mapping = .ok (rendering img g mapping) := by
  have hcount : (mapping.length : Int) = (g : Int) * g := by rw [hlen, Nat.cast_mul]
  rw [renderSliderCandidate, if_neg (by omega)]
  simp only [id, hcount, ne_eq, not_true_eq_false, if_false]
  refine congrArg Except.ok ?_
  rw [rendering, renderWrites, RGBAImage.paint, List.foldl_flatMap]
  simp only [copyScaledTile_paint]
  rfl

section Writes

variable {img : Image} {dst src : Rectangle}

/-- A write stays in its tile, and has the colour of the other tile. -/
theorem mem_tileWrites {w : Write} (h : w ∈ tileWrites img dst src) :
    dst.Has w.x w.y ∧ w.color = sample img dst src w.x w.y := by
  rw [tileWrites] at h
  split at h
  · cases h
  · obtain ⟨y, hy, h⟩ := List.mem_flatMap.mp h
    obtain ⟨x, hx, rfl⟩ := List.mem_map.mp h
    rw [List.mem_range, Rectangle.dx, id] at hx
    rw [List.mem_range, Rectangle.dy, id] at hy
    refine ⟨?_, rfl⟩
    show (dst.min.x ≤ dst.min.x + x ∧ dst.min.x + x < dst.max.x) ∧
      dst.min.y ≤ dst.min.y + y ∧ dst.min.y + y < dst.max.y
    omega

/-- Every point of a tile is written, if there is something to copy. -/
theorem exists_tileWrite {x y : Int} (hhas : dst.Has x y) (hsrc : src.empty = false) :
    ∃ w ∈ tileWrites img dst src, w.x = x ∧ w.y = y := by
  rw [tileWrites, hhas.not_empty, hsrc, if_neg (by decide)]
  obtain ⟨⟨hx, hx'⟩, hy, hy'⟩ := hhas
  have hcol : (x - dst.min.x).toNat < (dst.dx id).toNat := by
    rw [Rectangle.dx, id]
    omega
  have hrow : (y - dst.min.y).toNat < (dst.dy id).toNat := by
    rw [Rectangle.dy, id]
    omega
  refine ⟨_, List.mem_flatMap.mpr ⟨_, List.mem_range.mpr hrow,
    List.mem_map.mpr ⟨_, List.mem_range.mpr hcol, rfl⟩⟩, ?_, ?_⟩
  · show dst.min.x + ((x - dst.min.x).toNat : Int) = x
    omega
  · show dst.min.y + ((y - dst.min.y).toNat : Int) = y
    omega

end Writes

section Pictures

variable {img : Image} {g : Nat} {mapping : List Int} {x y : Int}

theorem rendering_rect (img : Image) (g : Nat) (mapping : List Int) :
    (rendering img g mapping).rect = img.bounds := paint_rect _ _

theorem tile_in_bounds (hg : 0 < g) {i : Nat} (hi : i < g * g)
    (hhas : (tile img.bounds g i).Has x y) : img.bounds.Has x y :=
  img.wellFormed.canon_eq ▸ (tile_cover hg x y).mp ⟨i, hi, hhas⟩

/-- **ONE PIXEL OF A PICTURE**: it has the colour of the tile that the mapping has there,
    and no other tile writes to it. -/
theorem render_pixel (hg : 0 < g) {i : Nat} {m : Int} (hi : i < g * g)
    (hm : mapping[i]? = some m) (hhas : (tile img.bounds g i).Has x y)
    (hsrc : (tile img.bounds g m).empty = false) :
    (rendering img g mapping).pix x y
      = rgbaModel (sample img (tile img.bounds g i) (tile img.bounds g m) x y) := by
  refine paint_agreed (tile_in_bounds hg hi hhas) ?_ ?_
  · rintro w hw rfl rfl
    obtain ⟨e, he, hw⟩ := List.mem_flatMap.mp hw
    obtain ⟨hin, hcolor⟩ := mem_tileWrites hw
    have hindex : e.2 = i := tile_unique hg hin hhas
    have hentry : mapping[e.2]? = some e.1 := List.mem_zipIdx_iff_getElem?.mp he
    rw [hindex, hm] at hentry
    rw [hcolor, hindex, Option.some.inj hentry]
  · obtain ⟨w, hw, hxy⟩ := @exists_tileWrite img _ _ _ _ hhas hsrc
    exact ⟨w, List.mem_flatMap.mpr ⟨(m, i), List.mem_zipIdx_iff_getElem?.mpr hm, hw⟩, hxy⟩

/-- Pictures with the same bounds are the same if their tiles are. -/
theorem rendering_ext (hg : 0 < g) {img' : Image} {mapping' : List Int}
    (hbounds : img'.bounds = img.bounds)
    (h : ∀ i < g * g, ∀ x y, (tile img.bounds g i).Has x y →
      (rendering img' g mapping').pix x y = (rendering img g mapping).pix x y) :
    rendering img' g mapping' = rendering img g mapping := by
  refine RGBAImage.ext ?_ ?_
  · rw [rendering_rect, rendering_rect, hbounds]
  · funext x y
    by_cases hin : img.bounds.Has x y
    · obtain ⟨i, hi, hhas⟩ := (tile_cover hg x y).mpr (img.wellFormed.canon_eq.symm ▸ hin)
      exact h i hi x y hhas
    · -- nothing is painted outside
      have hblank : (rendering img g mapping).pix x y = {} := paint_outside _ hin
      have hblank' : (rendering img' g mapping').pix x y = {} :=
        paint_outside _ (show ¬ img'.bounds.Has x y from hbounds ▸ hin)
      rw [hblank, hblank']

/-- The mapping that moves nothing. -/
def identityMapping (g : Nat) : List Int := List.ofFn fun i : Fin (g * g) => (i : Int)

/-- The list of a mapping of tiles. -/
theorem getElem?_ofFn_mapping {n : Nat} (p : Fin n → Int) {i : Nat} (hi : i < n) :
    (List.ofFn p)[i]? = some (p ⟨i, hi⟩) := by
  rw [List.getElem?_ofFn, dif_pos hi]

/-- A tile copied onto itself is copied point by point. -/
theorem sample_self {r : Rectangle} (hhas : r.Has x y) : sample img r r x y = img.colorAt x y := by
  obtain ⟨⟨hx, hx'⟩, hy, hy'⟩ := hhas
  have hdx : r.dx id ≠ 0 := by
    rw [Rectangle.dx, id]
    omega
  have hdy : r.dy id ≠ 0 := by
    rw [Rectangle.dy, id]
    omega
  rw [sample, Int.mul_tdiv_cancel _ hdx, Int.mul_tdiv_cancel _ hdy, add_sub_cancel, add_sub_cancel]

/-- **THE IDENTITY** reproduces the image. -/
theorem rendering_identity (hg : 0 < g) (hin : img.bounds.Has x y) :
    (rendering img g (identityMapping g)).pix x y = rgbaModel (img.colorAt x y) := by
  obtain ⟨i, hi, hhas⟩ := (tile_cover hg x y).mpr (img.wellFormed.canon_eq.symm ▸ hin)
  have hm : (identityMapping g)[i]? = some (i : Int) := getElem?_ofFn_mapping _ hi
  rw [render_pixel hg hi hm hhas hhas.not_empty, sample_self hhas]

/-! ## Tiles of one size -/

theorem edge_aligned (hg : 0 < g) (lo w k : Int) : edge lo (g * w) g k = lo + k * w := by
  rw [edge, mul_left_comm, Int.mul_tdiv_cancel_left _ (by omega)]

/-- Where the grid divides the image, a tile is its corner and the common size. -/
theorem tile_aligned (hg : 0 < g) {bounds : Rectangle} {w h : Int} (hw : 0 ≤ w) (hh : 0 ≤ h)
    (hdx : bounds.dx id = g * w) (hdy : bounds.dy id = g * h) (m : Int) :
    tile bounds g m = ⟨⟨bounds.min.x + m.tmod g * w, bounds.min.y + m.tdiv g * h⟩,
      ⟨bounds.min.x + m.tmod g * w + w, bounds.min.y + m.tdiv g * h + h⟩⟩ := by
  rw [tile_eq, hdx, hdy, edge_aligned hg, edge_aligned hg, edge_aligned hg, edge_aligned hg,
    add_mul, one_mul, add_mul, one_mul, ← add_assoc, ← add_assoc, rect,
    min_eq_left (le_add_of_nonneg_right hw), min_eq_left (le_add_of_nonneg_right hh),
    max_eq_right (le_add_of_nonneg_right hw), max_eq_right (le_add_of_nonneg_right hh)]

/-- The grid divides both sides of the image. -/
def Divides (g : Nat) (bounds : Rectangle) : Prop :=
  (g : Int) ∣ bounds.dx id ∧ (g : Int) ∣ bounds.dy id

/-- The point of tile `m` that stands as `(x, y)` stands in tile `i`. -/
def moved (bounds : Rectangle) (g : Nat) (i m x y : Int) : Point where
  x := (tile bounds g m).min.x + (x - (tile bounds g i).min.x)
  y := (tile bounds g m).min.y + (y - (tile bounds g i).min.y)

/-- Tiles of one size are copied point by point. -/
theorem moved_spec (hg : 0 < g) (hdiv : Divides g img.bounds) {i : Nat} (m : Int)
    (hhas : (tile img.bounds g i).Has x y) :
    (tile img.bounds g m).Has (moved img.bounds g i m x y).x (moved img.bounds g i m x y).y ∧
      sample img (tile img.bounds g i) (tile img.bounds g m) x y
        = img.colorAt (moved img.bounds g i m x y).x (moved img.bounds g i m x y).y := by
  obtain ⟨⟨w, hdx⟩, h, hdy⟩ := hdiv
  have hg' : (0 : Int) < g := Int.ofNat_lt.mpr hg
  have hw : 0 ≤ w := by
    refine nonneg_of_mul_nonneg_right (hdx ▸ ?_) hg'
    exact sub_nonneg.mpr img.wellFormed.1
  have hh : 0 ≤ h := by
    refine nonneg_of_mul_nonneg_right (hdy ▸ ?_) hg'
    exact sub_nonneg.mpr img.wellFormed.2
  rw [tile_aligned hg hw hh hdx hdy] at hhas
  rw [moved, sample, tile_aligned hg hw hh hdx hdy, tile_aligned hg hw hh hdx hdy]
  simp only [Rectangle.Has, Rectangle.dx, Rectangle.dy, id, add_sub_cancel_left] at hhas ⊢
  obtain ⟨⟨hx, hx'⟩, hy, hy'⟩ := hhas
  have hw0 : w ≠ 0 := by
    rintro rfl
    omega
  have hh0 : h ≠ 0 := by
    rintro rfl
    omega
  rw [Int.mul_tdiv_cancel _ hw0, Int.mul_tdiv_cancel _ hh0]
  exact ⟨⟨⟨by omega, by omega⟩, by omega, by omega⟩, rfl⟩

/-- Moved twice is moved once. -/
theorem moved_moved (bounds : Rectangle) (i j m x y : Int) :
    moved bounds g j m (moved bounds g i j x y).x (moved bounds g i j x y).y
      = moved bounds g i m x y := by
  simp only [moved, add_sub_cancel_left]

/-- One pixel of a picture, where tiles have one size. -/
theorem render_pixel_moved (hg : 0 < g) (hdiv : Divides g img.bounds) {i : Nat} {m : Int}
    (hi : i < g * g) (hm : mapping[i]? = some m) (hhas : (tile img.bounds g i).Has x y) :
    (rendering img g mapping).pix x y
      = rgbaModel (img.colorAt (moved img.bounds g i m x y).x (moved img.bounds g i m x y).y) := by
  obtain ⟨hmoved, hsample⟩ := moved_spec hg hdiv m hhas
  rw [render_pixel hg hi hm hhas hmoved.not_empty, hsample]

/-- **ONE PICTURE AFTER ANOTHER**: the picture of a picture is the picture of the composed
    mapping, where the grid divides the image. -/
theorem rendering_comp (hg : 0 < g) (hdiv : Divides g img.bounds) (p : Fin (g * g) → Int)
    (q : Fin (g * g) → Fin (g * g)) :
    rendering (rendering img g (List.ofFn p)).image g (List.ofFn fun i => (q i : Int))
      = rendering img g (List.ofFn (p ∘ q)) := by
  have hbounds : (rendering img g (List.ofFn p)).image.bounds = img.bounds :=
    rendering_rect img g _
  refine rendering_ext hg hbounds fun i hi x y hhas => ?_
  -- tile `i` of the second picture is tile `j` of the first, and that is tile `p j`
  obtain ⟨j, hj⟩ : ∃ j, j = q ⟨i, hi⟩ := ⟨_, rfl⟩
  have hq : (List.ofFn fun i => (q i : Int))[i]? = some (j : Int) :=
    hj ▸ getElem?_ofFn_mapping _ hi
  have hpq : (List.ofFn (p ∘ q))[i]? = some (p j) := hj ▸ getElem?_ofFn_mapping _ hi
  have hp : (List.ofFn p)[(j : Nat)]? = some (p j) := getElem?_ofFn_mapping _ j.isLt
  obtain ⟨hmid, -⟩ := moved_spec hg hdiv (j : Int) hhas
  have hfirst := render_pixel_moved hg hdiv j.isLt hp hmid
  have hsecond := render_pixel_moved hg (hbounds.symm ▸ hdiv) hi hq (hbounds.symm ▸ hhas)
  rw [hbounds] at hsecond
  have hinside : (rendering img g (List.ofFn p)).rect.Has (moved img.bounds g i j x y).x
      (moved img.bounds g i j x y).y :=
    (rendering_rect img g _).symm ▸ tile_in_bounds hg j.isLt hmid
  have hcolor : (rendering img g (List.ofFn p)).image.colorAt (moved img.bounds g i j x y).x
      (moved img.bounds g i j x y).y
      = ((rendering img g (List.ofFn p)).pix (moved img.bounds g i j x y).x
          (moved img.bounds g i j x y).y).color := if_pos hinside
  rw [hsecond, hcolor, rgbaModel_color, hfirst, moved_moved,
    render_pixel_moved hg hdiv hi hpq hhas]

end Pictures

/-- **TILES AND PICTURES**, over mathematical integers and for every grid.  The tiles of a
    rectangle are pairwise disjoint and cover it, with its corners in order; for the
    bounds of an image, as they are.  The identity mapping reproduces every pixel.  Where
    the grid divides the image, rendering by `p` and then by `q` is rendering by `p ∘ q`;
    so a permutation and then its inverse restore the image. -/
theorem tile_rendering {g : Nat} (hg : 0 < g) :
    (∀ (bounds : Rectangle) (x y : Int),
      (∀ i < g * g, ∀ j < g * g, (sliderTileRect id bounds g (i : Nat)).Has x y →
        (sliderTileRect id bounds g (j : Nat)).Has x y → i = j) ∧
      ((∃ i < g * g, (sliderTileRect id bounds g (i : Nat)).Has x y) ↔ bounds.canon.Has x y) ∧
      (bounds.WellFormed → bounds.canon = bounds)) ∧
    ∀ img : Image,
      (∃ r, renderSliderCandidate id img g (identityMapping g) = .ok r ∧ r.rect = img.bounds ∧
        ∀ x y, img.bounds.Has x y → r.pix x y = rgbaModel (img.colorAt x y)) ∧
      (Divides g img.bounds →
        (∀ (p : Fin (g * g) → Int) (q : Fin (g * g) → Fin (g * g)),
          ∃ r, renderSliderCandidate id img g (List.ofFn p) = .ok r ∧
            renderSliderCandidate id r.image g (List.ofFn fun i => (q i : Int))
              = renderSliderCandidate id img g (List.ofFn (p ∘ q))) ∧
        ∀ σ : Equiv.Perm (Fin (g * g)),
          ∃ r r', renderSliderCandidate id img g (List.ofFn fun i => (σ i : Int)) = .ok r ∧
            renderSliderCandidate id r.image g (List.ofFn fun i => (σ.symm i : Int)) = .ok r' ∧
            ∀ x y, img.bounds.Has x y → r'.pix x y = rgbaModel (img.colorAt x y)) := by
  refine ⟨fun bounds x y => ⟨?_, tile_cover hg x y, fun h => h.canon_eq⟩, fun img => ⟨?_, ?_⟩⟩
  · intro i _ j _ hi hj
    exact tile_unique hg hi hj
  · exact ⟨_, renderSliderCandidate_ok hg img List.length_ofFn, rendering_rect img g _,
      fun x y hin => rendering_identity hg hin⟩
  · intro hdiv
    constructor
    · intro p q
      refine ⟨_, renderSliderCandidate_ok hg img List.length_ofFn, ?_⟩
      rw [renderSliderCandidate_ok hg _ List.length_ofFn,
        renderSliderCandidate_ok hg img List.length_ofFn, rendering_comp hg hdiv]
    · intro σ
      refine ⟨_, _, renderSliderCandidate_ok hg img List.length_ofFn,
        renderSliderCandidate_ok hg _ List.length_ofFn, fun x y hin => ?_⟩
      have hid : ((fun i => (σ i : Int)) ∘ σ.symm) = fun i : Fin (g * g) => (i : Int) := by
        funext i
        simp only [Function.comp, Equiv.apply_symm_apply]
      rw [rendering_comp hg hdiv (fun i => (σ i : Int)) σ.symm, hid]
      exact rendering_identity hg hin

/-- Seven by two pixels, all different: a grid of three does not divide either side, and
    its first row of tiles is empty. -/
def stripes : Image where
  bounds := ⟨⟨0, 0⟩, ⟨7, 2⟩⟩
  wellFormed := by decide
  colorAt x y := ⟨UInt32.ofInt (256 * x), UInt32.ofInt (256 * y), 0, 0xFFFF⟩

/-- The last pixel of the uneven image is reproduced. -/
theorem stripes_reproduced :
    (sliderTileRect id stripes.bounds 3 0).empty = true ∧
      ∃ r, renderSliderCandidate id stripes 3 (identityMapping 3) = .ok r ∧
        r.pix 6 1 = ⟨6, 1, 0, 255⟩ := by
  obtain ⟨r, hr, -, hpix⟩ := ((tile_rendering (g := 3) (by decide)).2 stripes).1
  exact ⟨by decide, r, hr, hpix 6 1 (by decide)⟩

end VkTurnSlider
