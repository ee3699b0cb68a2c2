import Mathlib.Data.Int.Basic
import Mathlib.Tactic

/-! # Go images

    Rectangles, colours and RGBA images as Go's `image` package has them.  An image is
    its bounds and a COLOUR for each point; the RGBA image has a pixel for each point
    of its rectangle, set one at a time.

    Code that paints an image is a sequence of such writes.  `paint_agreed` is the rule
    for it: where all writes to a point agree, and there is one, the point has that
    colour in the end; `paint_missed` and `paint_outside` are for the points that no
    write reaches.

    Coordinates are computed by a function `int`: the identity over mathematical
    integers, or what the machine's `int` keeps of an integer. -/

namespace GoImage

/-! ## Rectangles -/

/-- `image.Point`. -/
structure Point where
  x : Int
  y : Int
  deriving DecidableEq, Repr

/-- `image.Rectangle`. -/
structure Rectangle where
  min : Point
  max : Point
  deriving DecidableEq, Repr

/-- `image.Rect`: the rectangle with these corners. -/
def rect (x0 y0 x1 y1 : Int) : Rectangle where
  min := ⟨min x0 x1, min y0 y1⟩
  max := ⟨max x0 x1, max y0 y1⟩

/-- `Rectangle.Dx`. -/
def Rectangle.dx (int : Int → Int) (r : Rectangle) : Int := int (r.max.x - r.min.x)

/-- `Rectangle.Dy`. -/
def Rectangle.dy (int : Int → Int) (r : Rectangle) : Int := int (r.max.y - r.min.y)

/-- `Rectangle.Empty`. -/
def Rectangle.empty (r : Rectangle) : Bool :=
  decide (r.min.x ≥ r.max.x) || decide (r.min.y ≥ r.max.y)

/-- `Point.In`. -/
def Rectangle.Has (r : Rectangle) (x y : Int) : Prop :=
  (r.min.x ≤ x ∧ x < r.max.x) ∧ r.min.y ≤ y ∧ y < r.max.y

instance (r : Rectangle) (x y : Int) : Decidable (r.Has x y) :=
  inferInstanceAs (Decidable (_ ∧ _))

/-- No side is negative. -/
def Rectangle.WellFormed (r : Rectangle) : Prop := r.min.x ≤ r.max.x ∧ r.min.y ≤ r.max.y

instance (r : Rectangle) : Decidable r.WellFormed := inferInstanceAs (Decidable (_ ∧ _))

/-- `Rectangle.Canon`. -/
def Rectangle.canon (r : Rectangle) : Rectangle := rect r.min.x r.min.y r.max.x r.max.y

theorem Rectangle.WellFormed.canon_eq {r : Rectangle} (h : r.WellFormed) : r.canon = r := by
  simp only [Rectangle.canon, rect, min_eq_left h.1, min_eq_left h.2, max_eq_right h.1,
    max_eq_right h.2]

/-- A rectangle with a point in it is not empty. -/
theorem Rectangle.Has.not_empty {r : Rectangle} {x y : Int} (h : r.Has x y) :
    r.empty = false := by
  obtain ⟨⟨hx, hx'⟩, hy, hy'⟩ := h
  simp only [Rectangle.empty, Bool.or_eq_false_iff, decide_eq_false_iff_not]
  omega

/-! ## Colours -/

/-- A `color.Color`, by what its method `RGBA` returns. -/
structure Color where
  r : UInt32
  g : UInt32
  b : UInt32
  a : UInt32
  deriving DecidableEq, Repr

/-- `color.RGBA`. -/
structure RGBA where
  r : UInt8 := 0
  g : UInt8 := 0
  b : UInt8 := 0
  a : UInt8 := 0
  deriving DecidableEq, Repr

/-- `v |= v << 8`. -/
def widen (v : UInt8) : UInt32 := v.toUInt32 ||| v.toUInt32 <<< 8

/-- `uint8(v >> 8)`. -/
def narrow (v : UInt32) : UInt8 := (v >>> 8).toUInt8

/-- `RGBA.RGBA`. -/
def RGBA.color (c : RGBA) : Color := ⟨widen c.r, widen c.g, widen c.b, widen c.a⟩

/-- `color.RGBAModel.Convert`. -/
def rgbaModel (c : Color) : RGBA := ⟨narrow c.r, narrow c.g, narrow c.b, narrow c.a⟩

theorem narrow_widen (v : UInt8) : narrow (widen v) = v := by
  have hall : ∀ k < 256, narrow (widen (UInt8.ofNat k)) = UInt8.ofNat k := by decide +kernel
  have hv := hall v.toNat v.toNat_lt
  rwa [UInt8.ofNat_toNat] at hv

/-- A colour that is converted already stays. -/
theorem rgbaModel_color (c : RGBA) : rgbaModel c.color = c := by
  simp only [rgbaModel, RGBA.color, narrow_widen]

/-! ## Images -/

/-- An `image.Image`. -/
structure Image where
  bounds : Rectangle
  wellFormed : bounds.WellFormed
  colorAt : Int → Int → Color

/-- `image.RGBA`, with a pixel for each point in the place of the buffer. -/
@[ext]
structure RGBAImage where
  rect : Rectangle
  wellFormed : rect.WellFormed
  pix : Int → Int → RGBA

/-- `image.NewRGBA`, which panics for a rectangle that is not well-formed. -/
def newRGBA (r : Rectangle) (h : r.WellFormed) : RGBAImage := ⟨r, h, fun _ _ => {}⟩

/-- `RGBA.At`. -/
def RGBAImage.colorAt (p : RGBAImage) (x y : Int) : Color :=
  if p.rect.Has x y then (p.pix x y).color else RGBA.color {}

/-- `RGBA.Set`. -/
def RGBAImage.set (p : RGBAImage) (x y : Int) (c : Color) : RGBAImage :=
  if p.rect.Has x y then
    { p with pix := fun x' y' => if x' = x ∧ y' = y then rgbaModel c else p.pix x' y' }
  else p

/-- An RGBA image as an image. -/
def RGBAImage.image (p : RGBAImage) : Image := ⟨p.rect, p.wellFormed, p.colorAt⟩

/-! ## Painting -/

/-- One call of `Set`. -/
structure Write where
  x : Int
  y : Int
  color : Color

def RGBAImage.write (p : RGBAImage) (w : Write) : RGBAImage := p.set w.x w.y w.color

/-- A sequence of calls of `Set`. -/
def RGBAImage.paint (p : RGBAImage) (ws : List Write) : RGBAImage := ws.foldl RGBAImage.write p

section Painting

variable {x y : Int}

theorem set_rect (p : RGBAImage) (x y : Int) (c : Color) : (p.set x y c).rect = p.rect := by
  rw [RGBAImage.set]
  split <;> rfl

theorem set_pix (p : RGBAImage) (x y : Int) (c : Color) (x' y' : Int) :
    (p.set x y c).pix x' y'
      = if p.rect.Has x' y' ∧ x = x' ∧ y = y' then rgbaModel c else p.pix x' y' := by
  rw [RGBAImage.set]
  by_cases hsame : x = x' ∧ y = y'
  · obtain ⟨rfl, rfl⟩ := hsame
    by_cases hin : p.rect.Has x y
    · rw [if_pos hin, if_pos ⟨hin, rfl, rfl⟩]
      exact if_pos ⟨rfl, rfl⟩
    · rw [if_neg hin, if_neg fun h => hin h.1]
  · have hmiss : ¬ (p.rect.Has x' y' ∧ x = x' ∧ y = y') := fun h => hsame h.2
    rw [if_neg hmiss]
    split
    · exact if_neg fun h : x' = x ∧ y' = y => hsame ⟨h.1.symm, h.2.symm⟩
    · rfl

theorem paint_rect (p : RGBAImage) (ws : List Write) : (p.paint ws).rect = p.rect := by
  induction ws generalizing p with
  | nil => rfl
  | cons w ws ih => exact (ih (p.write w)).trans (set_rect p w.x w.y w.color)

/-- A point that no write reaches stays. -/
theorem paint_missed {p : RGBAImage} {ws : List Write}
    (h : ∀ w ∈ ws, p.rect.Has x y → w.x = x → w.y ≠ y) : (p.paint ws).pix x y = p.pix x y := by
  induction ws generalizing p with
  | nil => rfl
  | cons w ws ih =>
      have hw : (p.write w).pix x y = p.pix x y := by
        rw [RGBAImage.write, set_pix, if_neg]
        rintro ⟨hin, hx, hy⟩
        exact h w List.mem_cons_self hin hx hy
      refine (ih fun v hv => ?_).trans hw
      rw [RGBAImage.write, set_rect]
      exact h v (List.mem_cons_of_mem _ hv)

/-- A point outside the rectangle stays. -/
theorem paint_outside {p : RGBAImage} (ws : List Write) (h : ¬ p.rect.Has x y) :
    (p.paint ws).pix x y = p.pix x y :=
  paint_missed fun _ _ hin => absurd hin h

/-- **AGREED WRITES**: a point of the rectangle that is written, always in one colour, has
    that colour in the end, whatever the order of the writes. -/
theorem paint_agreed {p : RGBAImage} {ws : List Write} {c : Color} (hin : p.rect.Has x y)
    (hall : ∀ w ∈ ws, w.x = x → w.y = y → w.color = c)
    (hsome : ∃ w ∈ ws, w.x = x ∧ w.y = y) : (p.paint ws).pix x y = rgbaModel c := by
  -- once the point has the colour, no later write changes it
  have hkeep : ∀ (ws : List Write) (p : RGBAImage), p.rect.Has x y →
      p.pix x y = rgbaModel c → (∀ w ∈ ws, w.x = x → w.y = y → w.color = c) →
      (p.paint ws).pix x y = rgbaModel c := by
    intro ws
    induction ws with
    | nil => intro p _ hp _; exact hp
    | cons w ws ih =>
        intro p hin hp hall
        refine ih (p.write w) ?_ ?_ fun v hv => hall v (List.mem_cons_of_mem _ hv)
        · rw [RGBAImage.write, set_rect]
          exact hin
        · rw [RGBAImage.write, set_pix]
          split
          · rename_i hhit
            rw [hall w List.mem_cons_self hhit.2.1 hhit.2.2]
          · exact hp
  induction ws generalizing p with
  | nil =>
      obtain ⟨w, hw, -⟩ := hsome
      cases hw
  | cons w ws ih =>
      have hin' : (p.write w).rect.Has x y := by
        rw [RGBAImage.write, set_rect]
        exact hin
      have hrest : ∀ v ∈ ws, v.x = x → v.y = y → v.color = c :=
        fun v hv => hall v (List.mem_cons_of_mem _ hv)
      by_cases hhit : w.x = x ∧ w.y = y
      · refine hkeep ws (p.write w) hin' ?_ hrest
        rw [RGBAImage.write, set_pix, if_pos ⟨hin, hhit⟩,
          hall w List.mem_cons_self hhit.1 hhit.2]
      · obtain ⟨v, hv, hxy⟩ := hsome
        rcases List.mem_cons.mp hv with rfl | hv
        · exact absurd hxy hhit
        · exact ih hin' hrest ⟨v, hv, hxy⟩

end Painting

end GoImage
