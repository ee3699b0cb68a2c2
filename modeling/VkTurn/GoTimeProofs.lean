import Mathlib.Tactic
import VkTurn.GoTextProofs

/-! # Go times and durations

    A `time.Duration` is a signed 64-bit count of nanoseconds.  A `time.Time` is an
    instant, here an integer; the difference of two instants is the duration between
    them, as far as a duration can say it (`sub` stops at the largest and the smallest
    one).  Sums and products of durations are exact where they fit (`toInt_add_of_fits`,
    `toInt_mul_of_fits`). -/

namespace GoTime

open GoText

/-- `time.Duration`, in nanoseconds. -/
abbrev Duration := Int64

/-- A second on a clock that counts nanoseconds since the epoch. -/
def clockSecond : Nat := 1000000000

/-- `Time.Unix`, on such a clock. -/
def unix (time : Nat) : Nat := time / clockSecond

theorem unix_mono {time time' : Nat} (h : time ≤ time') : unix time ≤ unix time' :=
  Nat.div_le_div_right h

/-- So many seconds later. -/
theorem unix_add (time n : Nat) : unix (time + n * clockSecond) = unix time + n :=
  Nat.add_mul_div_right time n (by decide)

/-- `time.Second`. -/
def second : Duration := Int64.ofNat clockSecond

/-- `time.Minute`. -/
def minute : Duration := 60 * second

/-- `Time.Sub`. -/
def sub (t u : Int) : Duration := Int64.ofIntClamp (t - u)

/-- The largest duration is not missed: a difference that does not fit is longer than
    every duration. -/
theorem le_sub_iff {d : Duration} (hpos : 0 < d.toInt) {t u : Int} :
    d ≤ sub t u ↔ d.toInt ≤ t - u := by
  have hmax : d.toInt < 2 ^ 63 := d.toInt_lt
  have hlow : Int64.minValue.toInt = -2 ^ 63 := by decide
  have hhigh : Int64.maxValue.toInt = 2 ^ 63 - 1 := by decide
  rw [Int64.le_iff_toInt_le, sub]
  by_cases h1 : Int64.minValue.toInt ≤ t - u
  · by_cases h2 : t - u ≤ Int64.maxValue.toInt
    · rw [Int64.toInt_ofIntClamp h1 h2]
    · have hclamp : Int64.ofIntClamp (t - u) = Int64.maxValue := by
        rw [Int64.ofIntClamp, dif_pos h1, dif_neg h2]
      rw [hhigh] at h2
      rw [hclamp, hhigh]
      omega
  · have hclamp : Int64.ofIntClamp (t - u) = Int64.minValue := by
      rw [Int64.ofIntClamp, dif_neg h1]
    rw [hlow] at h1
    rw [hclamp, hlow]
    omega

/-! ## Arithmetic -/

/-- The integer is a duration. -/
def Fits (n : Int) : Prop := -2 ^ 63 ≤ n ∧ n < 2 ^ 63

/-- An integer that is a duration does not wrap. -/
theorem bmod_of_fits {n : Int} (h : Fits n) : n.bmod (2 ^ 64) = n := by
  refine Int.bmod_eq_of_le ?_ ?_
  · norm_num
    exact h.1
  · norm_num
    exact h.2

/-- Sums, differences and products that fit are exact. -/
theorem toInt_add_of_fits {d e : Duration} (h : Fits (d.toInt + e.toInt)) :
    (d + e).toInt = d.toInt + e.toInt := by
  rw [Int64.toInt_add, bmod_of_fits h]

theorem toInt_sub_of_fits {d e : Duration} (h : Fits (d.toInt - e.toInt)) :
    (d - e).toInt = d.toInt - e.toInt := by
  rw [Int64.toInt_sub, bmod_of_fits h]

/-- The difference of two instants, where it is a duration. -/
theorem toInt_between {t u : Int} (h : Fits (t - u)) : (sub t u).toInt = t - u := by
  have hlow : Int64.minValue.toInt = -2 ^ 63 := by decide
  have hhigh : Int64.maxValue.toInt = 2 ^ 63 - 1 := by decide
  obtain ⟨h1, h2⟩ := h
  exact Int64.toInt_ofIntClamp (by rw [hlow]; exact h1) (by rw [hhigh]; omega)

theorem toInt_mul_of_fits {d e : Duration} (h : Fits (d.toInt * e.toInt)) :
    (d * e).toInt = d.toInt * e.toInt := by
  rw [Int64.toInt_mul, bmod_of_fits h]

/-- `time.Duration(n)`, of an `int`. -/
def ofInt (n : Int) : Duration := Int64.ofInt n

/-- So is a conversion. -/
theorem toInt_ofInt_of_fits {n : Int} (h : Fits n) : (ofInt n).toInt = n := by
  rw [ofInt, Int64.toInt_ofInt]
  exact bmod_of_fits h

/-! ## Text -/

/-- `fmtFrac`: the digits of `v / 10 ^ prec` behind the point, without the zeros at the end, in
    front of what is `written`; and the integer part. -/
def fmtFrac : Nat → Nat → Bytes → Bool → Bytes × Nat
  | 0, v, written, printing => (if printing then 0x2E :: written else written, v)
  | prec + 1, v, written, printing =>
      let digit := v % 10
      let printing := printing || digit != 0
      fmtFrac prec (v / 10) (if printing then UInt8.ofNat (0x30 + digit) :: written else written)
        printing

/-- The minutes and hours in front of the seconds, `u` seconds in all. -/
def clockText (u : Nat) (written : Bytes) : Bytes :=
  let text := decimal (u % 60) ++ written
  let u := u / 60
  if u > 0 then
    let text := decimal (u % 60) ++ ascii "m" ++ text
    let u := u / 60
    if u > 0 then decimal u ++ ascii "h" ++ text else text
  else text

/-- `Duration.String`. -/
def durationString (d : Duration) : Bytes :=
  let u := d.toInt.natAbs
  let text :=
    if u = 0 then ascii "0s"
    else if u < 1000 then decimal u ++ ascii "ns"
    else if u < 1000000 then
      let (text, u) := fmtFrac 3 u ([0xC2, 0xB5] ++ ascii "s") false
      decimal u ++ text
    else if u < 1000000000 then
      let (text, u) := fmtFrac 6 u (ascii "ms") false
      decimal u ++ text
    else
      let (text, u) := fmtFrac 9 u (ascii "s") false
      clockText u text
  if d < 0 then ascii "-" ++ text else text

end GoTime
