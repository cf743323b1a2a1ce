/-! Finite binary floating-point numbers of double width that are not negative, in exact integer
arithmetic. Every operation rounds to the nearest number, a tie to the even one, and gives nothing
where the result lies beyond the largest number. -/
namespace Keymap

/-- The number `significand * 2 ^ exponent`, where the significand has at most 53 bits. -/
structure Binary64 where
  significand : Nat
  exponent : Int
  deriving DecidableEq, Repr

namespace Binary64

def zero : Binary64 := ⟨0, 0⟩

/-- The whole number nearest to a quotient, of two equally near ones the even one. -/
def roundQuotient (num den : Nat) : Nat :=
  let whole := num / den
  let twice := 2 * (num % den)
  if twice < den || (twice = den && whole % 2 = 0) then whole else whole + 1

/-- A quotient divided by a power of two, again as a quotient. -/
def shiftQuotient (num den : Nat) (exponent : Int) : Nat × Nat :=
  if 0 ≤ exponent then (num, den * Nat.pow 2 exponent.toNat) else (num * Nat.pow 2 (-exponent).toNat, den)

def leastExponent : Int := -1074

def greatestExponent : Int := 971

/-- The exponent under which a positive quotient has a significand of 53 bits, or the least one. -/
def exponentOf (num den : Nat) : Int :=
  let estimate : Int := (num.log2 : Int) - den.log2 - 52
  let shifted := shiftQuotient num den estimate
  max (if shifted.1 < Nat.pow 2 52 * shifted.2 then estimate - 1 else estimate) leastExponent

def ofQuotient? (num den : Nat) : Option Binary64 :=
  if num = 0 then some zero
  else
    let exponent := exponentOf num den
    let shifted := shiftQuotient num den exponent
    let significand := roundQuotient shifted.1 shifted.2
    if significand = 0 then some zero
    else if significand = Nat.pow 2 53 then
      if exponent < greatestExponent then some ⟨Nat.pow 2 52, exponent + 1⟩ else none
    else if exponent ≤ greatestExponent then some ⟨significand, exponent⟩ else none

def mul? (a b : Binary64) : Option Binary64 :=
  let shifted := shiftQuotient (a.significand * b.significand) 1 (-(a.exponent + b.exponent))
  ofQuotient? shifted.1 shifted.2

def div? (a b : Binary64) : Option Binary64 :=
  let shifted := shiftQuotient a.significand b.significand (b.exponent - a.exponent)
  ofQuotient? shifted.1 shifted.2

/-- The greatest power of ten that is still a number of this kind. -/
def greatestTen : Nat := 308

def ofTen? (power : Nat) : Option Binary64 := ofQuotient? (Nat.pow 10 power) 1

/-- Division by a power of ten, in steps of at most the greatest one; each step rounds. -/
def divTen? (x : Binary64) (power : Nat) : Option Binary64 :=
  if power ≤ greatestTen then (ofTen? power).bind x.div?
  else if x.significand = 0 then some zero
  else ((ofTen? greatestTen).bind x.div?).bind fun y => y.divTen? (power - greatestTen)
termination_by power
decreasing_by simp only [greatestTen] at *; omega

def mulTen? (x : Binary64) (power : Nat) : Option Binary64 :=
  if power ≤ greatestTen then (ofTen? power).bind x.mul?
  else if x.significand = 0 then some zero
  else none

/-- The number that a decimal numeral stands for. Significand and power of ten are rounded one
after the other, so the last digit may differ from that of the nearest number. -/
def ofDecimal? (significand : Nat) (power : Int) : Option Binary64 :=
  (ofQuotient? significand 1).bind fun x =>
    if 0 ≤ power then x.mulTen? power.toNat else x.divTen? (-power).toNat

end Binary64

end Keymap
