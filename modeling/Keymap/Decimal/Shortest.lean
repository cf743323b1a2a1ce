import Keymap.Decimal.Binary64

/-! The decimal text of a floating-point number: the fewest digits that read back as the number,
and of those the nearest to it. -/
namespace Keymap

structure Digits where
  digits : Nat
  power : Int
  deriving DecidableEq, Repr

namespace Binary64

/-- A number with the range of those that round to it, all in quarters of its last place. -/
def quarters (x : Binary64) : Nat × Nat × Nat :=
  let m := x.significand
  let below := if m = Nat.pow 2 52 && leastExponent < x.exponent then 4 * m - 1 else 4 * m - 2
  (below, 4 * m, 4 * m + 2)

/-- The ratio of one unit in place `power` to a quarter of the last place of `x`. -/
def unitRatio (x : Binary64) (power : Int) : Nat × Nat :=
  let ten := if 0 ≤ power then (Nat.pow 10 power.toNat, 1) else (1, Nat.pow 10 (-power).toNat)
  shiftQuotient ten.1 ten.2 (x.exponent - 2)

/-- The multiples of a power of ten beside a number that read back as it, the nearer one first. -/
def neighbours (x : Binary64) (power : Int) : List Nat :=
  let (low, value, high) := x.quarters
  let (num, den) := x.unitRatio power
  let reads (d : Nat) : Bool :=
    if x.significand % 2 = 0 then low * den ≤ d * num && d * num ≤ high * den
    else low * den < d * num && d * num < high * den
  let below := value * den / num
  let toBelow := value * den - below * num
  let toAbove := (below + 1) * num - value * den
  let nearBelow := toBelow < toAbove || (toBelow = toAbove && below % 2 = 0)
  (if nearBelow then [below, below + 1] else [below + 1, below]).filter reads

def leadingPower (x : Binary64) : Int :=
  let (num, den) := shiftQuotient x.significand 1 (-x.exponent)
  if den ≤ num then ((Nat.toDigits 10 (num / den)).length : Int) - 1
  else -((Nat.toDigits 10 ((den + num - 1) / num - 1)).length : Int)

/-- Seventeen digits are always enough. -/
def shortest (x : Binary64) : Digits :=
  let leading := x.leadingPower
  let found := (List.range 17).findSome? fun (more : Nat) =>
    let power := leading - (more : Nat)
    (x.neighbours power).head?.map fun d => Digits.mk d power
  found.getD ⟨0, 0⟩

def dropZeros (digits : List Char) : List Char := (digits.reverse.dropWhile (· = '0')).reverse

/-- An exponent always has a sign. -/
def exponentText (power : Int) : List Char :=
  (if power < 0 then ['e', '-'] else ['e', '+']) ++ Nat.toDigits 10 power.natAbs

/-- Numbers from a hundred-thousandth up to sixteen places before the point are written out, with
at least one digit on both sides of the point; all others with an exponent. -/
def text (x : Binary64) : List Char :=
  if x.significand = 0 then ['0', '.', '0']
  else
    let shortest := x.shortest
    let all := Nat.toDigits 10 shortest.digits
    let leading := shortest.power + all.length - 1
    let digits := dropZeros all
    if 0 ≤ leading && leading < 16 then
      let whole := leading.toNat + 1
      let places := digits.drop whole
      digits.take whole ++ List.replicate (whole - digits.length) '0' ++
        '.' :: (if places = [] then ['0'] else places)
    else if -5 ≤ leading && leading < 0 then
      ['0', '.'] ++ List.replicate ((-leading).toNat - 1) '0' ++ digits
    else
      match digits with
      | [d] => d :: exponentText leading
      | d :: places => d :: '.' :: places ++ exponentText leading
      | [] => []

end Binary64

end Keymap
