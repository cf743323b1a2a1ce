/-! Text in parts: its blank ends, its pieces between separators, and lines of bytes. A line ends at
a line feed, and a carriage return in front of it belongs to the end; the last line needs no end. -/
namespace Keymap.Text

/-- Membership in a set of code points given as ascending, disjoint ranges. Both ends of a range
belong to it, and the search stops at the first range that lies above. -/
def memRanges : List (Nat × Nat) → Nat → Bool
  | [], _ => false
  | (first, last) :: above, n => first ≤ n && (n ≤ last || memRanges above n)

def blankRanges : List (Nat × Nat) := [
  (0x9, 0xD), (0x20, 0x20), (0x85, 0x85), (0xA0, 0xA0), (0x1680, 0x1680), (0x2000, 0x200A),
  (0x2028, 0x2029), (0x202F, 0x202F), (0x205F, 0x205F), (0x3000, 0x3000)]

def isBlank (c : Char) : Bool := memRanges blankRanges c.toNat

def dropBlankStart (cs : List Char) : List Char := cs.dropWhile isBlank

def dropBlankEnd (cs : List Char) : List Char := (cs.reverse.dropWhile isBlank).reverse

def trimChars (cs : List Char) : List Char := dropBlankEnd (dropBlankStart cs)

def trim (s : String) : String := String.ofList (trimChars s.toList)

/-- `skip` counts the characters of a found separator that are still to be passed over. -/
def piecesFrom (separator : List Char) : Nat → List Char → List (List Char)
  | _, [] => [[]]
  | skip + 1, _ :: rest => piecesFrom separator skip rest
  | 0, c :: rest =>
    if separator.isPrefixOf (c :: rest) then [] :: piecesFrom separator (separator.length - 1) rest
    else (piecesFrom separator 0 rest).modifyHead (c :: ·)

/-- The pieces of a text between the occurrences of a separator that is not empty; there is always
one piece more than occurrences. -/
def pieces (separator text : List Char) : List (List Char) := piecesFrom separator 0 text

def lineFeed : UInt8 := 10

def carriageReturn : UInt8 := 13

/-- A line in front of its line feed, without the carriage return. -/
def dropReturn (line : List UInt8) : List UInt8 :=
  if line.getLast? = some carriageReturn then line.dropLast else line

/-- The first complete line, and the bytes behind it. -/
def nextLine? (bytes : List UInt8) : Option (List UInt8 × List UInt8) :=
  match bytes.dropWhile (· ≠ lineFeed) with
  | [] => none
  | _ :: rest => some (dropReturn (bytes.takeWhile (· ≠ lineFeed)), rest)

/-- The text that bytes encode, where they are well-formed UTF-8. -/
def ofBytes? (bytes : List UInt8) : Option String := String.fromUTF8? ⟨bytes.toArray⟩

end Keymap.Text
