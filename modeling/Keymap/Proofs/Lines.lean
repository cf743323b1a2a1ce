import Keymap.Text.Basic
import Mathlib.Data.List.TakeWhile

/-! The lines of an input. Cutting bytes into lines and reading the text of each agrees with cutting
the text, because no other character has a line feed or a carriage return among its bytes. -/
namespace Keymap.Text

variable {α : Type} {feed ret : α}

def joinFirst (piece : List α) : List (List α) → List (List α)
  | [] => [piece]
  | line :: lines => (piece ++ line) :: lines

theorem joinFirst_append (piece next : List α) (lines : List (List α)) :
    joinFirst (piece ++ next) lines = joinFirst piece (joinFirst next lines) := by
  cases lines <;> simp [joinFirst]

def cutLines [DecidableEq α] (feed ret : α) : List α → List (List α)
  | [] => []
  | c :: cs =>
    if c = feed then [] :: cutLines feed ret cs
    else if c = ret ∧ cs.head? = some feed then cutLines feed ret cs
    else joinFirst [c] (cutLines feed ret cs)

def byteLines (bytes : List UInt8) : List (List UInt8) := cutLines lineFeed carriageReturn bytes

def linesOf (s : String) : List String := (cutLines '\n' '\r' s.toList).map String.ofList

theorem head?_of_absent {line : List α} (absent : feed ∉ line) :
    line.head? ≠ some feed := by
  intro head
  exact absent (List.mem_of_mem_head? head)

theorem cutLines_open [DecidableEq α] {line : List α} (absent : feed ∉ line) (some : line ≠ []) :
    cutLines feed ret line = [line] := by
  induction line with
  | nil => contradiction
  | cons c line ih =>
    obtain ⟨other, absent⟩ : feed ≠ c ∧ feed ∉ line := by simpa using absent
    simp only [cutLines, Ne.symm other, head?_of_absent absent, and_false, if_false]
    cases line with
    | nil => rfl
    | cons => simp [ih absent, joinFirst]

/-- A piece without line ends belongs to the line that it begins. -/
theorem cutLines_append [DecidableEq α] {piece : List α} (plain : ∀ c ∈ piece, c ≠ feed ∧ c ≠ ret)
    (some : piece ≠ []) (rest : List α) :
    cutLines feed ret (piece ++ rest) = joinFirst piece (cutLines feed ret rest) := by
  induction piece with
  | nil => contradiction
  | cons c piece ih =>
    obtain ⟨feeds, returns⟩ := plain c List.mem_cons_self
    simp only [List.cons_append, cutLines, feeds, returns, false_and, if_false]
    cases piece with
    | nil => rfl
    | cons d piece =>
      rw [ih (fun c member => plain c (List.mem_cons_of_mem _ member)) (by simp),
        ← joinFirst_append]
      rfl

theorem return_ne_feed : carriageReturn ≠ lineFeed := by decide

theorem return_dropped {rest : List UInt8} (head : rest.head? = some lineFeed) :
    byteLines (carriageReturn :: rest) = byteLines rest := by
  simp [byteLines, cutLines, head, return_ne_feed]

theorem return_kept {rest : List UInt8} (head : rest.head? ≠ some lineFeed) :
    byteLines (carriageReturn :: rest) = joinFirst [carriageReturn] (byteLines rest) := by
  simp [byteLines, cutLines, head, return_ne_feed]

theorem dropReturn_cons {c : UInt8} {line : List UInt8} (more : c = carriageReturn → line ≠ []) :
    dropReturn (c :: line) = c :: dropReturn line := by
  cases line with
  | nil =>
    have other : c ≠ carriageReturn := fun same => more same rfl
    simp [dropReturn, other]
  | cons d line =>
    unfold dropReturn
    rw [List.getLast?_cons_cons]
    split <;> simp

theorem byteLines_feed {line : List UInt8} (absent : lineFeed ∉ line) (rest : List UInt8) :
    byteLines (line ++ lineFeed :: rest) = dropReturn line :: byteLines rest := by
  induction line with
  | nil => simp [byteLines, cutLines, dropReturn]
  | cons c line ih =>
    obtain ⟨other, absent⟩ : lineFeed ≠ c ∧ lineFeed ∉ line := by simpa using absent
    have later := ih absent
    unfold byteLines at later ⊢
    simp only [List.cons_append, cutLines, Ne.symm other, if_false]
    split
    -- The return is dropped in front of the line feed only, where nothing is left of the line.
    next dropped =>
      obtain ⟨rfl, head⟩ := dropped
      cases line with
      | nil => simpa [dropReturn] using later
      | cons d line =>
        obtain rfl : d = lineFeed := by simpa using head
        simp at absent
    next kept =>
      have more : c = carriageReturn → line ≠ [] := by
        rintro rfl rfl
        exact kept ⟨rfl, rfl⟩
      rw [later, dropReturn_cons more]
      rfl

/-- Taking the first line off leaves the other ones. -/
theorem byteLines_of_nextLine? {bytes line rest : List UInt8}
    (found : nextLine? bytes = some (line, rest)) : byteLines bytes = line :: byteLines rest := by
  unfold nextLine? at found
  split at found
  · contradiction
  next feed tail dropped =>
    obtain ⟨rfl, rfl⟩ := Prod.mk.inj (Option.some.inj found)
    have isFeed : feed = lineFeed := by
      have head := List.head?_dropWhile_not (· ≠ lineFeed) bytes
      rw [dropped] at head
      simpa using head
    have absent : lineFeed ∉ bytes.takeWhile (· ≠ lineFeed) := by
      intro member
      simpa using List.mem_takeWhile_imp member
    subst isFeed
    have whole : bytes = bytes.takeWhile (· ≠ lineFeed) ++ lineFeed :: tail := by
      rw [← dropped, List.takeWhile_append_dropWhile]
    calc byteLines bytes = byteLines (bytes.takeWhile (· ≠ lineFeed) ++ lineFeed :: tail) :=
          congrArg byteLines whole
      _ = _ := byteLines_feed absent tail

theorem nextLine?_shorter {bytes line rest : List UInt8}
    (found : nextLine? bytes = some (line, rest)) : rest.length < bytes.length := by
  unfold nextLine? at found
  split at found
  · contradiction
  next feed tail dropped =>
    obtain ⟨_, rfl⟩ := Prod.mk.inj (Option.some.inj found)
    have suffix := List.dropWhile_suffix (· ≠ lineFeed) (l := bytes)
    rw [dropped] at suffix
    exact suffix.length_le

theorem byteLines_of_unfinished {bytes : List UInt8} (missing : nextLine? bytes = none)
    (some : bytes ≠ []) : byteLines bytes = [bytes] := by
  apply cutLines_open _ some
  intro member
  unfold nextLine? at missing
  split at missing
  next dropped =>
    have all := List.dropWhile_eq_nil_iff.mp dropped lineFeed member
    simp at all
  · contradiction

def bytes (s : String) : List UInt8 := s.toByteArray.data.toList

def encode (cs : List Char) : List UInt8 := cs.flatMap String.utf8EncodeChar

theorem bytes_eq (s : String) : bytes s = encode s.toList := by
  rw [bytes, ← String.utf8Encode_toList, List.utf8Encode, encode]
  simp

theorem bytes_append (s t : String) : bytes (s ++ t) = bytes s ++ bytes t := by
  simp [bytes_eq, encode]

theorem ofBytes?_encode (cs : List Char) : ofBytes? (encode cs) = some (String.ofList cs) := by
  have same : (⟨(encode cs).toArray⟩ : ByteArray) = (String.ofList cs).toByteArray := by
    rw [String.toByteArray_ofList, List.utf8Encode, encode]
    exact ByteArray.ext (List.data_toByteArray).symm
  rw [ofBytes?, same, String.fromUTF8?, dif_pos (String.ofList cs).isValidUTF8]
  rfl

theorem ascii_byte {c : Char} (low : c.toNat < 128) :
    String.utf8EncodeChar c = [UInt8.ofNat c.toNat] := by
  have small : c.toNat ≤ 127 := Nat.le_of_lt_succ low
  simp [String.utf8EncodeChar, small]

/-- No byte of a character beyond ASCII is one of ASCII. -/
theorem high_bytes {c : Char} (high : 128 ≤ c.toNat) :
    ∀ b ∈ String.utf8EncodeChar c, 128 ≤ b.toNat := by
  have large : ¬ c.val.toNat ≤ 127 := Nat.not_le.mpr high
  have part (n : Nat) (above : 128 ≤ n) (fits : n < 256) : 128 ≤ (UInt8.ofNat n).toNat := by
    rwa [UInt8.toNat_ofNat', Nat.mod_eq_of_lt fits]
  unfold String.utf8EncodeChar
  simp only [large, if_false]
  split
  · simp only [List.forall_mem_cons, List.not_mem_nil]
    exact ⟨part _ (by omega) (by omega), part _ (by omega) (by omega), nofun⟩
  split
  · simp only [List.forall_mem_cons, List.not_mem_nil]
    exact ⟨part _ (by omega) (by omega), part _ (by omega) (by omega),
      part _ (by omega) (by omega), nofun⟩
  · simp only [List.forall_mem_cons, List.not_mem_nil]
    exact ⟨part _ (by omega) (by omega), part _ (by omega) (by omega),
      part _ (by omega) (by omega), part _ (by omega) (by omega), nofun⟩

/-- A character shares a byte with an ASCII character only if it is that character. -/
theorem eq_of_byte {c d : Char} (low : d.toNat < 128)
    (member : UInt8.ofNat d.toNat ∈ String.utf8EncodeChar c) : c = d := by
  have number : (UInt8.ofNat d.toNat).toNat = d.toNat := by
    rw [UInt8.toNat_ofNat', Nat.mod_eq_of_lt (by omega)]
  by_cases ascii : c.toNat < 128
  · rw [ascii_byte ascii] at member
    have same := congrArg UInt8.toNat (List.mem_singleton.mp member)
    rw [number, UInt8.toNat_ofNat', Nat.mod_eq_of_lt (by omega)] at same
    exact Char.toNat_inj.mp same.symm
  · have high := high_bytes (Nat.not_lt.mp ascii) _ member
    omega

theorem encode_cons (c : Char) (cs : List Char) :
    encode (c :: cs) = String.utf8EncodeChar c ++ encode cs :=
  List.flatMap_cons

theorem utf8EncodeChar_ne_nil (c : Char) : String.utf8EncodeChar c ≠ [] := by
  unfold String.utf8EncodeChar
  dsimp only
  split
  · simp
  split
  · simp
  split <;> simp

theorem encode_head? (cs : List Char) :
    (encode cs).head? = some lineFeed ↔ cs.head? = some '\n' := by
  cases cs with
  | nil => simp [encode]
  | cons c cs =>
    constructor
    · intro head
      obtain ⟨b, more, first⟩ := List.exists_cons_of_ne_nil (utf8EncodeChar_ne_nil c)
      rw [encode_cons, first] at head
      obtain rfl : b = lineFeed := by simpa using head
      have member : lineFeed ∈ String.utf8EncodeChar c := first ▸ List.mem_cons_self
      rw [eq_of_byte (d := '\n') (by decide) member]
      rfl
    · intro head
      obtain rfl : c = '\n' := by simpa using head
      rfl

theorem encode_joinFirst (piece : List Char) (lines : List (List Char)) :
    (joinFirst piece lines).map encode = joinFirst (encode piece) (lines.map encode) := by
  cases lines <;> simp [joinFirst, encode]

/-- Bytes fall into lines as the characters that they encode do. -/
theorem byteLines_encode (cs : List Char) :
    byteLines (encode cs) = (cutLines '\n' '\r' cs).map encode := by
  induction cs with
  | nil => rfl
  | cons c cs ih =>
    unfold byteLines at ih ⊢
    rw [encode_cons, cutLines]
    split
    next isFeed =>
      subst isFeed
      exact congrArg ([] :: ·) ih
    next other =>
      split
      next dropped =>
        obtain ⟨rfl, head⟩ := dropped
        rw [← ih]
        exact return_dropped ((encode_head? cs).mpr head)
      next kept =>
        rw [encode_joinFirst, ← ih]
        by_cases isReturn : c = '\r'
        · subst isReturn
          exact return_kept fun head => kept ⟨rfl, (encode_head? cs).mp head⟩
        · have plain : ∀ b ∈ String.utf8EncodeChar c, b ≠ lineFeed ∧ b ≠ carriageReturn := by
            intro b member
            constructor
            · rintro rfl
              exact other (eq_of_byte (d := '\n') (by decide) member)
            · rintro rfl
              exact isReturn (eq_of_byte (d := '\r') (by decide) member)
          rw [cutLines_append plain (utf8EncodeChar_ne_nil c)]
          simp [encode]

/-- A text and its bytes have the same lines. -/
theorem byteLines_bytes (s : String) : (byteLines (bytes s)).map ofBytes? = (linesOf s).map some := by
  rw [bytes_eq, byteLines_encode, linesOf, List.map_map, List.map_map]
  exact List.map_congr_left fun line _ => ofBytes?_encode line

example : linesOf "a\r\n\nb\r" = ["a", "", "b\r"] := by decide +kernel

end Keymap.Text
