/-
  LIBRARY. Texts and byte sequences.

  * `Bytes`: a byte sequence, as the text it encodes or as bytes that encode none.
  * `startsWith`, `stripPrefix`, `contains`: parts of a text, by its characters.
  * `append_cons_inj`: a separator tells the parts before and after it.
  * `trim`, `isBlank`: surrounding white space.
  * `asciiLowercase`, `slug`: letters in lower case, everything but letters and digits as `_`.
  * `words`: the words between the underscores of a slug. They tell the parts of a text apart
    (`words_append`).
-/
import Mathlib.Data.List.DropRight

namespace Lib

/-! ## Byte sequences -/

/-- A byte sequence: the UTF-8 encoding of a text, or bytes that are no such encoding. -/
inductive Bytes
  | text (s : String)
  | other (raw : ByteArray) (h : ¬ raw.IsValidUTF8)

instance : DecidableEq Bytes
  | .text s, .text s' => decidable_of_iff (s = s') (by simp)
  | .other raw _, .other raw' _ =>
      decidable_of_iff (raw.data = raw'.data) (by simp [ByteArray.ext_iff])
  | .text _, .other .. => isFalse (by simp)
  | .other .., .text _ => isFalse (by simp)

/-- The text that the bytes encode. -/
def Bytes.toStr : Bytes → Option String
  | .text s => some s
  | .other .. => none

/-- How many bytes there are. -/
def Bytes.size : Bytes → Nat
  | .text s => s.utf8ByteSize
  | .other raw _ => raw.size

/-! ## Parts of a text -/

/-- The text begins with `p`. -/
def startsWith (p s : String) : Bool := p.toList.isPrefixOf s.toList

/-- The text after a leading `p`. -/
def stripPrefix (p s : String) : Option String :=
  if startsWith p s then some (String.ofList (s.toList.drop p.toList.length)) else none

/-- `p` occurs in the text. -/
def contains (p s : String) : Bool := s.toList.tails.any p.toList.isPrefixOf

/-- What stands before the first separator, and what after it. -/
theorem append_cons_inj {α : Type} {a : α} {xs ys zs ws : List α} (hx : a ∉ xs) (hy : a ∉ ys)
    (h : xs ++ a :: zs = ys ++ a :: ws) : xs = ys ∧ zs = ws := by
  induction xs generalizing ys with
  | nil =>
      cases ys with
      | nil => exact ⟨rfl, (List.cons.inj h).2⟩
      | cons y ys => exact absurd (List.cons.inj h).1 (List.ne_of_not_mem_cons hy)
  | cons x xs ih =>
      cases ys with
      | nil => exact absurd (List.cons.inj h).1.symm (List.ne_of_not_mem_cons hx)
      | cons y ys =>
          obtain ⟨hxy, h⟩ := List.cons.inj h
          obtain ⟨hxs, hzs⟩ := ih (List.not_mem_of_not_mem_cons hx)
            (List.not_mem_of_not_mem_cons hy) h
          exact ⟨by rw [hxy, hxs], hzs⟩

/-! ## White space -/

/-- The characters with the Unicode property `White_Space`. -/
def isWhiteSpace (c : Char) : Bool :=
  let n := c.toNat
  (9 ≤ n && n ≤ 13) || n = 0x20 || n = 0x85 || n = 0xA0 || n = 0x1680 ||
    (0x2000 ≤ n && n ≤ 0x200A) || n = 0x2028 || n = 0x2029 || n = 0x202F || n = 0x205F ||
    n = 0x3000

/-- The text without leading and trailing white space. -/
def trim (s : String) : String :=
  String.ofList ((s.toList.dropWhile isWhiteSpace).rdropWhile isWhiteSpace)

/-- Nothing but white space. -/
def isBlank (s : String) : Bool := s.toList.all isWhiteSpace

/-! ## Letters -/

def asciiLowercase (s : String) : String := s.map Char.toLower

theorem toList_asciiLowercase (s : String) :
    (asciiLowercase s).toList = s.toList.map Char.toLower := String.toList_map

/-- Letters in lower case, digits, and `_` for everything else. -/
def slug (s : String) : String :=
  String.ofList (s.toList.map fun c => if c.isAlphanum then c.toLower else '_')

/-! ## Words -/

/-- A character of a slug. -/
def slugChar (c : Char) : Char := if c.isAlphanum then c.toLower else '_'

theorem toList_slug (s : String) : (slug s).toList = s.toList.map slugChar := String.toList_ofList

/-- What stands between the underscores of a slug. -/
def words (cs : List Char) : List (List Char) := (cs.map slugChar).splitOn '_'

theorem words_eq_iff {s t : String} : words s.toList = words t.toList ↔ slug s = slug t := by
  rw [words, words, ← toList_slug, ← toList_slug]
  constructor
  · intro h
    have hjoin := congrArg (List.intercalate ['_']) h
    rw [List.intercalate_splitOn, List.intercalate_splitOn] at hjoin
    exact String.toList_inj.mp hjoin
  · exact fun h => h ▸ rfl

/-- A sign ends a word. -/
theorem words_append {c : Char} (hc : c.isAlphanum = false) (xs ys : List Char) :
    words (xs ++ c :: ys) = words xs ++ words ys := by
  have hsign : slugChar c = '_' := by simp [slugChar, hc]
  rw [words, List.map_append, List.map_cons, hsign, List.splitOn_append_cons_self]
  rfl

/-- Characters that a slug keeps. -/
def Plain (cs : List Char) : Prop := ∀ c ∈ cs, slugChar c = c ∧ c ≠ '_'

/-- A word. -/
theorem Plain.words_eq {cs : List Char} (h : Plain cs) : words cs = [cs] := by
  have hmap : cs.map slugChar = cs := by
    conv_rhs => rw [← List.map_id cs]
    exact List.map_congr_left fun c hc => (h c hc).1
  rw [words, hmap, List.splitOn_eq_singleton fun hmem => (h _ hmem).2 rfl]

/-- The digits of a number are a word. -/
theorem plain_toDigits (n : Nat) : Plain (Nat.toDigits 10 n) := by
  intro c hc
  have hdigit : c.isDigit = true := Nat.isDigit_of_mem_toDigits (by decide) (by decide) hc
  have hle : c.val ≤ '9'.val := by
    simp only [Char.isDigit, Bool.and_eq_true, decide_eq_true_eq] at hdigit
    exact hdigit.2
  -- the digits are before the letters, so they have no case
  have hupper : ¬ (c.val ≥ 'A'.val ∧ c.val ≤ 'Z'.val) := fun hcase =>
    absurd (Nat.le_trans hcase.1 hle) (by decide)
  have hlower : c.toLower = c := dif_neg hupper
  constructor
  · rw [slugChar, Char.isAlphanum, hdigit, Bool.or_true, if_pos rfl, hlower]
  · rintro rfl
    exact absurd hdigit (by decide)

end Lib
