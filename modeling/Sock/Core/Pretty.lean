/-
  The pretty printer of serde_json, and a collision-free `Canon`.

  * `Value.toStringPretty`: `serde_json::to_string_pretty`, two spaces per level.
  * `chars_append_inj`: the text of a value says where it ends and which value it is; the
    induction is on the value, over items and entries.
  * `Canon.ideal`: this printer with a hash that keeps its text. `ideal_collisionFree`: equal
    hashes come from equal key-sorted values, as is assumed of SHA-256. `ideal_nonBlank`: no hash
    is blank.

  Not modelled: the decimal text of a float; no document of the repository has one, and it is
  printed by its bits.
-/
import Sock.Core.Canonical

namespace Sock.Core

open Lib

/-! ## Texts in quotes -/

/-- A character of a JSON string. -/
def escape (c : Char) : List Char :=
  if c = '"' then ['\\', '"']
  else if c = '\\' then ['\\', '\\']
  else if c.toNat = 8 then ['\\', 'b']
  else if c = '\t' then ['\\', 't']
  else if c = '\n' then ['\\', 'n']
  else if c.toNat = 12 then ['\\', 'f']
  else if c = '\r' then ['\\', 'r']
  else if c.toNat < 32 then
    ['\\', 'u', '0', '0', Nat.digitChar (c.toNat / 16), Nat.digitChar (c.toNat % 16)]
  else [c]

/-- A JSON string. -/
def quote (s : String) : List Char := '"' :: (s.toList.flatMap escape ++ ['"'])

/-- The character behind a backslash, and the rest. -/
def unescapeTail : List Char → Option (Char × List Char)
  | '"' :: r => some ('"', r)
  | '\\' :: r => some ('\\', r)
  | 'b' :: r => some (Char.ofNat 8, r)
  | 't' :: r => some ('\t', r)
  | 'n' :: r => some ('\n', r)
  | 'f' :: r => some (Char.ofNat 12, r)
  | 'r' :: r => some ('\r', r)
  | 'u' :: '0' :: '0' :: a :: b :: r =>
      ((List.range 32).find? fun n => Nat.digitChar (n / 16) = a ∧ Nat.digitChar (n % 16) = b).map
        fun n => (Char.ofNat n, r)
  | _ => none

/-- The first character of a JSON string's inside, and the rest; none at the closing quote. -/
def unescape : List Char → Option (Char × List Char)
  | [] => none
  | c :: r => if c = '"' then none else if c = '\\' then unescapeTail r else some (c, r)

theorem unescapeTail_control (n : Nat) (h : n < 32) (r : List Char) :
    unescapeTail ('u' :: '0' :: '0' :: Nat.digitChar (n / 16) :: Nat.digitChar (n % 16) :: r) =
      some (Char.ofNat n, r) := by
  have hfind : ∀ n < 32, ((List.range 32).find? fun m =>
      Nat.digitChar (m / 16) = Nat.digitChar (n / 16) ∧
        Nat.digitChar (m % 16) = Nat.digitChar (n % 16)) = some n := by decide
  rw [unescapeTail, hfind n h, Option.map_some]

theorem unescape_escape (c : Char) (r : List Char) : unescape (escape c ++ r) = some (c, r) := by
  have hchar : ∀ n, c.toNat = n → c = Char.ofNat n := fun n h => by rw [← h, Char.ofNat_toNat]
  unfold escape
  split_ifs with hquote hback hb ht hn hf hr hcontrol
  · rw [hquote]
    rfl
  · rw [hback]
    rfl
  · rw [hchar _ hb]
    rfl
  · rw [ht]
    rfl
  · rw [hn]
    rfl
  · rw [hchar _ hf]
    rfl
  · rw [hr]
    rfl
  · have htail := unescapeTail_control c.toNat hcontrol r
    rw [Char.ofNat_toNat] at htail
    exact htail
  · rw [List.singleton_append, unescape, if_neg hquote, if_neg hback]

theorem escaped_append_inj (cs ds r r' : List Char)
    (h : cs.flatMap escape ++ '"' :: r = ds.flatMap escape ++ '"' :: r') : cs = ds ∧ r = r' := by
  induction cs generalizing ds with
  | nil =>
      cases ds with
      | nil => exact ⟨rfl, by simpa using h⟩
      | cons d ds =>
          have hread := congrArg unescape h
          rw [List.flatMap_cons, List.append_assoc, unescape_escape] at hread
          cases hread
  | cons c cs ih =>
      cases ds with
      | nil =>
          have hread := congrArg unescape h
          rw [List.flatMap_cons, List.append_assoc, unescape_escape] at hread
          cases hread
      | cons d ds =>
          have hread := congrArg unescape h
          rw [List.flatMap_cons, List.flatMap_cons, List.append_assoc, List.append_assoc,
            unescape_escape, unescape_escape, Option.some.injEq, Prod.mk.injEq] at hread
          obtain ⟨hds, hrest⟩ := ih ds hread.2
          exact ⟨by rw [hread.1, hds], hrest⟩

theorem quote_append_inj {s t : String} {r r' : List Char} (h : quote s ++ r = quote t ++ r') :
    s = t ∧ r = r' := by
  simp only [quote, List.cons_append, List.append_assoc, List.nil_append, List.cons.injEq,
    true_and] at h
  obtain ⟨hchars, hrest⟩ := escaped_append_inj _ _ _ _ h
  exact ⟨String.toList_inj.mp hchars, hrest⟩

/-! ## Numbers -/

def Number.chars : Number → List Char
  | .posInt n => Nat.toDigits 10 n
  | .negInt n => '-' :: Nat.toDigits 10 n
  | .float bits => '.' :: Nat.toDigits 10 bits.toNat

/-- What follows a value does not begin with a digit. -/
def Ends (r : List Char) : Prop := ∀ c ∈ r.head?, c.isDigit = false

theorem takeWhile_isDigit {r : List Char} (hr : Ends r) (n : Nat) :
    (Nat.toDigits 10 n ++ r).takeWhile Char.isDigit = Nat.toDigits 10 n := by
  rw [List.takeWhile_append_of_pos fun c hc =>
    Nat.isDigit_of_mem_toDigits (by decide) (by decide) hc]
  cases r with
  | nil => simp
  | cons c r => simp [hr c rfl]

theorem toDigits_inj {m n : Nat} : Nat.toDigits 10 m = Nat.toDigits 10 n ↔ m = n := by
  refine ⟨fun h => ?_, fun h => h ▸ rfl⟩
  rw [← Nat.ofDigitChars_toDigits (b := 10) (n := m) (by decide) (by decide), h,
    Nat.ofDigitChars_toDigits (by decide) (by decide)]

theorem toDigits_append_inj {m n : Nat} {r r' : List Char} (hr : Ends r) (hr' : Ends r')
    (h : Nat.toDigits 10 m ++ r = Nat.toDigits 10 n ++ r') : m = n ∧ r = r' := by
  have hdigits : Nat.toDigits 10 m = Nat.toDigits 10 n := by
    rw [← takeWhile_isDigit hr m, h, takeWhile_isDigit hr' n]
  rw [hdigits, List.append_right_inj] at h
  exact ⟨toDigits_inj.mp hdigits, h⟩

/-- The first character of a decimal text is a digit. -/
theorem exists_toDigits_eq_cons (n : Nat) :
    ∃ c cs, Nat.toDigits 10 n = c :: cs ∧ c.isDigit = true := by
  cases hdigits : Nat.toDigits 10 n with
  | nil => exact absurd hdigits Nat.toDigits_ne_nil
  | cons c cs =>
      refine ⟨c, cs, rfl, Nat.isDigit_of_mem_toDigits (b := 10) (n := n) (by decide) (by decide) ?_⟩
      rw [hdigits]
      exact List.mem_cons_self

/-- The kind of number, by the first character of its text. -/
def Number.sign : Number → Option Char
  | .posInt _ => none
  | .negInt _ => some '-'
  | .float _ => some '.'

theorem Number.sign_chars (n : Number) (r : List Char) :
    (n.chars ++ r).head?.bind (fun c => if c.isDigit then none else some c) = n.sign := by
  cases n with
  | posInt n =>
      obtain ⟨c, cs, hdigits, hc⟩ := exists_toDigits_eq_cons n
      simp [Number.chars, Number.sign, hdigits, hc]
  | negInt n => rfl
  | float bits => rfl

theorem Number.chars_append_inj {m n : Number} {r r' : List Char} (hr : Ends r) (hr' : Ends r')
    (h : m.chars ++ r = n.chars ++ r') : m = n ∧ r = r' := by
  have hsign : m.sign = n.sign := by rw [← m.sign_chars r, h, n.sign_chars]
  cases m <;> cases n <;> try cases hsign
  case posInt.posInt m n =>
      obtain ⟨hnum, hrest⟩ := toDigits_append_inj hr hr' h
      exact ⟨by rw [hnum], hrest⟩
  case negInt.negInt m n =>
      obtain ⟨hnum, hrest⟩ := toDigits_append_inj hr hr' (List.cons.inj h).2
      exact ⟨by rw [hnum], hrest⟩
  case float.float m n =>
      obtain ⟨hnum, hrest⟩ := toDigits_append_inj hr hr' (List.cons.inj h).2
      exact ⟨by rw [UInt64.toNat_inj.mp hnum], hrest⟩

/-! ## Values -/

/-- A line break and the indentation of a level. -/
def newline (depth : Nat) : List Char := '\n' :: List.replicate (2 * depth) ' '

mutual

/-- The text of a value at a level. -/
def Value.chars (depth : Nat) : Value → List Char
  | .null => ['n', 'u', 'l', 'l']
  | .bool true => ['t', 'r', 'u', 'e']
  | .bool false => ['f', 'a', 'l', 's', 'e']
  | .number n => n.chars
  | .string s => quote s
  | .array items => '[' :: arrayChars depth items
  | .object entries => '{' :: objectChars depth entries

/-- An array behind its bracket. -/
def arrayChars (depth : Nat) : List Value → List Char
  | [] => [']']
  | v :: vs => newline (depth + 1) ++ (v.chars (depth + 1) ++ (itemChars depth vs ++ [']']))

/-- The items of an array behind the first. -/
def itemChars (depth : Nat) : List Value → List Char
  | [] => newline depth
  | v :: vs => ',' :: (newline (depth + 1) ++ (v.chars (depth + 1) ++ itemChars depth vs))

/-- An object behind its brace. -/
def objectChars (depth : Nat) : List (String × Value) → List Char
  | [] => ['}']
  | (key, v) :: es => newline (depth + 1) ++ (quote key ++ ':' :: ' ' ::
      (v.chars (depth + 1) ++ (entryChars depth es ++ ['}'])))

/-- The entries of an object behind the first. -/
def entryChars (depth : Nat) : List (String × Value) → List Char
  | [] => newline depth
  | (key, v) :: es => ',' :: (newline (depth + 1) ++ (quote key ++ ':' :: ' ' ::
      (v.chars (depth + 1) ++ entryChars depth es)))

end

/-- `serde_json::to_string_pretty`. -/
def Value.toStringPretty (v : Value) : String := String.ofList (v.chars 0)

example : (Value.object [("a", .array [.number (.posInt 12), .null])]).toStringPretty =
    "\x7b\n  \"a\": [\n    12,\n    null\n  ]\n\x7d" := by decide +kernel

/-! ## The text determines the value -/

/-- The constructor of a value, by the first character of its text. -/
def kindOf (c : Char) : Nat :=
  if c = 'n' then 0 else if c = 't' then 1 else if c = 'f' then 2 else if c = '"' then 4
  else if c = '[' then 5 else if c = '\x7b' then 6 else 3

def Value.kind : Value → Nat
  | .null => 0
  | .bool true => 1
  | .bool false => 2
  | .number _ => 3
  | .string _ => 4
  | .array _ => 5
  | .object _ => 6

theorem kindOf_of_isDigit {c : Char} (h : c.isDigit = true) : kindOf c = 3 := by
  have hne : ∀ d : Char, d.isDigit = false → c ≠ d := by
    rintro d hd rfl
    rw [h] at hd
    cases hd
  simp [kindOf, hne 'n' rfl, hne 't' rfl, hne 'f' rfl, hne '"' rfl, hne '[' rfl,
    hne '\x7b' rfl]

theorem Value.kind_chars (v : Value) (depth : Nat) (r : List Char) :
    (v.chars depth ++ r).head?.map kindOf = some v.kind := by
  match v with
  | .null | .bool true | .bool false | .string _ | .array _ | .object _ => rfl
  | .number (.negInt _) | .number (.float _) => rfl
  | .number (.posInt n) =>
      obtain ⟨c, cs, hdigits, hc⟩ := exists_toDigits_eq_cons n
      simp [Value.chars, Number.chars, Value.kind, hdigits, kindOf_of_isDigit hc]

theorem ends_itemChars (depth : Nat) (vs : List Value) (r : List Char) :
    Ends (itemChars depth vs ++ r) := by
  cases vs <;> (rintro c ⟨⟩; rfl)

theorem ends_entryChars (depth : Nat) (es : List (String × Value)) (r : List Char) :
    Ends (entryChars depth es ++ r) := by
  rcases es with _ | ⟨⟨key, v⟩, es⟩ <;> (rintro c ⟨⟩; rfl)

mutual

theorem Value.chars_append_inj (depth : Nat) : ∀ (v w : Value) {r r' : List Char}, Ends r →
    Ends r' → v.chars depth ++ r = w.chars depth ++ r' → v = w ∧ r = r'
  | v, w, r, r', hr, hr', h => by
      have hkind : v.kind = w.kind := by
        have hhead := v.kind_chars depth r
        rw [h, w.kind_chars] at hhead
        exact (Option.some.inj hhead).symm
      match v, w with
      | .null, .null => exact ⟨rfl, List.append_cancel_left h⟩
      | .bool true, .bool true => exact ⟨rfl, List.append_cancel_left h⟩
      | .bool false, .bool false => exact ⟨rfl, List.append_cancel_left h⟩
      | .number m, .number n =>
          obtain ⟨hnum, hrest⟩ := Number.chars_append_inj hr hr' h
          exact ⟨by rw [hnum], hrest⟩
      | .string s, .string t =>
          obtain ⟨hstr, hrest⟩ := quote_append_inj h
          exact ⟨by rw [hstr], hrest⟩
      | .array items, .array items' =>
          obtain ⟨hitems, hrest⟩ := arrayChars_append_inj depth items items' (List.cons.inj h).2
          exact ⟨by rw [hitems], hrest⟩
      | .object entries, .object entries' =>
          obtain ⟨hentries, hrest⟩ :=
            objectChars_append_inj depth entries entries' (List.cons.inj h).2
          exact ⟨by rw [hentries], hrest⟩

theorem arrayChars_append_inj (depth : Nat) : ∀ (vs ws : List Value) {r r' : List Char},
    arrayChars depth vs ++ r = arrayChars depth ws ++ r' → vs = ws ∧ r = r'
  | [], [], _, _, h => ⟨rfl, List.append_cancel_left h⟩
  | [], _ :: _, _, _, h => by cases h
  | _ :: _, [], _, _, h => by cases h
  | v :: vs, w :: ws, r, r', h => by
      simp only [arrayChars, List.append_assoc] at h
      obtain ⟨hv, hvs⟩ := Value.chars_append_inj (depth + 1) v w (ends_itemChars _ _ _)
        (ends_itemChars _ _ _) (List.append_cancel_left h)
      obtain ⟨hitems, hrest⟩ := itemChars_append_inj depth vs ws hvs
      exact ⟨by rw [hv, hitems], by simpa using hrest⟩

theorem itemChars_append_inj (depth : Nat) : ∀ (vs ws : List Value) {r r' : List Char},
    itemChars depth vs ++ r = itemChars depth ws ++ r' → vs = ws ∧ r = r'
  | [], [], _, _, h => ⟨rfl, List.append_cancel_left h⟩
  | [], _ :: _, _, _, h => by cases h
  | _ :: _, [], _, _, h => by cases h
  | v :: vs, w :: ws, r, r', h => by
      simp only [itemChars, List.append_assoc, List.cons_append, List.cons.injEq,
        true_and] at h
      obtain ⟨hv, hvs⟩ := Value.chars_append_inj (depth + 1) v w (ends_itemChars _ _ _)
        (ends_itemChars _ _ _) (List.append_cancel_left h)
      obtain ⟨hitems, hrest⟩ := itemChars_append_inj depth vs ws hvs
      exact ⟨by rw [hv, hitems], hrest⟩

theorem objectChars_append_inj (depth : Nat) : ∀ (es fs : List (String × Value))
    {r r' : List Char}, objectChars depth es ++ r = objectChars depth fs ++ r' → es = fs ∧ r = r'
  | [], [], _, _, h => ⟨rfl, List.append_cancel_left h⟩
  | [], (_, _) :: _, _, _, h => by cases h
  | (_, _) :: _, [], _, _, h => by cases h
  | (key, v) :: es, (key', w) :: fs, r, r', h => by
      simp only [objectChars, List.append_assoc, List.cons_append] at h
      obtain ⟨hkey, htail⟩ := quote_append_inj (List.append_cancel_left h)
      obtain ⟨hv, hes⟩ := Value.chars_append_inj (depth + 1) v w (ends_entryChars _ _ _)
        (ends_entryChars _ _ _) (List.cons.inj (List.cons.inj htail).2).2
      obtain ⟨hentries, hrest⟩ := entryChars_append_inj depth es fs hes
      exact ⟨by rw [hkey, hv, hentries], by simpa using hrest⟩

theorem entryChars_append_inj (depth : Nat) : ∀ (es fs : List (String × Value))
    {r r' : List Char}, entryChars depth es ++ r = entryChars depth fs ++ r' → es = fs ∧ r = r'
  | [], [], _, _, h => ⟨rfl, List.append_cancel_left h⟩
  | [], (_, _) :: _, _, _, h => by cases h
  | (_, _) :: _, [], _, _, h => by cases h
  | (key, v) :: es, (key', w) :: fs, r, r', h => by
      simp only [entryChars, List.append_assoc, List.cons_append, List.cons.injEq,
        true_and] at h
      obtain ⟨hkey, htail⟩ := quote_append_inj (List.append_cancel_left h)
      obtain ⟨hv, hes⟩ := Value.chars_append_inj (depth + 1) v w (ends_entryChars _ _ _)
        (ends_entryChars _ _ _) (List.cons.inj (List.cons.inj htail).2).2
      obtain ⟨hentries, hrest⟩ := entryChars_append_inj depth es fs hes
      exact ⟨by rw [hkey, hv, hentries], hrest⟩

end

theorem Value.toStringPretty_inj {v w : Value} (h : v.toStringPretty = w.toStringPretty) :
    v = w := by
  have hchars : v.chars 0 ++ [] = w.chars 0 ++ [] := by
    rw [List.append_nil, List.append_nil]
    exact String.ofList_inj.mp h
  exact (Value.chars_append_inj 0 v w (by rintro c ⟨⟩) (by rintro c ⟨⟩) hchars).1

/-! ## A collision-free canon -/

/-- The printer above with a hash that keeps its text. -/
def Canon.ideal : Canon where
  toStringPretty := Value.toStringPretty
  sha256
    | .text s => s
    | .other .. => ""

/-- **Equal hashes of the ideal canon come from equal key-sorted values.** -/
theorem Canon.ideal_collisionFree : Canon.ideal.CollisionFree := fun _ _ h =>
  Value.toStringPretty_inj (CanonicalHash.mk.inj h)

theorem isWhiteSpace_of_isDigit {c : Char} (h : c.isDigit = true) : isWhiteSpace c = false := by
  simp only [Char.isDigit, Bool.and_eq_true, decide_eq_true_eq] at h
  have hle : 48 ≤ c.toNat ∧ c.toNat ≤ 57 := h
  simp only [isWhiteSpace, Bool.or_eq_false_iff, Bool.and_eq_false_iff, decide_eq_false_iff_not]
  omega

/-- The first character of a value's text is no white space. -/
theorem Value.exists_chars_eq_cons (v : Value) (depth : Nat) :
    ∃ c cs, v.chars depth = c :: cs ∧ isWhiteSpace c = false := by
  match v with
  | .null | .bool true | .bool false | .string _ | .array _ | .object _ =>
      exact ⟨_, _, rfl, by decide⟩
  | .number (.negInt _) | .number (.float _) => exact ⟨_, _, rfl, by decide⟩
  | .number (.posInt n) =>
      obtain ⟨c, cs, hdigits, hc⟩ := exists_toDigits_eq_cons n
      exact ⟨c, cs, hdigits, isWhiteSpace_of_isDigit hc⟩

theorem Canon.ideal_nonBlank : Canon.ideal.NonBlank := by
  intro v
  obtain ⟨c, cs, hchars, hc⟩ := (sortJson v).exists_chars_eq_cons 0
  show isBlank (String.ofList ((sortJson v).chars 0)) = false
  rw [isBlank, String.toList_ofList, hchars, List.all_cons, hc, Bool.false_and]

end Sock.Core
