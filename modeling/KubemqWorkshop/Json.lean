import Mathlib.Data.Int.Notation
import Mathlib.Data.List.Basic
import Mathlib.Tactic.IntervalCases

/-!
# JSON texts

Values, the reader `JSON.parse` and the compact writer `JSON.stringify`. The
reader works on characters and recurses on a bound for the nesting depth, which
the length of the text is; every way to leave the grammar is a `none`, the
`SyntaxError` of `JSON.parse`. Main result: **what is written is read back**
(`parse_stringify`), for every value.

A number is kept as the decimal it is written as, `mantissa · 10 ^ exponent`. A
Lean string has no unpaired surrogates, so an escape that makes one is refused.
-/

namespace KubemqWorkshop

/-- JSON values. Members keep their order, and duplicates stay. -/
inductive Json where
  | null : Json
  | bool (b : Bool) : Json
  | num (mantissa exponent : ℤ) : Json
  | str (s : String) : Json
  | arr (elements : List Json) : Json
  | obj (members : List (String × Json)) : Json

namespace Json

/-- A property of a value; `none` is `undefined`. The last of several members
with one name counts. -/
def get? (key : String) : Json → Option Json
  | .obj members => (members.findRev? fun m => m.1 == key).map Prod.snd
  | _ => none

/-- `null ===` a value. -/
def isNull : Option Json → Bool
  | some .null => true
  | _ => false

theorem isNull_iff {v : Option Json} : isNull v = true ↔ v = some .null := by
  rcases v with - | (_ | _ | _ | _ | _ | _) <;> simp [isNull]

/-- A natural number `===` a value: the value is a number, and the same one. -/
def isNumber (k : ℕ) : Option Json → Bool
  | some (.num m e) =>
    if 0 ≤ e then m * 10 ^ e.toNat == (k : ℤ) else m == (k : ℤ) * 10 ^ (-e).toNat
  | _ => false

/-- A value is one number at most. -/
theorem isNumber_inj {k k' : ℕ} {v : Option Json} (h : isNumber k v = true)
    (h' : isNumber k' v = true) : k = k' := by
  rcases v with _ | (_ | _ | ⟨m, e⟩ | _ | _ | _)
  case some.num =>
    rw [isNumber] at h h'
    split at h
    · rw [if_pos ‹0 ≤ e›] at h'
      exact_mod_cast (beq_iff_eq.mp h).symm.trans (beq_iff_eq.mp h')
    · rw [if_neg ‹¬ 0 ≤ e›] at h'
      have hpow : (10 : ℤ) ^ (-e).toNat ≠ 0 := pow_ne_zero _ (by decide)
      have := (beq_iff_eq.mp h).symm.trans (beq_iff_eq.mp h')
      exact_mod_cast mul_right_cancel₀ hpow this
  all_goals cases h

/-! ## Reading -/

/-- White space between tokens. -/
def isSpace (c : Char) : Bool := c == ' ' || c == '\t' || c == '\n' || c == '\r'

/-- Skip white space. -/
def skipSpace (cs : List Char) : List Char := cs.dropWhile isSpace

/-- The value of a hexadecimal digit. -/
def hexValue (c : Char) : Option ℕ :=
  if c.isDigit then some (c.toNat - '0'.toNat)
  else if 'a' ≤ c ∧ c ≤ 'f' then some (c.toNat - 'a'.toNat + 10)
  else if 'A' ≤ c ∧ c ≤ 'F' then some (c.toNat - 'A'.toNat + 10)
  else none

/-- The character behind a backslash, `u` apart. -/
def unescape (c : Char) : Option Char :=
  if c = '"' ∨ c = '\\' ∨ c = '/' then some c
  else if c = 'b' then some '\x08'
  else if c = 'f' then some '\x0c'
  else if c = 'n' then some '\n'
  else if c = 'r' then some '\r'
  else if c = 't' then some '\t'
  else none

/-- Where the reader stands inside a string. `high` is the code unit of a high
surrogate that waits for its partner. -/
inductive InString where
  | plain : InString
  /-- behind a backslash -/
  | escape : InString
  /-- behind `\u`, with `left` digits to come -/
  | hex (high : Option ℕ) (left code : ℕ) : InString
  /-- behind a high surrogate -/
  | pair (high : ℕ) : InString
  /-- behind a high surrogate and a backslash -/
  | pairEscape (high : ℕ) : InString

/-- The characters up to the closing quote, and what is behind it. -/
def string : InString → List Char → Option (List Char × List Char)
  | _, [] => none
  | .plain, c :: r =>
    if c = '"' then some ([], r)
    else if c = '\\' then string .escape r
    else if c.toNat < 0x20 then none
    else (string .plain r).map fun p => (c :: p.1, p.2)
  | .escape, c :: r =>
    if c = 'u' then string (.hex none 3 0) r
    else (unescape c).bind fun d => (string .plain r).map fun p => (d :: p.1, p.2)
  | .hex high (left + 1) code, c :: r =>
    (hexValue c).bind fun d => string (.hex high left (16 * code + d)) r
  | .hex high 0 code, c :: r =>
    (hexValue c).bind fun d =>
      let unit := 16 * code + d
      let isLow := 0xDC00 ≤ unit ∧ unit < 0xE000
      match high with
      | none =>
        if 0xD800 ≤ unit ∧ unit < 0xDC00 then string (.pair unit) r
        else if isLow then none
        else (string .plain r).map fun p => (Char.ofNat unit :: p.1, p.2)
      | some high =>
        if isLow then
          (string .plain r).map fun p =>
            (Char.ofNat (0x10000 + (high - 0xD800) * 0x400 + (unit - 0xDC00)) :: p.1, p.2)
        else none
  | .pair high, c :: r => if c = '\\' then string (.pairEscape high) r else none
  | .pairEscape high, c :: r => if c = 'u' then string (.hex (some high) 3 0) r else none

/-- A run of digits, which is not empty. -/
def digits (cs : List Char) : Option (List Char × List Char) :=
  if cs.takeWhile Char.isDigit = [] then none
  else some (cs.takeWhile Char.isDigit, cs.dropWhile Char.isDigit)

/-- The number a run of digits is. -/
def ofDigits (ds : List Char) : ℤ := (Nat.ofDigitChars 10 ds 0 : ℕ)

/-- The exponent behind `e`. -/
def signedDigits : List Char → Option (ℤ × List Char)
  | [] => none
  | c :: r =>
    if c = '+' then (digits r).map fun p => (ofDigits p.1, p.2)
    else if c = '-' then (digits r).map fun p => (-ofDigits p.1, p.2)
    else (digits (c :: r)).map fun p => (ofDigits p.1, p.2)

/-- The exponent of a number, if it has one. -/
def exponent : List Char → Option (ℤ × List Char)
  | [] => some (0, [])
  | c :: r => if c = 'e' ∨ c = 'E' then signedDigits r else some (0, c :: r)

/-- The digits behind the point, if there is one. -/
def fraction : List Char → Option (List Char × List Char)
  | [] => some ([], [])
  | c :: r => if c = '.' then digits r else some ([], c :: r)

/-- A number without its sign. No digit follows a leading zero. -/
def unsigned (cs : List Char) : Option ((ℤ × ℤ) × List Char) :=
  (digits cs).bind fun int =>
    if int.1.head? = some '0' ∧ int.1.length ≠ 1 then none
    else (fraction int.2).bind fun frac =>
      (exponent frac.2).map fun exp =>
        ((ofDigits (int.1 ++ frac.1), exp.1 - frac.1.length), exp.2)

/-- A number. -/
def number : List Char → Option (Json × List Char)
  | [] => none
  | c :: r =>
    if c = '-' then (unsigned r).map fun p => (.num (-p.1.1) p.1.2, p.2)
    else (unsigned (c :: r)).map fun p => (.num p.1.1 p.1.2, p.2)

/-- The three names. -/
def name : List Char → Option (Json × List Char)
  | 'n' :: 'u' :: 'l' :: 'l' :: r => some (.null, r)
  | 't' :: 'r' :: 'u' :: 'e' :: r => some (.bool true, r)
  | 'f' :: 'a' :: 'l' :: 's' :: 'e' :: r => some (.bool false, r)
  | _ => none

/-- Items separated by commas up to the closing bracket. -/
def sequence {α : Type} (item : List Char → Option (α × List Char)) (close : Char) :
    ℕ → List Char → Option (List α × List Char)
  | 0, _ => none
  | n + 1, cs =>
    (item cs).bind fun p =>
      match skipSpace p.2 with
      | [] => none
      | c :: r =>
        if c = ',' then (sequence item close n r).map fun q => (p.1 :: q.1, q.2)
        else if c = close then some ([p.1], r)
        else none

/-- A bracketed sequence, which may be empty. -/
def bracketed {α : Type} (item : List Char → Option (α × List Char)) (close : Char) (n : ℕ)
    (cs : List Char) : Option (List α × List Char) :=
  match skipSpace cs with
  | [] => none
  | c :: r => if c = close then some ([], r) else sequence item close n (c :: r)

/-- A member of an object. -/
def member (value : List Char → Option (Json × List Char)) (cs : List Char) :
    Option ((String × Json) × List Char) :=
  match skipSpace cs with
  | [] => none
  | q :: r =>
    if q = '"' then
      (string .plain r).bind fun key =>
        match skipSpace key.2 with
        | [] => none
        | c :: r =>
          if c = ':' then (value r).map fun v => ((String.ofList key.1, v.1), v.2) else none
    else none

/-- A value, nested at most as deep as the bound. -/
def value : ℕ → List Char → Option (Json × List Char)
  | 0, _ => none
  | n + 1, cs =>
    match skipSpace cs with
    | [] => none
    | c :: r =>
      if c = '"' then (string .plain r).map fun p => (.str (String.ofList p.1), p.2)
      else if c = '[' then (bracketed (value n) ']' n r).map fun p => (.arr p.1, p.2)
      else if c = '\x7b' then (bracketed (member (value n)) '\x7d' n r).map fun p => (.obj p.1, p.2)
      else if c = '-' ∨ c.isDigit then number (c :: r)
      else name (c :: r)

/-- `JSON.parse`. Nothing but white space may follow the value. -/
def parse (text : String) : Option Json :=
  match value text.toList.length text.toList with
  | none => none
  | some (v, r) => if skipSpace r = [] then some v else none

/-! ## Writing -/

/-- A character inside a string. -/
def escape (c : Char) : List Char :=
  if c = '"' then ['\\', '"']
  else if c = '\\' then ['\\', '\\']
  else if c = '\x08' then ['\\', 'b']
  else if c = '\x0c' then ['\\', 'f']
  else if c = '\n' then ['\\', 'n']
  else if c = '\r' then ['\\', 'r']
  else if c = '\t' then ['\\', 't']
  else if c.toNat < 0x20 then
    ['\\', 'u', '0', '0', Nat.digitChar (c.toNat / 16), Nat.digitChar (c.toNat % 16)]
  else [c]

/-- A string with its quotes. -/
def quote (s : String) : List Char := '"' :: s.toList.flatMap escape ++ ['"']

/-- An integer. -/
def integer : ℤ → List Char
  | .ofNat n => Nat.toDigits 10 n
  | .negSucc n => '-' :: Nat.toDigits 10 (n + 1)

/-- The text of an exponent, which is left out when it is zero. -/
def exponentText (e : ℤ) : List Char := if e = 0 then [] else 'e' :: integer e

/-- Pieces separated by commas. -/
def commas : List (List Char) → List Char
  | [] => []
  | [piece] => piece
  | piece :: next :: pieces => piece ++ ',' :: commas (next :: pieces)

mutual

/-- The text of a value. -/
def print : Json → List Char
  | .null => ['n', 'u', 'l', 'l']
  | .bool true => ['t', 'r', 'u', 'e']
  | .bool false => ['f', 'a', 'l', 's', 'e']
  | .num mantissa exponent =>
    integer mantissa ++ exponentText exponent
  | .str s => quote s
  | .arr elements => '[' :: commas (printElements elements) ++ [']']
  | .obj members => '\x7b' :: commas (printMembers members) ++ ['\x7d']

/-- The texts of the elements of an array. -/
def printElements : List Json → List (List Char)
  | [] => []
  | v :: vs => print v :: printElements vs

/-- The texts of the members of an object. -/
def printMembers : List (String × Json) → List (List Char)
  | [] => []
  | (key, v) :: members => (quote key ++ ':' :: print v) :: printMembers members

end

/-- `JSON.stringify`. -/
def stringify (v : Json) : String := String.ofList (print v)

/-! ## Digits and numbers -/

/-- What may stand behind a value. -/
def Ends : List Char → Prop
  | [] => True
  | c :: _ => c = ',' ∨ c = ']' ∨ c = '\x7d'

/-- A run of digits ends here. -/
def NoDigit : List Char → Prop
  | [] => True
  | c :: _ => c.isDigit = false

theorem Ends.noDigit {rest : List Char} (h : Ends rest) : NoDigit rest := by
  rcases rest with - | ⟨c, rest⟩
  · trivial
  · rcases h with rfl | rfl | rfl <;> rfl

theorem digits_append {ds rest : List Char} (hne : ds ≠ []) (hds : ∀ c ∈ ds, c.isDigit = true)
    (hrest : NoDigit rest) : digits (ds ++ rest) = some (ds, rest) := by
  have htake : rest.takeWhile Char.isDigit = [] ∧ rest.dropWhile Char.isDigit = rest := by
    rcases rest with - | ⟨c, rest⟩
    · exact ⟨rfl, rfl⟩
    · have hc : ¬ c.isDigit = true := by rw [hrest]; decide
      exact ⟨List.takeWhile_cons_of_neg hc, List.dropWhile_cons_of_neg hc⟩
  rw [digits, List.takeWhile_append_of_pos hds, List.dropWhile_append_of_pos hds, htake.1,
    htake.2, List.append_nil, if_neg hne]

theorem isDigit_toDigits {n : ℕ} : ∀ c ∈ Nat.toDigits 10 n, c.isDigit = true :=
  fun _ hc => Nat.isDigit_of_mem_toDigits (by decide) (by decide) hc

theorem ofDigits_toDigits (n : ℕ) : ofDigits (Nat.toDigits 10 n) = n := by
  rw [ofDigits, Nat.ofDigitChars_ten_toDigits]

/-- No number but zero starts with a zero. -/
theorem head_toDigits {n : ℕ} (hn : 0 < n) : (Nat.toDigits 10 n).head? ≠ some '0' := by
  -- the first digit of a number is that of its tenth
  induction n using Nat.strong_induction_on with
  | _ n ih =>
    by_cases hlt : n < 10
    · rw [Nat.toDigits_of_lt_base hlt, List.head?_cons]
      interval_cases n <;> decide
    · rw [Nat.toDigits_of_base_le (by decide) (by omega), List.head?_append_of_ne_nil _
        Nat.toDigits_ne_nil]
      exact ih (n / 10) (by omega) (by omega)

theorem noLeadingZero (n : ℕ) :
    ¬ ((Nat.toDigits 10 n).head? = some '0' ∧ (Nat.toDigits 10 n).length ≠ 1) := by
  rintro ⟨hhead, hlen⟩
  rcases Nat.eq_zero_or_pos n with rfl | hn
  · exact hlen rfl
  · exact head_toDigits hn hhead

/-- Digits start with a digit. -/
theorem toDigits_eq_cons (n : ℕ) :
    ∃ c cs, Nat.toDigits 10 n = c :: cs ∧ c.isDigit = true := by
  rcases h : Nat.toDigits 10 n with - | ⟨c, cs⟩
  · exact absurd h Nat.toDigits_ne_nil
  · exact ⟨c, cs, rfl, isDigit_toDigits c (h ▸ List.mem_cons_self ..)⟩

theorem signedDigits_integer (e : ℤ) {rest : List Char} (hrest : NoDigit rest) :
    signedDigits (integer e ++ rest) = some (e, rest) := by
  rcases e with n | n
  · have hdigits := digits_append Nat.toDigits_ne_nil (isDigit_toDigits (n := n)) hrest
    obtain ⟨c, cs, hcs, hc⟩ := toDigits_eq_cons n
    have hplus : c ≠ '+' := by rintro rfl; exact absurd hc (by decide)
    have hminus : c ≠ '-' := by rintro rfl; exact absurd hc (by decide)
    rw [hcs] at hdigits
    rw [integer, hcs, List.cons_append, signedDigits, if_neg hplus, if_neg hminus,
      ← List.cons_append, hdigits, ← hcs, Option.map_some, ofDigits_toDigits]
    rfl
  · rw [integer, List.cons_append, signedDigits, if_neg (by decide), if_pos rfl,
      digits_append Nat.toDigits_ne_nil isDigit_toDigits hrest, Option.map_some,
      ofDigits_toDigits]
    rfl

theorem noDigit_exponentText (e : ℤ) {rest : List Char} (hrest : Ends rest) :
    NoDigit (exponentText e ++ rest) := by
  rw [exponentText]
  split
  · exact hrest.noDigit
  · rfl

theorem exponent_exponentText (e : ℤ) {rest : List Char} (hrest : Ends rest) :
    exponent (exponentText e ++ rest) = some (e, rest) := by
  rw [exponentText]
  split
  · rename_i he
    subst he
    rcases rest with - | ⟨c, rest⟩
    · rfl
    · rcases hrest with rfl | rfl | rfl <;> rfl
  · rw [List.cons_append, exponent, if_pos (.inl rfl), signedDigits_integer e hrest.noDigit]

theorem fraction_exponentText (e : ℤ) {rest : List Char} (hrest : Ends rest) :
    fraction (exponentText e ++ rest) = some ([], exponentText e ++ rest) := by
  rw [exponentText]
  split
  · rcases rest with - | ⟨c, rest⟩
    · rfl
    · rcases hrest with rfl | rfl | rfl <;> rfl
  · rfl

theorem unsigned_toDigits (n : ℕ) (e : ℤ) {rest : List Char} (hrest : Ends rest) :
    unsigned (Nat.toDigits 10 n ++ (exponentText e ++ rest)) = some (((n : ℤ), e), rest) := by
  rw [unsigned, digits_append Nat.toDigits_ne_nil isDigit_toDigits (noDigit_exponentText e hrest),
    Option.bind_some, if_neg (noLeadingZero n), fraction_exponentText e hrest, Option.bind_some,
    exponent_exponentText e hrest, Option.map_some, List.append_nil, ofDigits_toDigits]
  simp

/-- A number without an exponent. -/
theorem unsigned_point (n : ℕ) {ds : List Char} (hne : ds ≠ [])
    (hds : ∀ c ∈ ds, c.isDigit = true) :
    unsigned (Nat.toDigits 10 n ++ '.' :: ds) =
      some ((ofDigits (Nat.toDigits 10 n ++ ds), -(ds.length : ℤ)), []) := by
  have hpoint : NoDigit ('.' :: ds) := by
    rw [NoDigit]
    decide
  have hends : NoDigit [] := trivial
  have hfraction := digits_append hne hds hends
  rw [List.append_nil] at hfraction
  rw [unsigned, digits_append Nat.toDigits_ne_nil isDigit_toDigits hpoint, Option.bind_some,
    if_neg (noLeadingZero n), fraction, if_pos rfl, hfraction, Option.bind_some, exponent,
    Option.map_some, Int.zero_sub]

theorem number_print (m e : ℤ) {rest : List Char} (hrest : Ends rest) :
    number (integer m ++ (exponentText e ++ rest)) = some (.num m e, rest) := by
  rcases m with n | n
  · have hunsigned := unsigned_toDigits n e hrest
    obtain ⟨c, cs, hcs, hc⟩ := toDigits_eq_cons n
    have hminus : c ≠ '-' := by rintro rfl; exact absurd hc (by decide)
    rw [hcs, List.cons_append] at hunsigned
    rw [integer, hcs, List.cons_append, number, if_neg hminus, hunsigned]
    rfl
  · rw [integer, List.cons_append, number, if_pos rfl, unsigned_toDigits (n + 1) e hrest]
    rfl

/-- Numbers start with a digit or a minus. -/
theorem integer_eq_cons (m : ℤ) :
    ∃ c cs, integer m = c :: cs ∧ (c = '-' ∨ c.isDigit = true) := by
  rcases m with n | n
  · obtain ⟨c, cs, hcs, hc⟩ := toDigits_eq_cons n
    exact ⟨c, cs, hcs, .inr hc⟩
  · exact ⟨'-', _, rfl, .inl rfl⟩

/-! ## Strings -/

theorem string_control {n : ℕ} (hn : n < 0x20) (r : List Char) :
    string .plain (escape (Char.ofNat n) ++ r) =
      (string .plain r).map fun p => (Char.ofNat n :: p.1, p.2) := by
  interval_cases n <;> rfl

/-- An escaped character is read back. -/
theorem string_escape (c : Char) (r : List Char) :
    string .plain (escape c ++ r) = (string .plain r).map fun p => (c :: p.1, p.2) := by
  by_cases hcontrol : c.toNat < 0x20
  · rw [← Char.ofNat_toNat c]
    exact string_control hcontrol r
  · by_cases hquote : c = '"'
    · subst hquote
      rfl
    · by_cases hback : c = '\\'
      · subst hback
        rfl
      · have hplain : escape c = [c] := by
          have hne : ∀ d : Char, d.toNat < 0x20 → c ≠ d := fun d hd h => hcontrol (h ▸ hd)
          rw [escape, if_neg hquote, if_neg hback, if_neg (hne _ (by decide)),
            if_neg (hne _ (by decide)), if_neg (hne _ (by decide)), if_neg (hne _ (by decide)),
            if_neg (hne _ (by decide)), if_neg hcontrol]
        rw [hplain, List.singleton_append, string, if_neg hquote, if_neg hback, if_neg hcontrol]

theorem string_flatMap_escape (cs r : List Char) :
    string .plain (cs.flatMap escape ++ '"' :: r) = some (cs, r) := by
  induction cs with
  | nil => rfl
  | cons c cs ih =>
    rw [List.flatMap_cons, List.append_assoc, string_escape, ih, Option.map_some]

/-- Behind its first quote, a quoted string is read back. -/
theorem quote_append (s : String) (r : List Char) :
    quote s ++ r = '"' :: (s.toList.flatMap escape ++ '"' :: r) := by
  simp [quote]

/-! ## Sequences -/

theorem skipSpace_of_not {c : Char} (hc : isSpace c = false) (r : List Char) :
    skipSpace (c :: r) = c :: r :=
  List.dropWhile_cons_of_neg (by simp [hc])

theorem printElements_eq (vs : List Json) : printElements vs = vs.map print := by
  induction vs with
  | nil => rfl
  | cons v vs ih => rw [printElements, ih, List.map_cons]

/-- The text of a member. -/
def printMember (m : String × Json) : List Char := quote m.1 ++ ':' :: print m.2

theorem printMembers_eq (ms : List (String × Json)) : printMembers ms = ms.map printMember := by
  induction ms with
  | nil => rfl
  | cons m ms ih => rw [printMembers, ih, List.map_cons, printMember]

/-- Every piece is in the text. -/
theorem length_le_commas {piece : List Char} {pieces : List (List Char)} (h : piece ∈ pieces) :
    piece.length ≤ (commas pieces).length := by
  induction pieces with
  | nil => exact absurd h List.not_mem_nil
  | cons p pieces ih =>
    rcases pieces with - | ⟨q, pieces⟩
    · rw [List.mem_singleton.mp h, commas]
    · rw [commas, List.length_append, List.length_cons]
      rcases List.mem_cons.mp h with rfl | h
      · omega
      · have := ih h
        omega

/-- Pieces and the commas between them take up room. -/
theorem length_le_length_commas (pieces : List (List Char)) (h : ∀ p ∈ pieces, p ≠ []) :
    pieces.length ≤ (commas pieces).length := by
  induction pieces with
  | nil => exact le_refl _
  | cons p pieces ih =>
    have hp := List.length_pos_of_ne_nil (h p (List.mem_cons_self ..))
    have ih := ih fun q hq => h q (List.mem_cons_of_mem _ hq)
    rcases pieces with - | ⟨q, pieces⟩
    · rw [commas]
      exact hp
    · rw [commas, List.length_append, List.length_cons, List.length_cons (a := ',')]
      omega

section

variable {α : Type} {item : List Char → Option (α × List Char)} {write : α → List Char}
  {close : Char}

/-- A sequence whose items are read back is read back. -/
theorem sequence_commas (hclose : close = ']' ∨ close = '\x7d') {xs : List α}
    (hitem : ∀ x ∈ xs, ∀ rest, Ends rest → item (write x ++ rest) = some (x, rest))
    (hne : xs ≠ []) {n : ℕ} (hn : xs.length ≤ n) (rest : List Char) :
    sequence item close n (commas (xs.map write) ++ close :: rest) = some (xs, rest) := by
  have hspace : isSpace close = false := by rcases hclose with rfl | rfl <;> rfl
  have hcomma : close ≠ ',' := by rcases hclose with rfl | rfl <;> decide
  induction xs generalizing n with
  | nil => exact absurd rfl hne
  | cons x xs ih =>
    obtain ⟨n, rfl⟩ : ∃ k, n = k + 1 := ⟨n - 1, by rw [List.length_cons] at hn; omega⟩
    have hx := hitem x (List.mem_cons_self ..)
    rcases xs with - | ⟨y, ys⟩
    · have hends : Ends (close :: rest) := .inr hclose
      rw [List.map_singleton, commas, sequence, hx _ hends, Option.bind_some]
      simp only [skipSpace_of_not hspace, if_neg hcomma, if_pos]
    · have hends : Ends (',' :: (commas ((y :: ys).map write) ++ close :: rest)) := .inl rfl
      have ih := ih (fun z hz => hitem z (List.mem_cons_of_mem _ hz)) (List.cons_ne_nil _ _)
        (n := n) (by rw [List.length_cons] at hn; omega)
      rw [List.map_cons, List.map_cons, commas, List.append_assoc, List.cons_append, sequence,
        ← List.map_cons, hx _ hends, Option.bind_some]
      simp only [skipSpace_of_not (c := ',') rfl, if_pos, ih, Option.map_some]

/-- So is a bracketed sequence, whose items do not start like its end. -/
theorem bracketed_commas (hclose : close = ']' ∨ close = '\x7d') {xs : List α}
    (hitem : ∀ x ∈ xs, ∀ rest, Ends rest → item (write x ++ rest) = some (x, rest))
    (hhead : ∀ x ∈ xs, ∃ c cs, write x = c :: cs ∧ isSpace c = false ∧ c ≠ close)
    {n : ℕ} (hn : xs.length ≤ n) (rest : List Char) :
    bracketed item close n (commas (xs.map write) ++ close :: rest) = some (xs, rest) := by
  have hspace : isSpace close = false := by rcases hclose with rfl | rfl <;> rfl
  rcases xs with - | ⟨x, xs⟩
  · rw [List.map_nil, commas, List.nil_append, bracketed, skipSpace_of_not hspace]
    simp
  · have hsequence := sequence_commas hclose hitem (List.cons_ne_nil _ _) hn rest
    obtain ⟨c, cs, hcs, hc, hne⟩ := hhead x (List.mem_cons_self ..)
    obtain ⟨tail, htail⟩ : ∃ tail, commas ((x :: xs).map write) ++ close :: rest = c :: tail := by
      rcases xs with - | ⟨y, ys⟩
      · exact ⟨_, by rw [List.map_singleton, commas, hcs, List.cons_append]⟩
      · exact ⟨_, by rw [List.map_cons, List.map_cons, commas, hcs, List.cons_append,
          List.cons_append]⟩
    rw [htail] at hsequence ⊢
    rw [bracketed, skipSpace_of_not hc]
    simp only [if_neg hne, hsequence]

end

/-! ## The round trip -/

/-- Values start neither with white space nor with a closing bracket. -/
theorem print_eq_cons (v : Json) :
    ∃ c cs, print v = c :: cs ∧ isSpace c = false ∧ c ≠ ']' := by
  cases v with
  | null => exact ⟨_, _, rfl, rfl, by decide⟩
  | bool b => cases b <;> exact ⟨_, _, rfl, rfl, by decide⟩
  | num m e =>
    obtain ⟨c, cs, hcs, hc⟩ := integer_eq_cons m
    refine ⟨c, cs ++ exponentText e, by rw [print, hcs, List.cons_append], ?_, ?_⟩
    · rcases hc with rfl | hc
      · rfl
      · by_contra hspace
        simp only [isSpace, Bool.not_eq_false, Bool.or_eq_true, beq_iff_eq] at hspace
        rcases hspace with ((rfl | rfl) | rfl) | rfl <;> exact absurd hc (by decide)
    · rcases hc with rfl | hc
      · decide
      · rintro rfl
        exact absurd hc (by decide)
  | str s => exact ⟨_, _, rfl, rfl, by decide⟩
  | arr vs => exact ⟨_, _, by rw [print]; rfl, rfl, by decide⟩
  | obj ms => exact ⟨_, _, by rw [print]; rfl, rfl, by decide⟩

theorem print_ne_nil (v : Json) : print v ≠ [] := by
  obtain ⟨c, cs, hcs, -⟩ := print_eq_cons v
  rw [hcs]
  exact List.cons_ne_nil _ _

theorem member_printMember {read : List Char → Option (Json × List Char)} {m : String × Json}
    {rest : List Char} (h : read (print m.2 ++ rest) = some (m.2, rest)) :
    member read (printMember m ++ rest) = some (m, rest) := by
  rw [printMember, List.append_assoc, quote_append, member, skipSpace_of_not rfl]
  simp only [if_pos, string_flatMap_escape, Option.bind_some, List.cons_append,
    skipSpace_of_not (c := ':') rfl, h, Option.map_some, String.ofList_toList]

theorem value_num (n : ℕ) (m e : ℤ) {rest : List Char} (hrest : Ends rest) :
    value (n + 1) (print (.num m e) ++ rest) = some (.num m e, rest) := by
  have hnumber := number_print m e hrest
  obtain ⟨c, cs, hcs, hc⟩ := integer_eq_cons m
  have hspace : isSpace c = false := by
    obtain ⟨c', cs', hcs', hc', -⟩ := print_eq_cons (.num m e)
    rw [print, hcs, List.cons_append] at hcs'
    rwa [(List.cons.inj hcs').1]
  have hne : ∀ d : Char, d ≠ '-' → d.isDigit = false → c ≠ d := by
    rintro d h1 h2 rfl
    rcases hc with rfl | hc
    · exact h1 rfl
    · rw [h2] at hc
      cases hc
  rw [hcs, List.cons_append] at hnumber
  rw [print, List.append_assoc, hcs, List.cons_append, value, skipSpace_of_not hspace]
  simp only [if_neg (hne '"' (by decide) rfl), if_neg (hne '[' (by decide) rfl),
    if_neg (hne '\x7b' (by decide) rfl), if_pos hc, hnumber]

/-- A text that starts with a digit is read as a number without a sign. -/
theorem value_of_isDigit (n : ℕ) {c : Char} (hc : c.isDigit = true) (cs : List Char) :
    value (n + 1) (c :: cs) = (unsigned (c :: cs)).map fun p => (.num p.1.1 p.1.2, p.2) := by
  have hne : ∀ d : Char, d.isDigit = false → c ≠ d := by
    rintro d hd rfl
    rw [hd] at hc
    cases hc
  have hspace : isSpace c = false := by
    by_contra hspace
    simp only [isSpace, Bool.not_eq_false, Bool.or_eq_true, beq_iff_eq] at hspace
    rcases hspace with ((rfl | rfl) | rfl) | rfl <;> exact absurd hc (by decide)
  rw [value, skipSpace_of_not hspace]
  simp only [if_neg (hne '"' rfl), if_neg (hne '[' rfl), if_neg (hne '\x7b' rfl), hc, or_true,
    if_true, number, if_neg (hne '-' rfl)]

/-- Texts that fit the bound are read back. -/
def ReadsBack (n : ℕ) : Prop :=
  ∀ {v : Json}, (print v).length ≤ n → ∀ {rest : List Char}, Ends rest →
    value n (print v ++ rest) = some (v, rest)

theorem value_arr {n : ℕ} (h : ReadsBack n) {vs : List Json}
    (hvs : (print (.arr vs)).length ≤ n + 1) (rest : List Char) :
    value (n + 1) (print (.arr vs) ++ rest) = some (.arr vs, rest) := by
  rw [print, printElements_eq] at hvs ⊢
  rw [List.length_append, List.length_cons] at hvs
  have hlen := length_le_length_commas (vs.map print) fun p hp => by
    obtain ⟨v, -, rfl⟩ := List.mem_map.mp hp
    exact print_ne_nil v
  rw [List.length_map] at hlen
  have hitem : ∀ v ∈ vs, ∀ rest, Ends rest → value n (print v ++ rest) = some (v, rest) := by
    intro v hmem rest hrest
    have := length_le_commas (List.mem_map_of_mem (f := print) hmem)
    exact h (by omega) hrest
  have hbracketed := bracketed_commas (.inl rfl) hitem (fun v _ => print_eq_cons v)
    (n := n) (by omega) rest
  rw [List.append_assoc, List.cons_append, List.singleton_append, value, skipSpace_of_not rfl]
  simp only [if_neg (by decide : ('[' : Char) ≠ '"'), if_pos, hbracketed, Option.map_some]

theorem value_obj {n : ℕ} (h : ReadsBack n) {ms : List (String × Json)}
    (hms : (print (.obj ms)).length ≤ n + 1) (rest : List Char) :
    value (n + 1) (print (.obj ms) ++ rest) = some (.obj ms, rest) := by
  rw [print, printMembers_eq] at hms ⊢
  rw [List.length_append, List.length_cons] at hms
  have hlen := length_le_length_commas (ms.map printMember) fun p hp => by
    obtain ⟨m, -, rfl⟩ := List.mem_map.mp hp
    simp [printMember, quote]
  rw [List.length_map] at hlen
  have hitem : ∀ m ∈ ms, ∀ rest, Ends rest →
      member (value n) (printMember m ++ rest) = some (m, rest) := by
    intro m hmem rest hrest
    have := length_le_commas (List.mem_map_of_mem (f := printMember) hmem)
    rw [printMember, List.length_append, List.length_cons] at this
    exact member_printMember (h (by omega) hrest)
  have hbracketed := bracketed_commas (.inr rfl) hitem
    (fun m _ => ⟨'"', _, quote_append _ _, rfl, by decide⟩) (n := n) (by omega) rest
  rw [List.append_assoc, List.cons_append, List.singleton_append, value, skipSpace_of_not rfl]
  simp only [if_neg (by decide : ('\x7b' : Char) ≠ '"'),
    if_neg (by decide : ('\x7b' : Char) ≠ '['), if_pos, hbracketed, Option.map_some]

/-- A value is read back when the bound is as large as its text. -/
theorem readsBack (n : ℕ) : ReadsBack n := by
  induction n with
  | zero =>
    intro v hv
    exact absurd (List.length_eq_zero_iff.mp (Nat.le_zero.mp hv)) (print_ne_nil v)
  | succ n ih =>
    intro v hv rest hrest
    cases v with
    | null => rfl
    | bool b => cases b <;> rfl
    | num m e => exact value_num n m e hrest
    | str s =>
      rw [print, quote_append, value, skipSpace_of_not rfl]
      simp only [if_pos, string_flatMap_escape, Option.map_some, String.ofList_toList]
    | arr vs => exact value_arr ih hv rest
    | obj ms => exact value_obj ih hv rest

/-- **What is written is read back.** -/
theorem parse_stringify (v : Json) : parse (stringify v) = some v := by
  have hends : Ends [] := trivial
  have hvalue := readsBack _ (v := v) (le_refl _) hends
  rw [List.append_nil] at hvalue
  rw [parse, stringify, String.toList_ofList, hvalue]
  rfl

end Json

end KubemqWorkshop
