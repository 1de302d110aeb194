import Mathlib.Data.List.Basic
import Mathlib.Tactic.IntervalCases

/-!
# Base64: `btoa` and `atob`

The two functions of a browser, on strings whose characters stand for bytes.
`btoa` refuses a string with any other character; `atob` forgives white space
and missing padding and refuses everything else that is no Base64. What `btoa`
makes, `atob` takes back (`atob_btoa`).
-/

namespace KubemqWorkshop

namespace Base64

/-- The digit of a number below 64. -/
def digit (n : ℕ) : Char :=
  if n < 26 then Char.ofNat (65 + n)
  else if n < 52 then Char.ofNat (97 + (n - 26))
  else if n < 62 then Char.ofNat (48 + (n - 52))
  else if n = 62 then '+'
  else '/'

/-- The number of a digit. -/
def value (c : Char) : Option ℕ :=
  if 'A' ≤ c ∧ c ≤ 'Z' then some (c.toNat - 65)
  else if 'a' ≤ c ∧ c ≤ 'z' then some (c.toNat - 97 + 26)
  else if '0' ≤ c ∧ c ≤ '9' then some (c.toNat - 48 + 52)
  else if c = '+' then some 62
  else if c = '/' then some 63
  else none

/-- White space, which `atob` skips. -/
def isSpace (c : Char) : Bool :=
  c == ' ' || c == '\t' || c == '\n' || c == '\r' || c == '\x0c'

/-- Bytes to digits, three to four. -/
def encode : List ℕ → List Char
  | [] => []
  | [a] => [digit (a / 4), digit (a % 4 * 16), '=', '=']
  | [a, b] => [digit (a / 4), digit (a % 4 * 16 + b / 16), digit (b % 16 * 4), '=']
  | a :: b :: c :: bytes =>
    digit (a / 4) :: digit (a % 4 * 16 + b / 16) :: digit (b % 16 * 4 + c / 64) ::
      digit (c % 64) :: encode bytes

/-- Two digits left over: one byte, and the spare bits are dropped. -/
def decodeTwo (p q : Char) : Option (List ℕ) :=
  (value p).bind fun p => (value q).map fun q => [p * 4 + q / 16]

/-- Three digits left over: two bytes. -/
def decodeThree (p q r : Char) : Option (List ℕ) :=
  (value p).bind fun p => (value q).bind fun q => (value r).map fun r =>
    [p * 4 + q / 16, q % 16 * 16 + r / 4]

/-- Digits to bytes, four to three. Padding counts at the very end only. -/
def decode : List Char → Option (List ℕ)
  | [] => some []
  | [_] => none
  | [p, q] => decodeTwo p q
  | [p, q, r] => decodeThree p q r
  | p :: q :: r :: s :: rest =>
    if s = '=' ∧ rest = [] then
      if r = '=' then decodeTwo p q else decodeThree p q r
    else
      (value p).bind fun p => (value q).bind fun q => (value r).bind fun r =>
        (value s).bind fun s => (decode rest).map fun bytes =>
          (p * 4 + q / 16) :: (q % 16 * 16 + r / 4) :: (r % 4 * 64 + s) :: bytes

/-! ## Digits -/

theorem value_digit {n : ℕ} (h : n < 64) : value (digit n) = some n := by
  interval_cases n <;> rfl

theorem digit_ne_pad {n : ℕ} (h : n < 64) : digit n ≠ '=' := by
  interval_cases n <;> decide

theorem isSpace_digit {n : ℕ} (h : n < 64) : isSpace (digit n) = false := by
  interval_cases n <;> rfl

/-! ## The round trip -/

/-- Encoded bytes contain no white space. -/
theorem isSpace_encode {bytes : List ℕ} (h : ∀ b ∈ bytes, b < 256) :
    ∀ c ∈ encode bytes, isSpace c = false := by
  induction bytes using encode.induct with
  | case1 => exact fun c hc => absurd hc List.not_mem_nil
  | case2 a =>
    have ha := h a (by simp)
    simp only [encode, List.forall_mem_cons, List.not_mem_nil, false_imp_iff, implies_true,
      and_true]
    exact ⟨isSpace_digit (by omega), isSpace_digit (by omega), rfl, rfl⟩
  | case3 a b =>
    have ha := h a (by simp)
    have hb := h b (by simp)
    simp only [encode, List.forall_mem_cons, List.not_mem_nil, false_imp_iff, implies_true,
      and_true]
    exact ⟨isSpace_digit (by omega), isSpace_digit (by omega), isSpace_digit (by omega), rfl⟩
  | case4 a b c bytes ih =>
    simp only [List.forall_mem_cons] at h
    obtain ⟨ha, hb, hc, hbytes⟩ := h
    simp only [encode, List.forall_mem_cons]
    exact ⟨isSpace_digit (by omega), isSpace_digit (by omega), isSpace_digit (by omega),
      isSpace_digit (by omega), ih hbytes⟩

/-- **What is encoded is decoded.** -/
theorem decode_encode {bytes : List ℕ} (h : ∀ b ∈ bytes, b < 256) :
    decode (encode bytes) = some bytes := by
  induction bytes using encode.induct with
  | case1 => rfl
  | case2 a =>
    have ha := h a (by simp)
    rw [encode, decode, if_pos ⟨rfl, rfl⟩, if_pos rfl, decodeTwo, value_digit (by omega),
      value_digit (by omega), Option.bind_some, Option.map_some]
    simp only [Option.some.injEq, List.cons.injEq, and_true]
    omega
  | case3 a b =>
    have ha := h a (by simp)
    have hb := h b (by simp)
    rw [encode, decode, if_pos ⟨rfl, rfl⟩, if_neg (digit_ne_pad (by omega)), decodeThree,
      value_digit (by omega), value_digit (by omega), value_digit (by omega), Option.bind_some,
      Option.bind_some, Option.map_some]
    simp only [Option.some.injEq, List.cons.injEq, and_true]
    omega
  | case4 a b c bytes ih =>
    simp only [List.forall_mem_cons] at h
    obtain ⟨ha, hb, hc, hbytes⟩ := h
    have hpad : ¬ (digit (c % 64) = '=' ∧ encode bytes = []) :=
      fun hp => digit_ne_pad (by omega) hp.1
    rw [encode, decode, if_neg hpad, value_digit (by omega), value_digit (by omega),
      value_digit (by omega), value_digit (by omega), ih hbytes]
    simp only [Option.bind_some, Option.map_some, Option.some.injEq, List.cons.injEq, and_true]
    omega

end Base64

/-- Every character stands for a byte. -/
def Bytes (s : String) : Prop := ∀ c ∈ s.toList, c.toNat < 256

instance (s : String) : Decidable (Bytes s) := List.decidableBAll _ _

/-- `btoa`; `none` is the `InvalidCharacterError`. -/
def btoa (s : String) : Option String :=
  if Bytes s then some (String.ofList (Base64.encode (s.toList.map Char.toNat))) else none

/-- `atob`; `none` is the `InvalidCharacterError`. -/
def atob (s : String) : Option String :=
  (Base64.decode (s.toList.filter fun c => !Base64.isSpace c)).map fun bytes =>
    String.ofList (bytes.map Char.ofNat)

/-- **`atob` undoes `btoa`.** -/
theorem atob_btoa {s t : String} (h : btoa s = some t) : atob t = some s := by
  have hs : Bytes s := by
    by_contra hs
    rw [btoa, if_neg hs] at h
    cases h
  rw [btoa, if_pos hs] at h
  obtain rfl := Option.some.inj h
  have hbytes : ∀ b ∈ s.toList.map Char.toNat, b < 256 := by
    intro b hb
    obtain ⟨c, hc, rfl⟩ := List.mem_map.mp hb
    exact hs c hc
  have hstrip : (Base64.encode (s.toList.map Char.toNat)).filter (fun c => !Base64.isSpace c) =
      Base64.encode (s.toList.map Char.toNat) :=
    List.filter_eq_self.mpr fun c hc => by rw [Base64.isSpace_encode hbytes c hc]; rfl
  rw [atob, String.toList_ofList, hstrip, Base64.decode_encode hbytes, Option.map_some,
    List.map_map]
  have hchar : Char.ofNat ∘ Char.toNat = id := funext Char.ofNat_toNat
  rw [hchar, List.map_id, String.ofList_toList]

theorem btoa_isSome_iff {s : String} : (btoa s).isSome ↔ Bytes s := by
  by_cases hs : Bytes s <;> simp [btoa, hs]

end KubemqWorkshop
