import KubemqWorkshop.Decimal
import KubemqWorkshop.Json
import Mathlib.Algebra.Field.Rat
import Mathlib.Data.List.DropRight
import Mathlib.Tactic.NormNum

/-!
# The number pipe (`kubemq-rate-client`)

A price is shown through the pipe `number:'1.1-4'`: with one digit before the point at
least, and one to four after it. The pipe takes the text of the number apart
(`parseNumber`), rounds the digits in place (`roundNumber`: cut, add one where the next
digit is five or more, carry from the right and drop the zeros at the end), and puts
them together again (`formatNumber`).

On the decimals the generator writes this is rounding to the nearest ten-thousandth,
halves up (`formatNumber_decimalText`). JSON, too, reads them as the numbers they are
(`parse_decimalText`).
-/

namespace KubemqWorkshop

/-! ## The pipe -/

/-- What the pipe makes of a number. -/
structure ParsedNumber where
  digits : List ℕ
  exponent : ℕ
  /-- how many of the digits stand before the point; negative for zeros after it -/
  integerLen : ℤ
  deriving DecidableEq, Repr

/-- The digits of a text without an exponent. -/
def parseNumber (text : String) : ParsedNumber :=
  let s := text.toList.erase '.'
  -- where the point was, or the end
  let point := text.toList.idxOf '.'
  let zeros := (s.takeWhile (· == '0')).length
  if zeros = s.length then ⟨[0], 0, 1⟩
  else
    let digits := ((s.drop zeros).rdropWhile (· == '0')).map fun c => c.toNat - 48
    let integerLen : ℤ := point - zeros
    if 22 < integerLen then ⟨digits.take 21, (integerLen - 1).toNat, 1⟩
    else ⟨digits, 0, integerLen⟩

/-- The digits from the right: a carry is added, and a zero is dropped as long as there
were only zeros and more than `minLen` digits are left. The digits come and go with the
last one first. -/
def carryDigits (minLen : ℤ) : List ℕ → ℕ → Bool → List ℕ × ℕ
  | [], carry, _ => ([], carry)
  | t :: rest, carry, dropTrailingZeros =>
    let sum := t + carry
    let digit := if sum < 10 then sum else sum - 10
    let drop := dropTrailingZeros && digit == 0 && minLen ≤ rest.length
    let result := carryDigits minLen rest (if 10 ≤ sum then 1 else 0) drop
    (if drop then result.1 else digit :: result.1, result.2)

/-- `roundNumber`. -/
def roundNumber (minFrac maxFrac : ℕ) (p : ParsedNumber) : ParsedNumber :=
  let fractionLen : ℤ := p.digits.length - p.integerLen
  let fractionSize : ℤ := min (max minFrac fractionLen) maxFrac
  let roundAt := fractionSize + p.integerLen
  let digit := if 0 ≤ roundAt then p.digits[roundAt.toNat]? else none
  -- what is left of the digits, how many are after the point, how many before it,
  -- and how many there should be
  let (digits, fractionLen, integerLen, roundAt) :=
    if 0 < roundAt then
      let digits := p.digits.take (max p.integerLen roundAt).toNat
      (digits.take roundAt.toNat ++ List.replicate (digits.length - roundAt.toNat) 0,
        fractionLen, p.integerLen, roundAt)
    else
      (List.replicate (fractionSize + 1).toNat 0, max 0 fractionLen, 1, fractionSize + 1)
  let digits := if digit.any (5 ≤ ·) then digits.modify (roundAt.toNat - 1) (· + 1) else digits
  let digits := digits ++ List.replicate (fractionSize - fractionLen).toNat 0
  let (digits, carry) := carryDigits (minFrac + integerLen) digits.reverse 0 (fractionSize != 0)
  if carry = 0 then ⟨digits.reverse, p.exponent, integerLen⟩
  else ⟨carry :: digits.reverse, p.exponent, integerLen + 1⟩

/-- Digits in groups of three, from the right. The digits come with the last one first. -/
def groupDigits : List ℕ → List (List ℕ)
  | [] => []
  | a :: b :: c :: rest => groupDigits rest ++ [[c, b, a]]
  | rest => [rest.reverse]

/-- Digits as a text. -/
def joinDigits (ds : List ℕ) : String := String.ofList (ds.map Nat.digitChar)

/-- `formatNumber` with the digit info `1.1-4` and the format of the locale `en-US`, for
a number that is not negative. -/
def formatNumber (text : String) : String :=
  let p := roundNumber 1 4 (parseNumber text)
  let digits := List.replicate (1 - p.integerLen).toNat 0 ++ p.digits
  let integerLen := (max p.integerLen 1).toNat
  let decimals := digits.drop integerLen
  String.intercalate "," ((groupDigits (digits.take integerLen).reverse).map joinDigits) ++
    (if decimals = [] then "" else "." ++ joinDigits decimals) ++
    (if p.exponent = 0 then "" else "E+" ++ toString p.exponent)

/-- `transform`: `none` when it throws. A value that is missing, `null` or the empty text
is shown as nothing; `numberText` is the text of the number a value is read as, if it is. -/
def transform (numberText : Json → Option String) : Option Json → Option (Option String)
  | none => some none
  | some .null => some none
  | some (.str "") => some none
  | some value => (numberText value).map fun text => some (formatNumber text)

/-! ## Reading a decimal -/

/-- The text of the number that a text is read as, where the two are one: `none` when the
text is no number of JSON. -/
def readText : Json → Option String
  | .str t =>
    match Json.parse t with
    | some (.num _ _) => some t
    | _ => none
  | _ => none

/-- Digits read after a number. -/
theorem ofDigitChars_digitChar {ds : List ℕ} (hds : ∀ d ∈ ds, d < 10) (m : ℕ) :
    Nat.ofDigitChars 10 (ds.map Nat.digitChar) m = m * 10 ^ ds.length + digitsValue ds := by
  induction ds generalizing m with
  | nil => simp
  | cons d ds ih =>
    obtain ⟨hd, hds⟩ := List.forall_mem_cons.mp hds
    rw [List.map_cons, Nat.ofDigitChars_cons_digitChar_of_lt_ten hd, ih hds, digitsValue_cons,
      List.length_cons]
    ring

/-- The text of a decimal is read as a number without a sign. -/
theorem unsigned_decimal (i : ℕ) {ds : List ℕ} (hds : ∀ d ∈ ds, d < 10) :
    Json.unsigned (Nat.toDigits 10 i ++ if ds = [] then [] else '.' :: ds.map Nat.digitChar) =
      some ((((i * 10 ^ ds.length + digitsValue ds : ℕ) : ℤ), -(ds.length : ℤ)), []) := by
  split
  · rename_i hnil
    have hends : Json.Ends [] := trivial
    have htext := Json.unsigned_toDigits i 0 hends
    rw [Json.exponentText, if_pos rfl, List.append_nil] at htext
    rw [htext, hnil]
    simp
  · rename_i hne
    have hisDigit : ∀ c ∈ ds.map Nat.digitChar, c.isDigit = true := by
      intro c hc
      obtain ⟨d, hd, rfl⟩ := List.mem_map.mp hc
      rw [Nat.isDigit_digitChar]
      exact decide_eq_true (hds d hd)
    rw [Json.unsigned_point i (fun h => hne (List.map_eq_nil_iff.mp h)) hisDigit, Json.ofDigits,
      Nat.ofDigitChars_append, Nat.ofDigitChars_ten_toDigits, ofDigitChars_digitChar hds,
      List.length_map]

/-- **A decimal text is a number** of JSON, the one it is the text of. -/
theorem parse_decimalText (n s : ℕ) :
    ∃ m e : ℤ, Json.parse (decimalText n s) = some (.num m e) ∧
      (m : ℚ) * 10 ^ e = s / 10 ^ n := by
  have hmod : s % 10 ^ n < 10 ^ n := Nat.mod_lt _ (Nat.pow_pos (by decide))
  have hunsigned := unsigned_decimal (s / 10 ^ n) (fractionDigits_lt_ten hmod)
  have htext : (decimalText n s).toList = Nat.toDigits 10 (s / 10 ^ n) ++
      if fractionDigits n (s % 10 ^ n) = [] then []
      else '.' :: (fractionDigits n (s % 10 ^ n)).map Nat.digitChar := by
    simp only [decimalText, String.toList_ofList, fractionDigits_eq_nil_iff hmod]
  rw [← htext] at hunsigned
  obtain ⟨c, cs, hcs, hc⟩ : ∃ c cs, (decimalText n s).toList = c :: cs ∧ c.isDigit = true := by
    obtain ⟨c, cs, hcs, hc⟩ := Json.toDigits_eq_cons (s / 10 ^ n)
    exact ⟨c, _, by rw [htext, hcs, List.cons_append], hc⟩
  rw [hcs] at hunsigned
  refine ⟨_, _, by rw [Json.parse, hcs, List.length_cons, Json.value_of_isDigit _ hc, hunsigned];
                   rfl, ?_⟩
  -- as many zeros behind the digits as places are left make it the whole number
  have hlen := length_fractionDigits_le n (s % 10 ^ n)
  have hvalue := digitsValue_fractionDigits hmod
  generalize fractionDigits n (s % 10 ^ n) = ds at hlen hvalue ⊢
  have hpow : 10 ^ n = 10 ^ ds.length * 10 ^ (n - ds.length) := by
    rw [← pow_add, Nat.add_sub_cancel' hlen]
  have hwhole : (s / 10 ^ n * 10 ^ ds.length + digitsValue ds) * 10 ^ (n - ds.length) = s := by
    rw [Nat.add_mul, Nat.mul_assoc, ← hpow, hvalue, Nat.mul_comm]
    exact Nat.div_add_mod s (10 ^ n)
  generalize s / 10 ^ n * 10 ^ ds.length + digitsValue ds = m at hwhole ⊢
  have hzeros : (10 : ℚ) ^ (n - ds.length) ≠ 0 := pow_ne_zero _ (by norm_num)
  calc (((m : ℕ) : ℤ) : ℚ) * 10 ^ (-(ds.length : ℤ))
      = m / 10 ^ ds.length := by
        rw [Int.cast_natCast, zpow_neg, zpow_natCast, div_eq_mul_inv]
    _ = (m * 10 ^ (n - ds.length)) / (10 ^ ds.length * 10 ^ (n - ds.length)) :=
        (mul_div_mul_right _ _ hzeros).symm
    _ = s / 10 ^ n := by
        rw [← hwhole, ← pow_add, Nat.add_sub_cancel' hlen, Nat.cast_mul, Nat.cast_pow]
        rfl

theorem digitChar_ne {d : ℕ} (hd : d < 10) {c : Char} (hc : c.toNat ≠ 48 + d) :
    Nat.digitChar d ≠ c := by
  rintro rfl
  exact hc (Nat.toNat_digitChar_of_lt_ten hd)

/-- The digits of a decimal with one digit before the point. -/
theorem parseNumber_decimalText {n s : ℕ} (hlow : 0 < s / 10 ^ n) (hhigh : s / 10 ^ n < 10) :
    parseNumber (decimalText n s) =
      ⟨s / 10 ^ n :: fractionDigits n (s % 10 ^ n), 0, 1⟩ := by
  have hmod : s % 10 ^ n < 10 ^ n := Nat.mod_lt _ (Nat.pow_pos (by decide))
  have hfraction := fractionDigits_lt_ten hmod
  generalize hd : s / 10 ^ n = d at hlow hhigh
  generalize hds : fractionDigits n (s % 10 ^ n) = ds at hfraction
  have hpoint : Nat.digitChar d ≠ '.' := digitChar_ne hhigh (by simp; omega)
  -- the text without the point, and where the point was
  have htext : (decimalText n s).toList.erase '.' = (d :: ds).map Nat.digitChar ∧
      (decimalText n s).toList.idxOf '.' = 1 := by
    rw [decimalText, String.toList_ofList, hd, Nat.toDigits_of_lt_base hhigh, hds]
    split
    · rename_i hzero
      have hnil : ds = [] := by rw [← hds, fractionDigits_eq_nil_iff hmod, hzero]
      simp [hnil, hpoint]
    · simp [hpoint]
  have hzero : Nat.digitChar d ≠ '0' := digitChar_ne hhigh (by simp; omega)
  have hzeros : ((d :: ds).map Nat.digitChar).takeWhile (· == '0') = [] := by
    simp [hzero]
  have hends : ∀ x ∈ (d :: ds).getLast?, x ≠ 0 := by
    rcases ds with - | ⟨d', ds⟩
    · simpa using hlow.ne'
    · rw [List.getLast?_cons_cons, ← hds]
      exact getLast?_fractionDigits hmod
  have hdigits : ∀ x ∈ d :: ds, x < 10 := List.forall_mem_cons.mpr ⟨hhigh, hfraction⟩
  have hlast : ((d :: ds).map Nat.digitChar).rdropWhile (· == '0') =
      (d :: ds).map Nat.digitChar := by
    rw [List.rdropWhile_eq_self_iff]
    intro hne
    rw [List.getLast_map]
    have hmem := List.getLast?_eq_getLast_of_ne_nil (List.cons_ne_nil d ds)
    have hx := hends _ hmem
    have hlt := hdigits _ (List.getLast_mem (List.cons_ne_nil d ds))
    simp [digitChar_ne hlt (c := '0') (by simp; omega)]
  have hback : ((d :: ds).map Nat.digitChar).map (fun c => c.toNat - 48) = d :: ds := by
    rw [List.map_map]
    refine (List.map_congr_left fun x hx => ?_).trans (List.map_id _)
    simp [Nat.toNat_digitChar_of_lt_ten (hdigits x hx)]
  simp only [parseNumber, htext.1, htext.2, hzeros, List.length_nil, List.drop_zero, hlast, hback]
  simp

/-! ## Rounding in place -/

/-- Adding to the last digit is carrying into it. -/
theorem carryDigits_succ (minLen : ℤ) (t : ℕ) (rest : List ℕ) (c : Bool) :
    carryDigits minLen ((t + 1) :: rest) 0 c = carryDigits minLen (t :: rest) 1 c := rfl

/-- **The carry**: the digits that are left stand for the number and the carry, and end with
a zero only when there are no more than `minLen`. -/
theorem carryDigits_spec (minLen : ℕ) {ds : List ℕ} (hds : ∀ d ∈ ds, d < 10) {carry : ℕ}
    (hcarry : carry ≤ 1) (c : Bool) {out : List ℕ} {f : ℕ}
    (h : carryDigits minLen ds carry c = (out, f)) :
    Nat.ofDigits 10 ds + carry =
        10 ^ (ds.length - out.length) * (Nat.ofDigits 10 out + f * 10 ^ out.length) ∧
      out.length ≤ ds.length ∧ (∀ d ∈ out, d < 10) ∧ min ds.length minLen ≤ out.length ∧
      (if c then out.length ≤ minLen ∨ ∀ d ∈ out.head?, d ≠ 0 else out.length = ds.length) := by
  induction ds generalizing carry c out f with
  | nil =>
    obtain ⟨rfl, rfl⟩ := Prod.mk.inj h
    cases c <;> simp
  | cons t rest ih =>
    obtain ⟨ht, hrest⟩ := List.forall_mem_cons.mp hds
    simp only [carryDigits] at h
    generalize hdigit : (if t + carry < 10 then t + carry else t + carry - 10) = digit at h
    generalize hnext : (if 10 ≤ t + carry then 1 else 0) = next at h
    -- one digit and the carry are the digit that stays and the carry that goes on
    have hsum : t + carry = digit + 10 * next ∧ digit < 10 ∧ next ≤ 1 := by
      rw [← hdigit, ← hnext]
      split <;> split <;> omega
    generalize hdrop : (c && digit == 0 && decide ((minLen : ℤ) ≤ rest.length)) = drop at h
    rcases hrec : carryDigits minLen rest next drop with ⟨out', f'⟩
    rw [hrec] at h
    obtain ⟨hvalue, hlen, hlt, hmin, hlast⟩ := ih hrest hsum.2.2 drop hrec
    rw [Nat.ofDigits_cons, List.length_cons]
    cases drop with
    | true =>
      obtain ⟨rfl, rfl⟩ : out' = out ∧ f' = f := Prod.mk.inj h
      simp only [Bool.and_eq_true, beq_iff_eq, decide_eq_true_eq, Nat.cast_le] at hdrop
      obtain ⟨⟨rfl, hzero⟩, hmore⟩ := hdrop
      refine ⟨?_, hlen.trans (Nat.le_succ _), hlt, by omega, hlast⟩
      calc t + 10 * Nat.ofDigits 10 rest + carry
          = 10 * (Nat.ofDigits 10 rest + next) := by omega
        _ = _ := by rw [hvalue, Nat.succ_sub hlen, pow_succ, ← Nat.mul_assoc, Nat.mul_comm 10]
    | false =>
      obtain ⟨rfl, rfl⟩ : digit :: out' = out ∧ f' = f := Prod.mk.inj h
      have hsame : out'.length = rest.length := hlast
      refine ⟨?_, by simp [hsame], List.forall_mem_cons.mpr ⟨hsum.2.1, hlt⟩, by simp; omega, ?_⟩
      · rw [hsame, Nat.sub_self, pow_zero, one_mul] at hvalue
        calc t + 10 * Nat.ofDigits 10 rest + carry
            = digit + 10 * (Nat.ofDigits 10 rest + next) := by omega
          _ = _ := by
            rw [hvalue, List.length_cons, hsame, Nat.sub_self, Nat.ofDigits_cons, pow_succ]
            ring
      · cases c with
        | false => exact congrArg (· + 1) hsame
        | true =>
          simp only [Bool.true_and, Bool.and_eq_false_iff, beq_eq_false_iff_ne,
            decide_eq_false_iff_not, not_le, Nat.cast_lt] at hdrop
          rcases hdrop with hne | hfew
          · refine .inr fun d hd => ?_
            obtain rfl := Option.some.inj hd
            exact hne
          · refine .inl ?_
            rw [List.length_cons, hsame]
            exact hfew

/-- The digits after the point that are kept: four, or a zero when there are none. -/
def keptDigits (ds : List ℕ) : List ℕ := if ds = [] then [0] else ds.take 4

/-- What the first digit that is not kept adds to the last that is. -/
def roundUp (ds : List ℕ) : ℕ := if ds[4]?.any (5 ≤ ·) then 1 else 0

theorem keptDigits_spec {ds : List ℕ} (hds : ∀ d ∈ ds, d < 10) :
    (∀ d ∈ keptDigits ds, d < 10) ∧ 1 ≤ (keptDigits ds).length ∧ (keptDigits ds).length ≤ 4 := by
  rw [keptDigits]
  split
  · simp
  · rename_i hne
    have hlen := List.length_pos_of_ne_nil hne
    rw [List.length_take]
    exact ⟨fun d hd => hds d (List.mem_of_mem_take hd), by omega, by omega⟩

theorem roundUp_le_one (ds : List ℕ) : roundUp ds ≤ 1 := by
  rw [roundUp]
  split <;> decide

theorem roundNumber_eq (d : ℕ) (ds : List ℕ) :
    roundNumber 1 4 ⟨d :: ds, 0, 1⟩ =
      let (digits, carry) := carryDigits 2 (d :: keptDigits ds).reverse (roundUp ds) true
      if carry = 0 then ⟨digits.reverse, 0, 1⟩ else ⟨carry :: digits.reverse, 0, 2⟩ := by
  match ds with
  | [] => simp [roundNumber, keptDigits, roundUp]
  | [a] => simp [roundNumber, keptDigits, roundUp]
  | [a, b] => simp [roundNumber, keptDigits, roundUp]
  | [a, b, c] => simp [roundNumber, keptDigits, roundUp]
  | [a, b, c, e] => simp [roundNumber, keptDigits, roundUp]
  | a :: b :: c :: e :: g :: rest =>
    have hsize : min (max ((1 : ℕ) : ℤ) (((d :: a :: b :: c :: e :: g :: rest).length : ℤ) - 1))
        ((4 : ℕ) : ℤ) = 4 := by
      simp only [List.length_cons, Nat.cast_add]
      omega
    have hpad : (4 - ((rest.length : ℤ) + 1 + 1 + 1 + 1 + 1)).toNat = 0 := by omega
    simp only [roundNumber, hsize]
    by_cases hg : 5 ≤ g <;> simp [keptDigits, roundUp, hg, hpad, carryDigits_succ]

/-- The digits that are kept, with the carry, are those that are shown, when there is no digit
more before the point. -/
theorem carryDigits_kept {ds : List ℕ} (hds : ∀ d ∈ ds, d < 10) (htwo : 2 ≤ ds.length) {carry : ℕ}
    (hcarry : carry ≤ 1) (hlt : digitsValue ds + carry < 10 ^ ds.length) :
    ∃ shown : List ℕ, carryDigits 2 ds.reverse carry true = (shown.reverse, 0) ∧
      10 ^ (ds.length - shown.length) * digitsValue shown = digitsValue ds + carry ∧
      2 ≤ shown.length ∧ shown.length ≤ ds.length ∧ (∀ d ∈ shown, d < 10) ∧
      (shown.length = 2 ∨ ∀ d ∈ shown.getLast?, d ≠ 0) := by
  rcases hout : carryDigits 2 ds.reverse carry true with ⟨out, f⟩
  obtain ⟨hvalue, hle, hout', hmin, hends⟩ := carryDigits_spec 2
    (fun d hd => hds d (List.mem_reverse.mp hd)) hcarry true hout
  rw [List.length_reverse] at hvalue hle hmin
  rw [Nat.min_eq_right htwo] at hmin
  -- a carry out of the first digit would make the number too large
  have hf : f = 0 := by
    rcases Nat.eq_zero_or_pos f with hf | hf
    · exact hf
    · have hpow : 10 ^ ds.length = 10 ^ (ds.length - out.length) * 10 ^ out.length := by
        rw [← pow_add, Nat.sub_add_cancel hle]
      have hlarge : 10 ^ ds.length ≤ digitsValue ds + carry := by
        rw [digitsValue, hvalue, hpow]
        exact Nat.mul_le_mul_left _ (Nat.le_add_left_of_le (Nat.le_mul_of_pos_left _ hf))
      exact absurd hlt hlarge.not_gt
  refine ⟨out.reverse, by rw [List.reverse_reverse, hf], ?_, by simpa using hmin,
    by simpa using hle, fun d hd => hout' d (List.mem_reverse.mp hd), ?_⟩
  · rw [hf, Nat.zero_mul, Nat.add_zero] at hvalue
    rw [List.length_reverse, digitsValue, List.reverse_reverse, ← hvalue, digitsValue]
  · rw [List.length_reverse, List.getLast?_reverse]
    exact hends.imp (fun h => Nat.le_antisymm h hmin) id

/-- So under 9 there is still one digit before the point. -/
theorem carryDigits_under_nine {d : ℕ} (hd : d < 9) {ds : List ℕ} (hds : ∀ d ∈ ds, d < 10)
    (hone : 1 ≤ ds.length) {carry : ℕ} (hcarry : carry ≤ 1) :
    ∃ (w : ℕ) (ws : List ℕ), carryDigits 2 (d :: ds).reverse carry true = ((w :: ws).reverse, 0) ∧
      10 ^ (ds.length - ws.length) * digitsValue (w :: ws) = digitsValue (d :: ds) + carry ∧
      1 ≤ ws.length ∧ ws.length ≤ ds.length ∧ w < 10 ∧ (∀ d ∈ ws, d < 10) ∧
      (ws.length = 1 ∨ ∀ d ∈ ws.getLast?, d ≠ 0) := by
  have hlt : digitsValue (d :: ds) + carry < 10 ^ (d :: ds).length := by
    have hrest := digitsValue_lt hds
    have hmul := Nat.mul_le_mul_right (10 ^ ds.length) (Nat.le_of_lt_succ hd)
    rw [digitsValue_cons, List.length_cons, pow_succ]
    omega
  obtain ⟨shown, hout, hvalue, htwo, hle, hshown, hends⟩ := carryDigits_kept
    (List.forall_mem_cons.mpr ⟨hd.trans (by decide), hds⟩) (Nat.succ_le_succ hone) hcarry hlt
  rcases shown with - | ⟨w, - | ⟨w', ws⟩⟩
  · cases htwo
  · simp at htwo
  · obtain ⟨hw, hws⟩ := List.forall_mem_cons.mp hshown
    rw [List.getLast?_cons_cons] at hends
    have hsub : (d :: ds).length - (w :: w' :: ws).length = ds.length - (w' :: ws).length :=
      Nat.add_sub_add_right ..
    rw [hsub] at hvalue
    exact ⟨w, w' :: ws, hout, hvalue, Nat.le_of_succ_le_succ htwo, Nat.le_of_succ_le_succ hle,
      hw, hws, hends.imp_left Nat.succ.inj⟩

/-! ## The number that is shown -/

/-- The ten-thousandths nearest to `s / 10 ^ n`; of two, the upper one. -/
def nearest (n s : ℕ) : ℕ := (2 * 10 ^ 4 * s + 10 ^ n) / (2 * 10 ^ n)

/-- A number of ten-thousandths, with one digit after the point at least. -/
def placesText (r : ℕ) : String := decimalText 4 r ++ if r % 10 ^ 4 = 0 then ".0" else ""

/-- The fifth digit decides what is nearest. -/
theorem nearest_of_fifth {m d a g r : ℕ} (hg : g < 10) (hr : r < 10 ^ m) :
    nearest (m + 5) (10 ^ (m + 5) * d + (10 ^ m * (10 * a + g) + r)) =
      d * 10 ^ 4 + a + if 5 ≤ g then 1 else 0 := by
  have hpow : 10 ^ (m + 5) = 100000 * 10 ^ m := by ring
  rw [nearest, hpow]
  generalize 10 ^ m = q at *
  split
  · have hmul : q * 5 ≤ q * g := Nat.mul_le_mul_left q ‹_›
    have hmul' : q * g ≤ q * 9 := Nat.mul_le_mul_left q (by omega)
    exact Nat.div_eq_of_lt_le (by linarith) (by linarith)
  · have hmul : q * g ≤ q * 4 := Nat.mul_le_mul_left q (by omega)
    have hmul' : 0 ≤ q * g := Nat.zero_le _
    exact Nat.div_eq_of_lt_le (by linarith) (by linarith)

/-- With four digits after the point, or fewer, nothing is rounded. -/
theorem nearest_of_exact {n l d v : ℕ} (hln : l ≤ n) (hl : l ≤ 4) :
    nearest n (10 ^ n * d + v * 10 ^ (n - l)) = 10 ^ 4 * d + 10 ^ (4 - l) * v := by
  have hpos : 0 < 10 ^ n := Nat.pow_pos (by decide)
  have hpow : 10 ^ 4 * 10 ^ (n - l) = 10 ^ (4 - l) * 10 ^ n := by
    rw [← pow_add, ← pow_add]
    congr 1
    omega
  have hsum : 2 * 10 ^ 4 * (10 ^ n * d + v * 10 ^ (n - l)) + 10 ^ n =
      2 * 10 ^ n * (10 ^ 4 * d + 10 ^ (4 - l) * v) + 10 ^ n := by
    have hv := congrArg (2 * v * ·) hpow
    linarith
  rw [nearest, hsum, Nat.mul_add_div (by omega), Nat.div_eq_of_lt (by omega), Nat.add_zero]

/-- The digits that are kept, with what is added to them, are the nearest number. -/
theorem nearest_eq (n s : ℕ) :
    10 ^ (4 - (keptDigits (fractionDigits n (s % 10 ^ n))).length) *
        (digitsValue (s / 10 ^ n :: keptDigits (fractionDigits n (s % 10 ^ n))) +
          roundUp (fractionDigits n (s % 10 ^ n))) = nearest n s := by
  have hmod : s % 10 ^ n < 10 ^ n := Nat.mod_lt _ (Nat.pow_pos (by decide))
  have hdigits := fractionDigits_lt_ten hmod
  have hexact := digitsValue_fractionDigits hmod
  have hlen := length_fractionDigits_le n (s % 10 ^ n)
  have htake := fun k => digitsValue_take (k := k) hmod
  conv_rhs => rw [← Nat.div_add_mod s (10 ^ n)]
  generalize s / 10 ^ n = d
  generalize s % 10 ^ n = f at *
  generalize fractionDigits n f = ds at *
  rcases Nat.lt_or_ge 4 ds.length with hlong | hshort
  · obtain ⟨m, rfl⟩ : ∃ m, n = m + 5 := ⟨n - 5, by omega⟩
    have hfive := htake 5 hlong
    rw [List.take_add_one, List.getElem?_eq_getElem hlong, Option.toList_some,
      digitsValue_concat] at hfive
    have hup : roundUp ds = if 5 ≤ ds[4] then 1 else 0 := by
      rw [roundUp, List.getElem?_eq_getElem hlong]
      simp
    have hkept : keptDigits ds = ds.take 4 := by
      rw [keptDigits, if_neg (List.ne_nil_of_length_pos (by omega))]
    have hfour : (ds.take 4).length = 4 := by
      rw [List.length_take]
      omega
    have hf : f = 10 ^ m * (10 * digitsValue (ds.take 4) + ds[4]) + f % 10 ^ m := by
      rw [hfive]
      exact (Nat.div_add_mod f (10 ^ m)).symm
    rw [hf, nearest_of_fifth (hdigits _ (List.getElem_mem hlong))
      (Nat.mod_lt _ (Nat.pow_pos (by decide))), hkept, hup, hfour,
      digitsValue_cons, hfour]
    exact one_mul _
  · have hup : roundUp ds = 0 := by
      rw [roundUp, List.getElem?_eq_none hshort]
      rfl
    rw [hup, Nat.add_zero, ← hexact, nearest_of_exact hlen hshort]
    rcases ds with - | ⟨d', ds⟩
    · simp [keptDigits, digitsValue_cons]
      ring
    · rw [keptDigits, if_neg (List.cons_ne_nil _ _), List.take_of_length_le hshort,
        digitsValue_cons, Nat.mul_add, Nat.mul_left_comm, ← pow_add, Nat.sub_add_cancel hshort,
        Nat.mul_comm d]

theorem placesText_eq {w : ℕ} (hw : w < 10) {ws : List ℕ} (hws : ∀ d ∈ ws, d < 10)
    (hone : 1 ≤ ws.length) (hfour : ws.length ≤ 4)
    (hends : ws.length = 1 ∨ ∀ d ∈ ws.getLast?, d ≠ 0) :
    placesText (10 ^ (4 - ws.length) * digitsValue (w :: ws)) =
      String.ofList (Nat.digitChar w :: '.' :: ws.map Nat.digitChar) := by
  have hpow : 10 ^ 4 = 10 ^ ws.length * 10 ^ (4 - ws.length) := by
    rw [← pow_add, Nat.add_sub_cancel' hfour]
  have hlt : digitsValue ws * 10 ^ (4 - ws.length) < 10 ^ 4 := by
    rw [hpow]
    exact Nat.mul_lt_mul_of_pos_right (digitsValue_lt hws) (Nat.pow_pos (by decide))
  have hvalue : 10 ^ (4 - ws.length) * digitsValue (w :: ws) =
      digitsValue ws * 10 ^ (4 - ws.length) + w * 10 ^ 4 := by
    rw [digitsValue_cons, hpow]
    ring
  have hpos : 0 < 10 ^ 4 := by decide
  rw [hvalue, placesText, decimalText, Nat.add_mul_div_right _ _ hpos, Nat.div_eq_of_lt hlt,
    Nat.zero_add, Nat.add_mul_mod_self_right, Nat.mod_eq_of_lt hlt, Nat.toDigits_of_lt_base hw]
  by_cases hzero : ∀ d ∈ ws.getLast?, d ≠ 0
  · have hne : digitsValue ws * 10 ^ (4 - ws.length) ≠ 0 :=
      (Nat.mul_pos (digitsValue_pos (List.ne_nil_of_length_pos hone) hzero)
        (Nat.pow_pos (by decide))).ne'
    rw [if_neg hne, if_neg hne, fractionDigits_digitsValue hws hzero hfour]
    simp
  · -- the one digit after the point is a zero
    obtain ⟨d, rfl⟩ := List.length_eq_one_iff.mp (hends.resolve_right hzero)
    obtain rfl : d = 0 := by simpa using hzero
    simp [digitsValue_cons]
    rfl

theorem formatNumber_eq {text : String} {w : ℕ} {ws : List ℕ} (hws : ws ≠ [])
    (h : roundNumber 1 4 (parseNumber text) = ⟨w :: ws, 0, 1⟩) :
    formatNumber text = String.ofList (Nat.digitChar w :: '.' :: ws.map Nat.digitChar) := by
  simp [formatNumber, h, hws, groupDigits, joinDigits]

/-- **Rounding**: a number with one digit before the point is shown as the nearest
ten-thousandth. -/
theorem formatNumber_decimalText {n s : ℕ} (hlow : 10 ^ n ≤ s) (hhigh : s < 9 * 10 ^ n) :
    formatNumber (decimalText n s) = placesText (nearest n s) := by
  have hpos : 0 < 10 ^ n := Nat.pow_pos (by decide)
  have hfraction := fractionDigits_lt_ten (Nat.mod_lt s hpos)
  have hfirst : 0 < s / 10 ^ n := Nat.div_pos hlow hpos
  have hnine : s / 10 ^ n < 9 := Nat.div_lt_iff_lt_mul hpos |>.mpr hhigh
  have hparse := parseNumber_decimalText hfirst (hnine.trans (by decide))
  have hnearest := nearest_eq n s
  generalize s / 10 ^ n = d at *
  generalize fractionDigits n (s % 10 ^ n) = ds at *
  obtain ⟨hkept, hone, hfour⟩ := keptDigits_spec hfraction
  obtain ⟨w, ws, hcarry, hvalue, hone', hle, hw, hws, hends⟩ :=
    carryDigits_under_nine hnine hkept hone (roundUp_le_one ds)
  have hround : roundNumber 1 4 (parseNumber (decimalText n s)) = ⟨w :: ws, 0, 1⟩ := by
    rw [hparse, roundNumber_eq, hcarry]
    simp
  have hplaces : 10 ^ (4 - ws.length) * digitsValue (w :: ws) = nearest n s := by
    rw [← hvalue, ← Nat.mul_assoc, ← pow_add, Nat.sub_add_sub_cancel hfour hle] at hnearest
    exact hnearest
  rw [formatNumber_eq (List.ne_nil_of_length_pos hone') hround, ← hplaces,
    placesText_eq hw hws hone' (hle.trans hfour) hends]

example : formatNumber "1.04258" = "1.0426" := by decide
example : formatNumber "1.99996" = "2.0" := by decide

theorem transform_str (numberText : Json → Option String) {t : String} (ht : t ≠ "") :
    transform numberText (some (.str t)) =
      (numberText (.str t)).map fun text => some (formatNumber text) := by
  rw [transform]
  · nofun
  · rintro ⟨⟩
    exact ht rfl

end KubemqWorkshop
