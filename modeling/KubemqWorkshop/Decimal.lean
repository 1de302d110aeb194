import Mathlib.Data.List.Basic
import Mathlib.Data.Nat.Digits.Defs
import Mathlib.Order.Monotone.Basic
import Mathlib.Tactic.Linarith
import Mathlib.Tactic.Ring

/-!
# Decimal texts and their order

A number of `n` places, `s / 10 ^ n`, as a text: the digits before the point, and
after it as many as there are without zeros at the end (`decimalText`). Texts are
compared by their UTF-16 code units, first unit first (`codeUnits`). With one digit
before the point the order of the texts is that of the numbers
(`decimalText_lt_iff`), as a text that goes on comes after the one that has ended.
Digits without a zero at the end are those of the number they stand for
(`fractionDigits_digitsValue`).
-/

namespace KubemqWorkshop

/-- The UTF-16 code units of a text. -/
def codeUnits (s : String) : List ℕ :=
  s.toList.flatMap fun c =>
    if c.toNat < 0x10000 then [c.toNat]
    else [0xD800 + (c.toNat - 0x10000) / 0x400, 0xDC00 + (c.toNat - 0x10000) % 0x400]

/-- The first `n` digits after the point of `s / 10 ^ n`, for `s` under `10 ^ n`, up to
the last that is not zero. -/
def fractionDigits : ℕ → ℕ → List ℕ
  | 0, _ => []
  | n + 1, s => if s = 0 then [] else s / 10 ^ n :: fractionDigits n (s % 10 ^ n)

/-- The number `s / 10 ^ n`. -/
def decimalText (n s : ℕ) : String :=
  String.ofList (Nat.toDigits 10 (s / 10 ^ n) ++
    if s % 10 ^ n = 0 then [] else '.' :: (fractionDigits n (s % 10 ^ n)).map Nat.digitChar)

/-! ## The order of digits -/

/-- Numbers are compared by quotient, then by remainder. -/
theorem lt_iff_div_mod {b s t : ℕ} (hb : 0 < b) :
    s < t ↔ s / b < t / b ∨ s / b = t / b ∧ s % b < t % b := by
  have hs := Nat.div_add_mod s b
  have ht := Nat.div_add_mod t b
  have hs' := Nat.mod_lt s hb
  have ht' := Nat.mod_lt t hb
  refine ⟨fun h => ?_, ?_⟩
  · rcases Nat.lt_or_ge (s / b) (t / b) with hlt | hge
    · exact .inl hlt
    · have hle : s / b ≤ t / b := Nat.div_le_div_right h.le
      have heq : s / b = t / b := Nat.le_antisymm hle hge
      rw [heq] at hs
      exact .inr ⟨heq, by omega⟩
  · rintro (hlt | ⟨heq, hlt⟩)
    · have hmul := Nat.mul_le_mul_left b hlt
      rw [Nat.mul_succ] at hmul
      omega
    · rw [heq] at hs
      omega

/-- The digits after the point are in the order of the numbers. -/
theorem fractionDigits_lt_iff {f : ℕ → ℕ} (hf : StrictMono f) {n s t : ℕ} (hs : s < 10 ^ n)
    (ht : t < 10 ^ n) :
    (fractionDigits n s).map f < (fractionDigits n t).map f ↔ s < t := by
  induction n generalizing s t with
  | zero =>
    have h : ¬ ([] : List ℕ) < [] := List.not_lt_nil _
    simp only [fractionDigits, List.map_nil, h, false_iff]
    omega
  | succ n ih =>
    have hpos : 0 < 10 ^ n := Nat.pow_pos (by decide)
    rcases Nat.eq_zero_or_pos s with rfl | hs₀
    · rcases Nat.eq_zero_or_pos t with rfl | ht₀
      · simp [fractionDigits]
      · simp [fractionDigits, ht₀, ht₀.ne']
    · rcases Nat.eq_zero_or_pos t with rfl | ht₀
      · simp [fractionDigits]
      · rw [fractionDigits, if_neg hs₀.ne', fractionDigits, if_neg ht₀.ne', List.map_cons,
          List.map_cons, List.cons_lt_cons_iff, hf.lt_iff_lt, hf.injective.eq_iff,
          ih (Nat.mod_lt _ hpos) (Nat.mod_lt _ hpos)]
        exact (lt_iff_div_mod hpos).symm

/-! ## The order of texts -/

/-- The code units after the digit before the point. -/
def fractionUnits (n s : ℕ) : List ℕ :=
  if s = 0 then [] else 46 :: (fractionDigits n s).map (48 + ·)

theorem fractionDigits_lt_ten {n s : ℕ} (hs : s < 10 ^ n) : ∀ d ∈ fractionDigits n s, d < 10 := by
  induction n generalizing s with
  | zero => exact nofun
  | succ n ih =>
    have hpos : 0 < 10 ^ n := Nat.pow_pos (by decide)
    rw [fractionDigits]
    split
    · exact nofun
    · refine List.forall_mem_cons.mpr ⟨?_, ih (Nat.mod_lt _ hpos)⟩
      rw [Nat.div_lt_iff_lt_mul hpos]
      rwa [Nat.pow_succ, Nat.mul_comm] at hs

theorem codeUnits_ofList {cs : List Char} (h : ∀ c ∈ cs, c.toNat < 0x10000) :
    codeUnits (String.ofList cs) = cs.map Char.toNat := by
  rw [codeUnits, String.toList_ofList, List.map_eq_flatMap]
  exact List.flatMap_congr fun c hc => if_pos (h c hc)

/-- The code units of a text with one digit before the point. -/
theorem codeUnits_decimalText {n s : ℕ} (hs : s / 10 ^ n < 10) :
    codeUnits (decimalText n s) = (48 + s / 10 ^ n) :: fractionUnits n (s % 10 ^ n) := by
  have hmod : s % 10 ^ n < 10 ^ n := Nat.mod_lt _ (Nat.pow_pos (by decide))
  have hdigits := fractionDigits_lt_ten hmod
  have hunits : ((fractionDigits n (s % 10 ^ n)).map Nat.digitChar).map Char.toNat =
      (fractionDigits n (s % 10 ^ n)).map (48 + ·) := by
    rw [List.map_map]
    exact List.map_congr_left fun d hd => Nat.toNat_digitChar_of_lt_ten (hdigits d hd)
  rw [decimalText, Nat.toDigits_of_lt_base hs, codeUnits_ofList]
  · rw [List.map_append, List.map_singleton, Nat.toNat_digitChar_of_lt_ten hs, fractionUnits]
    split
    · rfl
    · rw [List.map_cons, hunits]
      rfl
  · intro c hc
    have hdigit : ∀ d < 10, (Nat.digitChar d).toNat < 0x10000 := fun d hd => by
      rw [Nat.toNat_digitChar_of_lt_ten hd]
      omega
    rcases List.mem_append.mp hc with hc | hc
    · rw [List.mem_singleton.mp hc]
      exact hdigit _ hs
    · split at hc
      · cases hc
      · rcases List.mem_cons.mp hc with rfl | hc
        · decide
        · obtain ⟨d, hd, rfl⟩ := List.mem_map.mp hc
          exact hdigit d (hdigits d hd)

theorem fractionUnits_lt_iff {n s t : ℕ} (hs : s < 10 ^ n) (ht : t < 10 ^ n) :
    fractionUnits n s < fractionUnits n t ↔ s < t := by
  have hunits : StrictMono (48 + · : ℕ → ℕ) := fun a b h => Nat.add_lt_add_left h 48
  have hdigits := fractionDigits_lt_iff hunits hs ht
  rw [fractionUnits, fractionUnits]
  rcases Nat.eq_zero_or_pos s with rfl | hs₀
  · rcases Nat.eq_zero_or_pos t with rfl | ht₀
    · simp
    · simp [ht₀, ht₀.ne']
  · rcases Nat.eq_zero_or_pos t with rfl | ht₀
    · simp
    · rw [if_neg hs₀.ne', if_neg ht₀.ne', List.cons_lt_cons_iff, hdigits]
      simp

/-- **The order of decimal texts** is the order of the numbers, for texts with as
many places and one digit before the point. -/
theorem decimalText_lt_iff {n s t : ℕ} (hs : s / 10 ^ n < 10) (ht : t / 10 ^ n < 10) :
    codeUnits (decimalText n s) < codeUnits (decimalText n t) ↔ s < t := by
  have hpos : 0 < 10 ^ n := Nat.pow_pos (by decide)
  rw [codeUnits_decimalText hs, codeUnits_decimalText ht, List.cons_lt_cons_iff,
    fractionUnits_lt_iff (Nat.mod_lt _ hpos) (Nat.mod_lt _ hpos), Nat.add_lt_add_iff_left,
    Nat.add_left_cancel_iff]
  exact (lt_iff_div_mod hpos).symm

example : decimalText 4 10420 = "1.042" ∧ decimalText 4 10421 = "1.0421" ∧
    codeUnits "1.042" < codeUnits "1.0421" := by decide

/-! ## The value of digits -/

/-- The number the digits stand for. -/
def digitsValue (ds : List ℕ) : ℕ := Nat.ofDigits 10 ds.reverse

@[simp] theorem digitsValue_nil : digitsValue [] = 0 := rfl

theorem digitsValue_cons (d : ℕ) (ds : List ℕ) :
    digitsValue (d :: ds) = d * 10 ^ ds.length + digitsValue ds := by
  rw [digitsValue, Nat.ofDigits_reverse_cons, digitsValue]
  ring

theorem digitsValue_concat (ds : List ℕ) (d : ℕ) :
    digitsValue (ds ++ [d]) = 10 * digitsValue ds + d := by
  rw [digitsValue, List.reverse_concat, Nat.ofDigits_cons, digitsValue, Nat.add_comm]

theorem digitsValue_lt {ds : List ℕ} (h : ∀ d ∈ ds, d < 10) : digitsValue ds < 10 ^ ds.length := by
  have hlt := Nat.ofDigits_lt_base_pow_length (b := 10) (l := ds.reverse) (by decide)
    (fun d hd => h d (List.mem_reverse.mp hd))
  rwa [List.length_reverse] at hlt

theorem length_fractionDigits_le (n s : ℕ) : (fractionDigits n s).length ≤ n := by
  induction n generalizing s with
  | zero => exact Nat.le_refl 0
  | succ n ih =>
    rw [fractionDigits]
    split
    · exact Nat.zero_le _
    · exact Nat.succ_le_succ (ih _)

/-- The digits after the point stand for the whole number. -/
theorem digitsValue_fractionDigits {n s : ℕ} (hs : s < 10 ^ n) :
    digitsValue (fractionDigits n s) * 10 ^ (n - (fractionDigits n s).length) = s := by
  induction n generalizing s with
  | zero =>
    have hzero : s = 0 := by simpa using hs
    simp [hzero, fractionDigits]
  | succ n ih =>
    have hpos : 0 < 10 ^ n := Nat.pow_pos (by decide)
    rw [fractionDigits]
    split
    · rename_i hzero
      simp [hzero]
    · have hlen := length_fractionDigits_le n (s % 10 ^ n)
      have hpow : 10 ^ (fractionDigits n (s % 10 ^ n)).length *
          10 ^ (n - (fractionDigits n (s % 10 ^ n)).length) = 10 ^ n := by
        rw [← pow_add, Nat.add_sub_cancel' hlen]
      have hdiv := Nat.div_add_mod s (10 ^ n)
      rw [digitsValue_cons, List.length_cons, Nat.succ_sub_succ, Nat.add_mul, Nat.mul_assoc, hpow,
        ih (Nat.mod_lt _ hpos), Nat.mul_comm]
      exact hdiv

/-- The first digits stand for the number without its last places. -/
theorem digitsValue_take {n s k : ℕ} (hs : s < 10 ^ n) (hk : k ≤ (fractionDigits n s).length) :
    digitsValue ((fractionDigits n s).take k) = s / 10 ^ (n - k) := by
  induction n generalizing s k with
  | zero =>
    have hzero : s = 0 := by simpa using hs
    simp [hzero, fractionDigits]
  | succ n ih =>
    have hpos : 0 < 10 ^ n := Nat.pow_pos (by decide)
    cases k with
    | zero => simp [Nat.div_eq_of_lt hs]
    | succ k =>
      rw [fractionDigits] at hk ⊢
      split at hk
      · cases hk
      · rename_i hne
        have hlen : k ≤ (fractionDigits n (s % 10 ^ n)).length := Nat.succ_le_succ_iff.mp hk
        have hle : k ≤ n := hlen.trans (length_fractionDigits_le n _)
        have hpow : 10 ^ n = 10 ^ k * 10 ^ (n - k) := by rw [← pow_add, Nat.add_sub_cancel' hle]
        have hpos' : 0 < 10 ^ (n - k) := Nat.pow_pos (by decide)
        rw [if_neg hne, List.take_succ_cons, digitsValue_cons, List.length_take,
          Nat.min_eq_left hlen, ih (Nat.mod_lt _ hpos) hlen, Nat.succ_sub_succ]
        have hsplit : s = 10 ^ (n - k) * (s / 10 ^ n * 10 ^ k) + s % 10 ^ n := by
          have hdiv := Nat.div_add_mod s (10 ^ n)
          rw [hpow] at hdiv ⊢
          linarith
        conv_rhs => rw [hsplit, Nat.mul_add_div hpos']

theorem digitsValue_pos {ds : List ℕ} (hne : ds ≠ []) (hlast : ∀ d ∈ ds.getLast?, d ≠ 0) :
    0 < digitsValue ds := by
  rcases ds.eq_nil_or_concat' with rfl | ⟨init, d, rfl⟩
  · exact absurd rfl hne
  · have hd := hlast d (by rw [List.getLast?_concat]; rfl)
    rw [digitsValue_concat]
    omega

/-- Digits without a zero at the end are those of the number they stand for. -/
theorem fractionDigits_digitsValue {n : ℕ} {ds : List ℕ} (hds : ∀ d ∈ ds, d < 10)
    (hlast : ∀ d ∈ ds.getLast?, d ≠ 0) (hlen : ds.length ≤ n) :
    fractionDigits n (digitsValue ds * 10 ^ (n - ds.length)) = ds := by
  induction ds generalizing n with
  | nil => cases n <;> simp [fractionDigits]
  | cons d ds ih =>
    obtain ⟨n, rfl⟩ : ∃ k, n = k + 1 := ⟨n - 1, by simp at hlen; omega⟩
    obtain ⟨hd, hds⟩ := List.forall_mem_cons.mp hds
    have hlen' : ds.length ≤ n := Nat.succ_le_succ_iff.mp hlen
    have hpow : 10 ^ n = 10 ^ ds.length * 10 ^ (n - ds.length) := by
      rw [← pow_add, Nat.add_sub_cancel' hlen']
    have hvalue : digitsValue (d :: ds) * 10 ^ (n + 1 - (d :: ds).length) =
        digitsValue ds * 10 ^ (n - ds.length) + d * 10 ^ n := by
      rw [digitsValue_cons, List.length_cons, Nat.succ_sub_succ, hpow]
      ring
    have hlt : digitsValue ds * 10 ^ (n - ds.length) < 10 ^ n := by
      rw [hpow]
      exact Nat.mul_lt_mul_of_pos_right (digitsValue_lt hds) (Nat.pow_pos (by decide))
    have hpos : 0 < 10 ^ n := Nat.pow_pos (by decide)
    have hne : digitsValue ds * 10 ^ (n - ds.length) + d * 10 ^ n ≠ 0 := by
      rw [← hvalue]
      exact (Nat.mul_pos (digitsValue_pos (List.cons_ne_nil _ _) hlast)
        (Nat.pow_pos (by decide))).ne'
    have hlast' : ∀ d ∈ ds.getLast?, d ≠ 0 := by
      cases ds with
      | nil => exact nofun
      | cons d' ds => rwa [List.getLast?_cons_cons] at hlast
    rw [hvalue, fractionDigits, if_neg hne, Nat.add_mul_div_right _ _ hpos, Nat.div_eq_of_lt hlt,
      Nat.zero_add, Nat.add_mul_mod_self_right, Nat.mod_eq_of_lt hlt, ih hds hlast' hlen']

theorem fractionDigits_eq_nil_iff {n s : ℕ} (hs : s < 10 ^ n) :
    fractionDigits n s = [] ↔ s = 0 := by
  cases n with
  | zero =>
    have hzero : s = 0 := by simpa using hs
    simp [hzero, fractionDigits]
  | succ n =>
    rw [fractionDigits]
    by_cases hzero : s = 0 <;> simp [hzero]

/-- The digits after the point end with one that is not zero. -/
theorem getLast?_fractionDigits {n s : ℕ} (hs : s < 10 ^ n) :
    ∀ d ∈ (fractionDigits n s).getLast?, d ≠ 0 := by
  induction n generalizing s with
  | zero => exact nofun
  | succ n ih =>
    have hpos : 0 < 10 ^ n := Nat.pow_pos (by decide)
    have ih := ih (Nat.mod_lt s hpos)
    rw [fractionDigits]
    split
    · exact nofun
    · rename_i hne
      rcases hrest : fractionDigits n (s % 10 ^ n) with - | ⟨d, ds⟩
      · -- nothing follows, so the rest is zero
        have hrest := (fractionDigits_eq_nil_iff (Nat.mod_lt s hpos)).mp hrest
        have hdiv := Nat.div_add_mod s (10 ^ n)
        rintro d hd rfl
        rw [List.getLast?_singleton, Option.mem_some] at hd
        rw [hd, hrest] at hdiv
        exact hne hdiv.symm
      · rw [List.getLast?_cons_cons, ← hrest]
        exact ih

end KubemqWorkshop
