import KubemqWorkshop.Base64
import KubemqWorkshop.Json

/-!
# Texts as bytes

A text leaves a program as UTF-8 and crosses a wire as the Base64 of its bytes;
`atob` gives a browser the bytes back as characters, one for one (`atob_base64`).
That is the text again exactly when it is ASCII (`latin1_utf8_eq_iff`), as JSON is
when its strings are.
-/

namespace KubemqWorkshop

/-- The UTF-8 bytes of a text. -/
def utf8 (s : String) : List UInt8 := s.toList.flatMap String.utf8EncodeChar

/-- Bytes as the characters with their numbers. -/
def latin1 (bytes : List UInt8) : String := String.ofList (bytes.map fun b => Char.ofNat b.toNat)

/-- The bytes of a text whose characters stand for bytes. -/
def unlatin1 (s : String) : List UInt8 := s.toList.map fun c => c.toNat.toUInt8

/-- Standard Base64 of bytes, with padding. -/
def base64 (bytes : List UInt8) : String := String.ofList (Base64.encode (bytes.map UInt8.toNat))

/-- Every character is ASCII. -/
def Ascii (s : String) : Prop := ∀ c ∈ s.toList, c.toNat < 128

instance (s : String) : Decidable (Ascii s) := List.decidableBAll _ _

/-! ## Bytes as characters -/

theorem toNat_ofNat {n : ℕ} (h : n < 256) : (Char.ofNat n).toNat = n := by
  rw [Char.ofNat, dif_pos (Or.inl (by omega))]
  rfl

theorem bytes_latin1 (bytes : List UInt8) : Bytes (latin1 bytes) := by
  intro c hc
  rw [latin1, String.toList_ofList] at hc
  obtain ⟨b, -, rfl⟩ := List.mem_map.mp hc
  rw [toNat_ofNat b.toNat_lt]
  exact b.toNat_lt

/-- **What the wire carries is read back**, byte by byte. -/
theorem atob_base64 (bytes : List UInt8) : atob (base64 bytes) = some (latin1 bytes) := by
  apply atob_btoa
  have hnat : (latin1 bytes).toList.map Char.toNat = bytes.map UInt8.toNat := by
    rw [latin1, String.toList_ofList, List.map_map]
    exact List.map_congr_left fun b _ => toNat_ofNat b.toNat_lt
  rw [btoa, if_pos (bytes_latin1 bytes), hnat, base64]

/-! ## ASCII -/

theorem utf8Size_eq_one_iff {c : Char} : c.utf8Size = 1 ↔ c.toNat < 128 := by
  have hval : c.val ≤ 127 ↔ c.toNat < 128 := by
    rw [UInt32.le_iff_toNat_le]
    exact Nat.lt_succ_iff.symm
  rw [← hval, Char.utf8Size_eq_one_iff]

theorem utf8EncodeChar_of_lt {c : Char} (h : c.toNat < 128) :
    String.utf8EncodeChar c = [c.toNat.toUInt8] := by
  rw [String.utf8EncodeChar_eq_singleton (utf8Size_eq_one_iff.mpr h)]
  rfl

/-- The bytes of an ASCII text are its characters. -/
theorem utf8_of_ascii {s : String} (h : Ascii s) : utf8 s = unlatin1 s := by
  have hmap : ∀ cs : List Char, (∀ c ∈ cs, c.toNat < 128) →
      cs.flatMap String.utf8EncodeChar = cs.map fun c => c.toNat.toUInt8 := by
    intro cs
    induction cs with
    | nil => exact fun _ => rfl
    | cons c cs ih =>
      intro hcs
      obtain ⟨hc, hcs⟩ := List.forall_mem_cons.mp hcs
      rw [List.flatMap_cons, utf8EncodeChar_of_lt hc, ih hcs]
      rfl
  exact hmap s.toList h

theorem latin1_unlatin1 {s : String} (h : Bytes s) : latin1 (unlatin1 s) = s := by
  rw [latin1, unlatin1, List.map_map]
  have hid : s.toList.map ((fun b : UInt8 => Char.ofNat b.toNat) ∘ fun c => c.toNat.toUInt8) =
      s.toList := by
    refine (List.map_congr_left fun c hc => ?_).trans (List.map_id _)
    have hmod : (c.toNat.toUInt8).toNat = c.toNat :=
      (UInt8.toNat_ofNat' ..).trans (Nat.mod_eq_of_lt (h c hc))
    simp only [Function.comp_apply, hmod, id_eq]
    exact Char.ofNat_toNat c
  rw [hid, String.ofList_toList]

theorem length_le_length_utf8 (cs : List Char) :
    cs.length ≤ (cs.flatMap String.utf8EncodeChar).length := by
  induction cs with
  | nil => exact le_refl _
  | cons c cs ih =>
    have hpos := c.utf8Size_pos
    rw [List.flatMap_cons, List.length_append, List.length_cons, String.length_utf8EncodeChar]
    omega

/-- A text takes one byte a character only if it is ASCII. -/
theorem length_utf8_eq_iff {cs : List Char} :
    (cs.flatMap String.utf8EncodeChar).length = cs.length ↔ ∀ c ∈ cs, c.toNat < 128 := by
  induction cs with
  | nil => simp
  | cons c cs ih =>
    have hpos := c.utf8Size_pos
    have hle := length_le_length_utf8 cs
    rw [List.forall_mem_cons, ← utf8Size_eq_one_iff, ← ih, List.flatMap_cons, List.length_append,
      List.length_cons, String.length_utf8EncodeChar]
    omega

/-- **Reading UTF-8 byte by byte** gives the text back exactly when it is ASCII. -/
theorem latin1_utf8_eq_iff {s : String} : latin1 (utf8 s) = s ↔ Ascii s := by
  refine ⟨?_, ?_⟩
  · intro h
    have hlen := congrArg (fun t : String => t.toList.length) h
    simp only [latin1, String.toList_ofList, List.length_map] at hlen
    exact length_utf8_eq_iff.mp hlen
  · intro h
    rw [utf8_of_ascii h]
    exact latin1_unlatin1 fun c hc => Nat.lt_trans (h c hc) (by norm_num)

/-! ## JSON in ASCII -/

namespace Json

theorem ascii_control {n : ℕ} (hn : n < 0x20) :
    ((escape (Char.ofNat n)).all fun x => x.toNat < 128) = true := by
  interval_cases n <;> rfl

theorem forall_of_all {cs : List Char} (h : (cs.all fun x => x.toNat < 128) = true) :
    ∀ x ∈ cs, x.toNat < 128 :=
  fun x hx => of_decide_eq_true (List.all_eq_true.mp h x hx)

/-- What stands for an ASCII character is ASCII. -/
theorem ascii_escape {c : Char} (h : c.toNat < 128) : ∀ x ∈ escape c, x.toNat < 128 := by
  by_cases hcontrol : c.toNat < 0x20
  · rw [← Char.ofNat_toNat c]
    exact forall_of_all (ascii_control hcontrol)
  · rw [escape, if_neg hcontrol]
    split_ifs
    case neg => simpa using h
    all_goals exact forall_of_all rfl

theorem ascii_quote {s : String} (h : Ascii s) : ∀ x ∈ quote s, x.toNat < 128 := by
  intro x hx
  rw [quote, List.cons_append, List.mem_cons, List.mem_append, List.mem_singleton,
    List.mem_flatMap] at hx
  rcases hx with rfl | ⟨c, hc, hx⟩ | rfl
  · decide
  · exact ascii_escape (h c hc) x hx
  · decide

theorem ascii_of_isDigit {c : Char} (h : c.isDigit = true) : c.toNat < 128 := by
  exact Nat.lt_of_le_of_lt (Char.isDigit_iff_toNat.mp h).2 (by decide)

theorem ascii_integer (m : ℤ) : ∀ x ∈ integer m, x.toNat < 128 := by
  rcases m with n | n
  · exact fun x hx => ascii_of_isDigit (isDigit_toDigits x hx)
  · intro x hx
    rcases List.mem_cons.mp hx with rfl | hx
    · decide
    · exact ascii_of_isDigit (isDigit_toDigits x hx)

theorem ascii_commas {pieces : List (List Char)} (h : ∀ p ∈ pieces, ∀ x ∈ p, x.toNat < 128) :
    ∀ x ∈ commas pieces, x.toNat < 128 := by
  induction pieces with
  | nil => exact fun x hx => absurd hx List.not_mem_nil
  | cons p pieces ih =>
    obtain ⟨hp, hpieces⟩ := List.forall_mem_cons.mp h
    rcases pieces with - | ⟨q, pieces⟩
    · exact hp
    · intro x hx
      rw [commas, List.mem_append, List.mem_cons] at hx
      rcases hx with hx | rfl | hx
      · exact hp x hx
      · decide
      · exact ih hpieces x hx

theorem ascii_str {s : String} (h : Ascii s) : Ascii (stringify (.str s)) := by
  rw [Ascii, stringify, String.toList_ofList]
  exact ascii_quote h

theorem ascii_num (m : ℤ) : Ascii (stringify (.num m 0)) := by
  rw [Ascii, stringify, String.toList_ofList, print, exponentText, if_pos rfl, List.append_nil]
  exact ascii_integer m

/-- An array is written in ASCII when its elements are. -/
theorem ascii_arr {vs : List Json} (h : ∀ v ∈ vs, Ascii (stringify v)) :
    Ascii (stringify (.arr vs)) := by
  intro x hx
  rw [stringify, String.toList_ofList, print, printElements_eq, List.cons_append, List.mem_cons,
    List.mem_append, List.mem_singleton] at hx
  rcases hx with rfl | hx | rfl
  · decide
  · refine ascii_commas (fun p hp => ?_) x hx
    obtain ⟨v, hv, rfl⟩ := List.mem_map.mp hp
    simpa only [Ascii, stringify, String.toList_ofList] using h v hv
  · decide

/-- An object is written in ASCII when its keys and its values are. -/
theorem ascii_obj {ms : List (String × Json)}
    (h : ∀ m ∈ ms, Ascii m.1 ∧ Ascii (stringify m.2)) : Ascii (stringify (.obj ms)) := by
  intro x hx
  rw [stringify, String.toList_ofList, print, printMembers_eq, List.cons_append, List.mem_cons,
    List.mem_append, List.mem_singleton] at hx
  rcases hx with rfl | hx | rfl
  · decide
  · refine ascii_commas (fun p hp => ?_) x hx
    obtain ⟨m, hm, rfl⟩ := List.mem_map.mp hp
    intro y hy
    rw [printMember, List.mem_append, List.mem_cons] at hy
    have hvalue : ∀ y ∈ print m.2, y.toNat < 128 := by
      simpa only [Ascii, stringify, String.toList_ofList] using (h m hm).2
    rcases hy with hy | rfl | hy
    · exact ascii_quote (h m hm).1 y hy
    · decide
    · exact hvalue y hy
  · decide

end Json

end KubemqWorkshop
