import Mathlib.Data.List.Basic

/-!
# Updating the rows of a table in place

A batch of entries is applied to a table one entry at a time. An entry looks for
the first row it hits and rewrites that row where it stands; an entry that hits
no row stops the batch, and what was written stays (`updateEach`). When no entry
hits two rows and every entry hits one, the batch is applied row by row instead
(`updateEach_eq`): every row goes through the entries that hit it (`settle`), and
if an entry overwrites what earlier ones wrote, the last of them decides
(`settle_eq_write`).
-/

namespace KubemqWorkshop

universe u v w

namespace Rows

variable {ρ : Type u} {ε : Type v} {π : Type w}

/-- Rewrite the first row that fits; `none` when none does. -/
def updateFirst (p : ρ → Bool) (f : ρ → ρ) : List ρ → Option (List ρ)
  | [] => none
  | r :: rows => if p r then some (f r :: rows) else (updateFirst p f rows).map (r :: ·)

variable (hits : ε → ρ → Bool) (write : ε → ρ → ρ)

/-- Apply a batch; `false` when an entry hit no row. -/
def updateEach : List ε → List ρ → Bool × List ρ
  | [], rows => (true, rows)
  | e :: entries, rows =>
    match updateFirst (hits e) (write e) rows with
    | none => (false, rows)
    | some rows' => updateEach entries rows'

/-- What one entry makes of a row. -/
def touch (r : ρ) (e : ε) : ρ := if hits e r then write e r else r

/-- What a batch makes of a row. -/
def settle (entries : List ε) (r : ρ) : ρ := entries.foldl (touch hits write) r

/-- No entry hits two rows. -/
def Distinct (rows : List ρ) : Prop :=
  ∀ e, rows.Pairwise fun r r' => hits e r = true → hits e r' = false

/-- Writing a row does not change which entries hit it. -/
def Keeps : Prop := ∀ e e' r, hits e' (write e r) = hits e' r

/-! ## One entry -/

/-- What writing does not change in a row, updating does not change in the
table. -/
theorem map_updateFirst {p : ρ → Bool} {f : ρ → ρ} {key : ρ → π} (hkey : ∀ r, key (f r) = key r)
    {rows rows' : List ρ} (h : updateFirst p f rows = some rows') :
    rows'.map key = rows.map key := by
  induction rows generalizing rows' with
  | nil => cases h
  | cons r rows ih =>
    rw [updateFirst] at h
    by_cases hp : p r = true
    · rw [if_pos hp] at h
      obtain rfl := Option.some.inj h
      rw [List.map_cons, List.map_cons, hkey]
    · rw [if_neg hp] at h
      obtain ⟨tail, htail, rfl⟩ := Option.map_eq_some_iff.mp h
      rw [List.map_cons, List.map_cons, ih htail]

variable {hits write}

/-- An entry that hits a row touches every row, the others without effect. -/
theorem updateFirst_eq {e : ε} {rows : List ρ}
    (hdistinct : rows.Pairwise fun r r' => hits e r = true → hits e r' = false)
    (hhit : ∃ r ∈ rows, hits e r = true) :
    updateFirst (hits e) (write e) rows = some (rows.map fun r => touch hits write r e) := by
  induction rows with
  | nil =>
    obtain ⟨r, hr, -⟩ := hhit
    exact absurd hr List.not_mem_nil
  | cons r rows ih =>
    obtain ⟨hr, hrows⟩ := List.pairwise_cons.mp hdistinct
    rw [updateFirst, List.map_cons, touch]
    by_cases hp : hits e r = true
    · have hrest : rows.map (fun r' => touch hits write r' e) = rows := by
        conv_rhs => rw [← List.map_id rows]
        refine List.map_congr_left fun r' hr' => ?_
        rw [touch, hr r' hr' hp]
        rfl
      rw [if_pos hp, if_pos hp, hrest]
    · rw [if_neg hp, if_neg hp, ih hrows, Option.map_some]
      obtain ⟨r', hr', hp'⟩ := hhit
      rcases List.mem_cons.mp hr' with rfl | hr'
      · exact absurd hp' hp
      · exact ⟨r', hr', hp'⟩

/-! ## A batch -/

theorem map_updateEach {key : ρ → π} (hkey : ∀ e r, key (write e r) = key r) (entries : List ε)
    (rows : List ρ) : (updateEach hits write entries rows).2.map key = rows.map key := by
  induction entries generalizing rows with
  | nil => rfl
  | cons e entries ih =>
    rw [updateEach]
    rcases h : updateFirst (hits e) (write e) rows with - | rows'
    · rfl
    · rw [ih rows', map_updateFirst (hkey e) h]

theorem hits_touch (hkeeps : Keeps hits write) (e e' : ε) (r : ρ) :
    hits e' (touch hits write r e) = hits e' r := by
  rw [touch]
  split
  · exact hkeeps e e' r
  · rfl

/-- **A batch, row by row.** -/
theorem updateEach_eq (hkeeps : Keeps hits write) {entries : List ε} {rows : List ρ}
    (hdistinct : Distinct hits rows) (hhit : ∀ e ∈ entries, ∃ r ∈ rows, hits e r = true) :
    updateEach hits write entries rows = (true, rows.map (settle hits write entries)) := by
  induction entries generalizing rows with
  | nil =>
    have hid : settle hits write ([] : List ε) = id := rfl
    rw [updateEach, hid, List.map_id]
  | cons e entries ih =>
    obtain ⟨he, hentries⟩ := List.forall_mem_cons.mp hhit
    -- the first entry changes no row's hits, so the rest meets the same table
    have hdistinct' : Distinct hits (rows.map fun r => touch hits write r e) := by
      intro e'
      rw [List.pairwise_map]
      simpa only [hits_touch hkeeps] using hdistinct e'
    have hhit' : ∀ e' ∈ entries, ∃ r ∈ rows.map fun r => touch hits write r e,
        hits e' r = true := by
      intro e' he'
      obtain ⟨r, hr, hp⟩ := hentries e' he'
      exact ⟨_, List.mem_map_of_mem hr, (hits_touch hkeeps e e' r).trans hp⟩
    rw [updateEach, updateFirst_eq (hdistinct e) he]
    simp only [ih hdistinct' hhit', List.map_map]
    rfl

theorem updateFirst_eq_none_iff {p : ρ → Bool} {f : ρ → ρ} {rows : List ρ} :
    updateFirst p f rows = none ↔ ∀ r ∈ rows, ¬ p r = true := by
  induction rows with
  | nil => simp [updateFirst]
  | cons r rows ih =>
    rw [updateFirst, List.forall_mem_cons]
    by_cases hp : p r = true
    · simp [hp]
    · rw [if_neg hp, Option.map_eq_none_iff, ih]
      exact ⟨fun h => ⟨hp, h⟩, fun h => h.2⟩

/-- A batch goes through when every entry hits a row. -/
theorem updateEach_fst_iff (hkeeps : Keeps hits write) {entries : List ε} {rows : List ρ} :
    (updateEach hits write entries rows).1 = true ↔
      ∀ e ∈ entries, ∃ r ∈ rows, hits e r = true := by
  induction entries generalizing rows with
  | nil => simp [updateEach]
  | cons e entries ih =>
    rw [updateEach, List.forall_mem_cons]
    rcases h : updateFirst (hits e) (write e) rows with - | rows'
    · have hnone := updateFirst_eq_none_iff.mp h
      simp only [Bool.false_eq_true, false_iff, not_and]
      rintro ⟨r, hr, hp⟩
      exact absurd hp (hnone r hr)
    · have hhit : ∃ r ∈ rows, hits e r = true := by
        by_contra hno
        push Not at hno
        rw [updateFirst_eq_none_iff.mpr hno] at h
        cases h
      -- the rows that entries hit are not the entry's to change
      have hsame : ∀ e', (∃ r ∈ rows', hits e' r = true) ↔ ∃ r ∈ rows, hits e' r = true := by
        intro e'
        have hmap : rows'.map (hits e') = rows.map (hits e') :=
          map_updateFirst (fun r => hkeeps e e' r) h
        have hmem : true ∈ rows'.map (hits e') ↔ true ∈ rows.map (hits e') := by rw [hmap]
        simpa only [List.mem_map] using hmem
      simp only [ih, hsame]
      exact ⟨fun h => ⟨hhit, h⟩, fun h => h.2⟩

/-! ## One row -/

theorem findRev?_eq_none_iff {p : ε → Bool} {entries : List ε} :
    entries.findRev? p = none ↔ ∀ e ∈ entries, ¬ p e = true := by
  rw [List.findRev?_eq_find?_reverse, List.find?_eq_none]
  simp only [List.mem_reverse]

/-- What every write keeps, a batch keeps. -/
theorem key_settle {key : ρ → π} (hkey : ∀ e r, key (write e r) = key r) (entries : List ε)
    (r : ρ) : key (settle hits write entries r) = key r := by
  induction entries generalizing r with
  | nil => rfl
  | cons e entries ih =>
    have htouch : key (touch hits write r e) = key r := by
      rw [touch]
      split
      · exact hkey e r
      · rfl
    exact (ih _).trans htouch

/-- A row that no entry hits stays. -/
theorem settle_eq_self {entries : List ε} {r : ρ} (h : ∀ e ∈ entries, hits e r = false) :
    settle hits write entries r = r := by
  induction entries with
  | nil => rfl
  | cons e entries ih =>
    obtain ⟨he, hentries⟩ := List.forall_mem_cons.mp h
    have htouch : touch hits write r e = r := by
      rw [touch, he]
      rfl
    calc settle hits write (e :: entries) r
        = settle hits write entries (touch hits write r e) := rfl
      _ = settle hits write entries r := by rw [htouch]
      _ = r := ih hentries

/-- **The last entry that hits a row decides**, if writing overwrites. -/
theorem settle_eq_write (hkeeps : Keeps hits write)
    (hover : ∀ e e' r, write e' (write e r) = write e' r) {entries : List ε} {e : ε} {r : ρ}
    (h : entries.findRev? (fun e => hits e r) = some e) :
    settle hits write entries r = write e r := by
  induction entries generalizing r with
  | nil => cases h
  | cons e₀ entries ih =>
    have hcons : settle hits write (e₀ :: entries) r =
        settle hits write entries (touch hits write r e₀) := rfl
    rw [List.findRev?] at h
    rcases hrest : entries.findRev? (fun e => hits e r) with - | e₁
    · simp only [hrest] at h
      split at h
      · rename_i he₀
        obtain rfl := Option.some.inj h
        have hnone : ∀ e' ∈ entries, hits e' (touch hits write r e₀) = false := by
          intro e' he'
          rw [hits_touch hkeeps]
          simpa using findRev?_eq_none_iff.mp hrest e' he'
        rw [hcons, settle_eq_self hnone, touch, if_pos he₀]
      · cases h
    · simp only [hrest, Option.some.injEq] at h
      subst h
      rw [hcons, ih (by simpa only [hits_touch hkeeps] using hrest), touch]
      split
      · exact hover e₀ e₁ r
      · rfl

/-- The only entry that fits is the last one. -/
theorem findRev?_of_unique {p : ε → Bool} {entries : List ε} {e : ε} (hmem : e ∈ entries)
    (hp : p e = true) (honly : ∀ e' ∈ entries, p e' = true → e' = e) :
    entries.findRev? p = some e := by
  rcases h : entries.findRev? p with - | e'
  · exact absurd hp (findRev?_eq_none_iff.mp h e hmem)
  · rw [List.findRev?_eq_find?_reverse] at h
    rw [honly e' (List.mem_reverse.mp (List.mem_of_find?_eq_some h)) (List.find?_some h)]

end Rows

end KubemqWorkshop
