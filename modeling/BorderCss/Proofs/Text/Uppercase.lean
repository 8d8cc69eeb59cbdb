import BorderCss.Text.Uppercase

/-!
# Upper case is reached in one step

The first character of an upper-case form is its own upper-case form (`upperCase_of_mem_head?`). For
the two tables this is a matter of ranges: no run sends a character onto a run or onto an entry of
`foldedForms`, which `CaseRun.misses` decides for a pair of runs by their ends and their parity.
-/

namespace BorderCss

namespace CaseRun

/-- The last upper-case form of a run. -/
def lastUpper (run : CaseRun) : Nat :=
  run.upper + (run.last - run.first)

/-- The upper-case forms of `run` lie beside `other`, or between its steps. -/
def misses (run other : CaseRun) : Bool :=
  Nat.blt run.lastUpper other.first || Nat.blt other.last run.upper ||
    (Nat.beq other.step 2 && (Nat.beq run.step 2 || Nat.beq run.first run.last) &&
      Nat.beq ((run.upper + other.first) % 2) 1)

/-- The run of one code point. -/
def single (n : Nat) : CaseRun := ⟨n, n, 1, n⟩

/-- A code point on a run and where the run sends it. -/
theorem map?_eq_some {run : CaseRun} {n m : Nat} (h : run.map? n = some m) :
    run.first ≤ n ∧ n ≤ run.last ∧ (n - run.first) % run.step = 0 ∧
      m = run.upper + (n - run.first) := by
  unfold map? at h
  split at h
  · next hn =>
    cases h
    exact ⟨hn.1, hn.2.1, hn.2.2, rfl⟩
  · cases h

/-- A run sends nothing onto a run that it misses. -/
theorem map?_of_misses {run other : CaseRun} {n m : Nat} (h : run.misses other = true)
    (hm : run.map? n = some m) : other.map? m = none := by
  obtain ⟨hfirst, hlast, hstep, rfl⟩ := map?_eq_some hm
  simp only [misses, lastUpper, Bool.or_eq_true, Bool.and_eq_true, Nat.blt_eq, Nat.beq_eq] at h
  have hoff : ¬(other.first ≤ run.upper + (n - run.first) ∧
      run.upper + (n - run.first) ≤ other.last ∧
      (run.upper + (n - run.first) - other.first) % other.step = 0) := by
    rintro ⟨hge, hle, hmod⟩
    obtain (h | h) | ⟨⟨hother, hrun⟩, hparity⟩ := h
    · omega
    · omega
    · rw [hother] at hmod
      obtain hrun | hrun := hrun
      · rw [hrun] at hstep
        omega
      · omega
  rw [map?, if_neg hoff]

/-- The single code point `n` lies on its run. -/
theorem single_map? (n : Nat) : (single n).map? n = some n := by
  simp [map?, single]

end CaseRun

/-- No run sends a character onto a run. -/
theorem caseRuns_miss :
    (caseRuns.all fun run => caseRuns.all fun other => run.misses other) = true := by
  decide +kernel

/-- No run sends a character onto one whose form has several characters. -/
theorem caseRuns_miss_foldedForms :
    (caseRuns.all fun run => foldedForms.all fun entry => run.misses (.single entry.1)) = true := by
  decide +kernel

/-- The runs send characters to code points that are no surrogates and no ASCII letters in lower
case. -/
theorem caseRuns_upper :
    ∀ run ∈ caseRuns, (run.lastUpper < 0xD800 ∨ 0xDFFF < run.upper ∧ run.lastUpper < 0x110000) ∧
      (run.lastUpper < 97 ∨ 122 < run.upper) := by
  decide +kernel

/-- The first characters of the forms with several characters are upper-case. -/
theorem foldedForms_upper :
    ∀ entry ∈ foldedForms, ∀ n ∈ entry.2.head?, upperCase (Char.ofNat n) = [Char.ofNat n] := by
  decide +kernel

/-- ASCII letters are capitalised in one step. -/
theorem toUpper_ascii :
    ∀ n < 128, upperCase (Char.ofNat n).toUpper = [(Char.ofNat n).toUpper] := by
  decide +kernel

/-- A character that neither table lists is upper-case, unless it is an ASCII letter in lower
case. -/
theorem upperCase_eq_self {c : Char} (hascii : c.toNat < 97 ∨ 122 < c.toNat)
    (hfolded : ∀ entry ∈ foldedForms, entry.1 ≠ c.toNat)
    (hruns : ∀ run ∈ caseRuns, run.map? c.toNat = none) : upperCase c = [c] := by
  unfold upperCase
  have hlookup : foldedForms.lookup c.toNat = none := by
    rw [List.lookup_eq_none_iff]
    exact fun entry hentry => bne_iff_ne.2 (hfolded entry hentry).symm
  have hfind : caseRuns.findSome? (·.map? c.toNat) = none := List.findSome?_eq_none_iff.2 hruns
  rw [hlookup, hfind]
  split
  · have hupper : ¬(c.val ≥ 'a'.val ∧ c.val ≤ 'z'.val) := by
      rintro ⟨hge, hle⟩
      have hge' : 97 ≤ c.toNat := hge
      have hle' : c.toNat ≤ 122 := hle
      omega
    have hself : c.toUpper = c := dif_neg hupper
    rw [hself]
  · rfl

/-- A run sends a character to a code point that is a character. -/
theorem toNat_of_caseRun {run : CaseRun} (hrun : run ∈ caseRuns) {n m : Nat}
    (h : run.map? n = some m) : (Char.ofNat m).toNat = m := by
  obtain ⟨hvalid, -⟩ := caseRuns_upper run hrun
  obtain ⟨-, hlast, -, hm⟩ := CaseRun.map?_eq_some h
  unfold CaseRun.lastUpper at hvalid
  have hchar : m.isValidChar := by
    unfold Nat.isValidChar
    omega
  rw [Char.ofNat, dif_pos hchar]
  rfl

/-- Where a run sends a character, there is an upper-case character. -/
theorem upperCase_of_caseRun {run : CaseRun} (hrun : run ∈ caseRuns) {n m : Nat}
    (h : run.map? n = some m) : upperCase (Char.ofNat m) = [Char.ofNat m] := by
  obtain ⟨-, hletter⟩ := caseRuns_upper run hrun
  obtain ⟨-, hlast, -, hm⟩ := CaseRun.map?_eq_some h
  unfold CaseRun.lastUpper at hletter
  have htoNat := toNat_of_caseRun hrun h
  refine upperCase_eq_self (by omega) ?_ ?_
  · rw [htoNat]
    rintro entry hentry rfl
    have hmiss := List.all_eq_true.1 (List.all_eq_true.1 caseRuns_miss_foldedForms run hrun)
      entry hentry
    have := CaseRun.map?_of_misses hmiss h
    rw [CaseRun.single_map?] at this
    cases this
  · rw [htoNat]
    intro other hother
    have hmiss := List.all_eq_true.1 (List.all_eq_true.1 caseRuns_miss run hrun) other hother
    exact CaseRun.map?_of_misses hmiss h

/-- The first character of an upper-case form is its own upper-case form. -/
theorem upperCase_of_mem_head? {c d : Char} (h : d ∈ (upperCase c).head?) :
    upperCase d = [d] := by
  by_cases hascii : c.toNat < 128
  · rw [upperCase, if_pos hascii] at h
    cases h
    rw [← Char.ofNat_toNat c]
    exact toUpper_ascii c.toNat hascii
  · rw [upperCase, if_neg hascii] at h
    cases hfolded : foldedForms.lookup c.toNat with
    | some forms =>
      rw [hfolded] at h
      simp only [List.head?_map, Option.mem_def, Option.map_eq_some_iff] at h
      obtain ⟨n, hn, rfl⟩ := h
      obtain ⟨before, after, hentries, -⟩ := List.lookup_eq_some_iff.1 hfolded
      have hentry : (c.toNat, forms) ∈ foldedForms := by
        rw [hentries]
        simp
      exact foldedForms_upper _ hentry n hn
    | none =>
      rw [hfolded] at h
      cases hrun : caseRuns.findSome? (·.map? c.toNat) with
      | some n =>
        rw [hrun] at h
        cases h
        obtain ⟨run, hmem, hmap⟩ := List.exists_of_findSome?_eq_some hrun
        exact upperCase_of_caseRun hmem hmap
      | none =>
        rw [hrun] at h
        cases h
        rw [upperCase, if_neg hascii, hfolded, hrun]

/-! ## Hyphens -/

theorem toUpper_hyphen : ∀ n < 128, (Char.ofNat n).toUpper = '-' → Char.ofNat n = '-' := by
  decide +kernel

theorem foldedForms_hyphen : ∀ entry ∈ foldedForms, '-' ∉ entry.2.map Char.ofNat := by
  decide +kernel

theorem caseRuns_hyphen : ∀ run ∈ caseRuns, 45 < run.upper := by
  decide +kernel

/-- Only a hyphen has one in its upper-case form. -/
theorem eq_hyphen_of_mem_upperCase {c : Char} (h : '-' ∈ upperCase c) : c = '-' := by
  unfold upperCase at h
  split at h
  · next hascii =>
    rw [List.mem_singleton, ← Char.ofNat_toNat c] at h
    rw [← Char.ofNat_toNat c]
    exact toUpper_hyphen c.toNat hascii h.symm
  · split at h
    · next forms hlookup =>
      obtain ⟨before, after, hentries, -⟩ := List.lookup_eq_some_iff.1 hlookup
      have hentry : (c.toNat, forms) ∈ foldedForms := by
        rw [hentries]
        simp
      exact absurd h (foldedForms_hyphen _ hentry)
    · split at h
      · next m hfind =>
        obtain ⟨run, hrun, hmap⟩ := List.exists_of_findSome?_eq_some hfind
        obtain ⟨-, -, -, hm⟩ := CaseRun.map?_eq_some hmap
        have hupper := caseRuns_hyphen run hrun
        have hnat := congrArg Char.toNat (List.mem_singleton.1 h)
        have hhyphen : '-'.toNat = 45 := rfl
        rw [hhyphen, toNat_of_caseRun hrun hmap] at hnat
        omega
      · exact (List.mem_singleton.1 h).symm

end BorderCss
