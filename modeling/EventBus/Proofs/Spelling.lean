import EventBus.Config.Lookup

/-!
# How a number may be spelled

The grammar of the numbers that a configuration accepts, told without the reader: white space, an
optional sign, digits, white space. What the reader makes of a text is then the number that the text
spells, if it is within the limit of the setting, and nothing otherwise. From this the whole reading
of a configuration is told: what it is, what is wrong with it, and which names were asked for.
-/

set_option autoImplicit false

namespace EventBus

namespace Text

/-- The twenty-five code points of `White_Space`, one by one. -/
def whiteSpace : List Nat :=
  [0x9, 0xa, 0xb, 0xc, 0xd, 0x20, 0x85, 0xa0, 0x1680, 0x2000, 0x2001, 0x2002, 0x2003, 0x2004,
    0x2005, 0x2006, 0x2007, 0x2008, 0x2009, 0x200a, 0x2028, 0x2029, 0x202f, 0x205f, 0x3000]

/-- A row made of white space only. -/
def Blanks (cs : List Char) : Prop := ∀ c ∈ cs, c.toNat ∈ whiteSpace

/-- A numeral for `n`: at most one `+`, then one or more ASCII digits with the value `n`. -/
def Numeral (cs : List Char) (n : Nat) : Prop :=
  ∃ sign digits, cs = sign ++ digits ∧ (sign = [] ∨ sign = ['+']) ∧ digits ≠ [] ∧
    (∀ c ∈ digits, c.isDigit = true) ∧ Nat.ofDigitChars 10 digits 0 = n

/-- The text is a numeral for `n` with white space around it. -/
def Spells (raw : String) (n : Nat) : Prop :=
  ∃ before word after, raw.toList = before ++ word ++ after ∧ Blanks before ∧ Blanks after ∧
    Numeral word n

/-! ## White space -/

theorem CodePoints.contains_nil (c : Char) : CodePoints.contains [] c = false := rfl

theorem CodePoints.contains_cons (low high : Nat) (rest : CodePoints) (c : Char) :
    CodePoints.contains ((low, high) :: rest) c = true ↔
      low ≤ c.toNat ∧ (c.toNat ≤ high ∨ rest.contains c = true) := by
  rw [CodePoints.contains]
  by_cases hlow : c.toNat < low
  · simp [hlow, Nat.not_le.mpr hlow]
  · by_cases hhigh : c.toNat ≤ high <;> simp [hlow, hhigh, Nat.not_lt.mp hlow]

theorem isBlank_iff (c : Char) : isBlank c = true ↔ c.toNat ∈ whiteSpace := by
  simp only [isBlank, blanks, CodePoints.contains_cons, CodePoints.contains_nil, whiteSpace,
    List.mem_cons, List.not_mem_nil, or_false, Bool.false_eq_true]
  omega

theorem blanks_iff (cs : List Char) : Blanks cs ↔ ∀ c ∈ cs, isBlank c = true := by
  simp [Blanks, isBlank_iff]

theorem isBlank_of_isDigit {c : Char} (hc : c.isDigit = true) : isBlank c = false := by
  have bounds : 48 ≤ c.toNat ∧ c.toNat ≤ 57 := by
    simp only [Char.isDigit, Bool.and_eq_true, decide_eq_true_eq, ge_iff_le,
      UInt32.le_iff_toNat_le] at hc
    exact hc
  rw [Bool.eq_false_iff, ne_eq, isBlank_iff]
  simp only [whiteSpace, List.mem_cons, List.not_mem_nil, or_false]
  omega

theorem isBlank_of_numeral {cs : List Char} {n : Nat} (hn : Numeral cs n) {c : Char}
    (hc : c ∈ cs) : isBlank c = false := by
  obtain ⟨sign, digits, rfl, hsign, -, hdigits, -⟩ := hn
  rcases List.mem_append.mp hc with hc | hc
  · rcases hsign with rfl | rfl
    · simp at hc
    · obtain rfl := List.mem_singleton.mp hc
      decide
  · exact isBlank_of_isDigit (hdigits c hc)

/-! ## Trimming -/

theorem dropWhile_isBlank_append {before rest : List Char} (hb : Blanks before)
    (hr : ∀ c ∈ rest, isBlank c = false) (after : List Char) (hne : rest ≠ []) :
    (before ++ (rest ++ after)).dropWhile isBlank = rest ++ after := by
  rw [List.dropWhile_append_of_pos ((blanks_iff before).mp hb)]
  cases rest with
  | nil => exact absurd rfl hne
  | cons c cs => simp [hr c (by simp)]

/-- White space around a word is trimmed, and nothing of the word. -/
theorem trim_around {before word after : List Char} (hb : Blanks before) (ha : Blanks after)
    (hw : ∀ c ∈ word, isBlank c = false) (hne : word ≠ []) :
    trim (before ++ word ++ after) = word := by
  have hback : Blanks after.reverse := fun c hc => ha c (List.mem_reverse.mp hc)
  have hrev : ∀ c ∈ word.reverse, isBlank c = false := fun c hc => hw c (List.mem_reverse.mp hc)
  have front := dropWhile_isBlank_append hb hw after hne
  have back := dropWhile_isBlank_append hback hrev [] (by simpa using hne)
  simp only [List.append_nil] at back
  rw [trim, List.append_assoc, front, List.reverse_append, back, List.reverse_reverse]

/-- Only white space is trimmed. -/
theorem exists_around_trim (cs : List Char) :
    ∃ before after, cs = before ++ trim cs ++ after ∧ Blanks before ∧ Blanks after := by
  have front := List.takeWhile_append_dropWhile (p := isBlank) (l := cs)
  have back := List.takeWhile_append_dropWhile (p := isBlank)
    (l := (cs.dropWhile isBlank).reverse)
  refine ⟨cs.takeWhile isBlank, ((cs.dropWhile isBlank).reverse.takeWhile isBlank).reverse,
    ?_, ?_, ?_⟩
  · rw [trim, List.append_assoc, ← List.reverse_append, back, List.reverse_reverse, front]
  · exact (blanks_iff _).mpr (List.all_eq_true.mp List.all_takeWhile)
  · exact (blanks_iff _).mpr fun c hc =>
      List.all_eq_true.mp List.all_takeWhile c (List.mem_reverse.mp hc)

/-! ## Digits -/

theorem digit?_eq_ite (c : Char) :
    digit? c = if c.isDigit = true then some (c.toNat - '0'.toNat) else none := by
  simp [digit?, Char.isDigit, Char.le_def]

/-- Digits are read if there is nothing else, and as the number that they denote. -/
theorem digitsFrom_eq_some (acc n : Nat) (cs : List Char) :
    digitsFrom acc cs = some n ↔
      (∀ c ∈ cs, c.isDigit = true) ∧ Nat.ofDigitChars 10 cs acc = n := by
  induction cs generalizing acc with
  | nil => simp [digitsFrom]
  | cons c cs ih =>
    rw [digitsFrom, digit?_eq_ite, Nat.ofDigitChars_cons, List.forall_mem_cons]
    by_cases hc : c.isDigit = true
    · simp [hc, ih]
    · simp [hc]

theorem unsigned_eq (cs : List Char) :
    cs = '+' :: unsigned cs ∨ unsigned cs = cs ∧ cs.head? ≠ some '+' := by
  unfold unsigned
  split
  · exact .inl rfl
  · next hplus =>
    refine .inr ⟨rfl, fun h => ?_⟩
    obtain ⟨rest, rfl⟩ := List.head?_eq_some_iff.mp h
    exact hplus rest rfl

theorem numeral_iff (cs : List Char) (n : Nat) :
    Numeral cs n ↔ unsigned cs ≠ [] ∧ digitsFrom 0 (unsigned cs) = some n := by
  rw [digitsFrom_eq_some]
  constructor
  · rintro ⟨sign, digits, rfl, rfl | rfl, hne, hdigits, rfl⟩
    · -- a digit is no sign, so nothing is taken off
      rcases unsigned_eq digits with hplus | ⟨hsame, -⟩
      · exact absurd (hdigits '+' (by rw [hplus]; simp)) (by decide)
      · rw [List.nil_append, hsame]
        exact ⟨hne, hdigits, rfl⟩
    · exact ⟨hne, hdigits, rfl⟩
  · rintro ⟨hne, hdigits, hval⟩
    rcases unsigned_eq cs with hplus | ⟨hsame, -⟩
    · exact ⟨['+'], unsigned cs, hplus, .inr rfl, hne, hdigits, hval⟩
    · exact ⟨[], unsigned cs, hsame.symm, .inl rfl, hne, hdigits, hval⟩

theorem readNumber_eq_some (limit n : Nat) (cs : List Char) :
    readNumber limit cs = some n ↔ Numeral cs n ∧ n ≤ limit := by
  rw [numeral_iff, readNumber]
  split
  · next h => simp [h]
  · next hne =>
    rw [Option.filter_eq_some_iff, decide_eq_true_iff, and_iff_right (fun h => hne h)]

theorem Numeral.ne_nil {cs : List Char} {n : Nat} (hn : Numeral cs n) : cs ≠ [] := by
  obtain ⟨sign, digits, rfl, -, hne, -⟩ := hn
  simp [hne]

/-- A text spells a number exactly if what is left of it without white space is a numeral. -/
theorem spells_iff_trim (raw : String) (n : Nat) : Spells raw n ↔ Numeral (trim raw.toList) n := by
  constructor
  · rintro ⟨before, word, after, hraw, hb, ha, hn⟩
    rwa [hraw, trim_around hb ha (fun c hc => isBlank_of_numeral hn hc) hn.ne_nil]
  · intro hn
    obtain ⟨before, after, hraw, hb, ha⟩ := exists_around_trim raw.toList
    exact ⟨before, _, after, hraw, hb, ha, hn⟩

/-- Every number is spelled by its own digits, with zeros, a sign and white space before them and
white space behind. -/
theorem spells_toDigits (n zeros : Nat) {before sign after : List Char} (hb : Blanks before)
    (hs : sign = [] ∨ sign = ['+']) (ha : Blanks after) :
    Spells (String.ofList
      (before ++ (sign ++ (List.replicate zeros '0' ++ Nat.toDigits 10 n)) ++ after)) n := by
  refine ⟨before, _, after, String.toList_ofList, hb, ha, sign, _, rfl, hs, ?_, ?_, ?_⟩
  · simp
  · intro c hc
    rcases List.mem_append.mp hc with hc | hc
    · obtain rfl := List.eq_of_mem_replicate hc
      decide
    · exact Nat.isDigit_of_mem_toDigits (by decide) (by decide) hc
  · rw [Nat.ofDigitChars_append, Nat.ofDigitChars_replicate_zero,
      Nat.mul_zero, Nat.ofDigitChars_toDigits (by decide) (by decide)]

end Text

end EventBus
