import Mathlib.Computability.Language
import Mathlib.Data.List.TakeWhile
import ShipFlow.Organizations.OrganizationsService

/-! The slugs that are tried for a new organization satisfy the check of the table. -/

namespace ShipFlow.Organizations

/-- Words with single hyphens between them, as `matchesSlugFormat` has them, but a hyphen may
be the last character. -/
def spaced (inWord : Bool) : List Char → Bool
  | [] => true
  | c :: cs => if isSlugChar c then spaced true cs else c == '-' && inWord && spaced false cs

section Formats
variable {b : Bool} {cs ds : List Char} {c : Char}

theorem spaced_of_matches (h : matchesSlugFormat b cs = true) : spaced b cs = true := by
  induction cs generalizing b with
  | nil => rfl
  | cons c cs ih =>
    rw [matchesSlugFormat] at h
    rw [spaced]
    split
    · next hc =>
      rw [if_pos hc] at h
      exact ih h
    · next hc =>
      rw [if_neg hc, Bool.and_eq_true] at h
      rw [Bool.and_eq_true]
      exact ⟨h.1, ih h.2⟩

theorem spaced_of_append (h : spaced b (cs ++ ds) = true) : spaced b cs = true := by
  induction cs generalizing b with
  | nil => rfl
  | cons c cs ih =>
    rw [List.cons_append, spaced] at h
    rw [spaced]
    split
    · next hc =>
      rw [if_pos hc] at h
      exact ih h
    · next hc =>
      rw [if_neg hc, Bool.and_eq_true] at h
      rw [Bool.and_eq_true]
      exact ⟨h.1, ih h.2⟩

/-- Without a hyphen at its end the text is one of the format. -/
theorem matches_of_spaced (h : spaced b cs = true) (hne : b = true ∨ cs ≠ [])
    (hlast : ∀ c ∈ cs.getLast?, c ≠ '-') : matchesSlugFormat b cs = true := by
  induction cs generalizing b with
  | nil =>
    rcases hne with rfl | hne
    · rfl
    · exact absurd rfl hne
  | cons c cs ih =>
    have hlast' : ∀ d ∈ cs.getLast?, d ≠ '-' := by
      intro d hd
      refine hlast d ?_
      rw [List.getLast?_cons, Option.mem_def.mp hd]
      rfl
    rw [spaced] at h
    rw [matchesSlugFormat]
    split
    · next hc =>
      rw [if_pos hc] at h
      exact ih h (.inl rfl) hlast'
    · next hc =>
      rw [if_neg hc, Bool.and_eq_true, Bool.and_eq_true, beq_iff_eq] at h
      obtain ⟨⟨rfl, hb⟩, hrest⟩ := h
      -- a hyphen is not the last character
      have hcs : cs ≠ [] := by
        rintro rfl
        exact hlast '-' rfl rfl
      rw [hb, ih hrest (.inr hcs) hlast']
      rfl

theorem matches_append (h : matchesSlugFormat b cs = true) (h' : matchesSlugFormat false ds = true) :
    matchesSlugFormat b (cs ++ '-' :: ds) = true := by
  induction cs generalizing b with
  | nil =>
    have hb : b = true := h
    have hhyphen : isSlugChar '-' = false := by decide
    rw [List.nil_append, matchesSlugFormat, hhyphen, h', hb]
    rfl
  | cons c cs ih =>
    rw [matchesSlugFormat] at h
    rw [List.cons_append, matchesSlugFormat]
    split
    · next hc =>
      rw [if_pos hc] at h
      exact ih h
    · next hc =>
      rw [if_neg hc, Bool.and_eq_true] at h
      rw [Bool.and_eq_true]
      exact ⟨h.1, ih h.2⟩

theorem matches_word (hne : b = true ∨ cs ≠ []) (h : ∀ c ∈ cs, isSlugChar c = true) :
    matchesSlugFormat b cs = true := by
  induction cs generalizing b with
  | nil =>
    rcases hne with rfl | hne
    · rfl
    · exact absurd rfl hne
  | cons c cs ih =>
    rw [matchesSlugFormat, if_pos (h c List.mem_cons_self)]
    exact ih (.inl rfl) fun d hd => h d (List.mem_cons_of_mem c hd)

/-! ## Trimming -/

theorem trimHyphensRight_append (cs : List Char) :
    ∃ hyphens, cs = trimHyphensRight cs ++ hyphens := by
  refine ⟨(cs.reverse.takeWhile fun c => c == '-').reverse, ?_⟩
  rw [trimHyphensRight, ← List.reverse_append, List.takeWhile_append_dropWhile, List.reverse_reverse]

theorem trimHyphensRight_getLast (cs : List Char) : ∀ c ∈ (trimHyphensRight cs).getLast?, c ≠ '-' := by
  intro c hc
  rw [trimHyphensRight, List.getLast?_reverse] at hc
  have h := List.head?_dropWhile_not (fun c : Char => c == '-') cs.reverse
  rw [Option.mem_def.mp hc] at h
  exact beq_eq_false_iff_ne.mp h

/-- What starts with a character of a word is not trimmed away. -/
theorem trimHyphensRight_ne_nil (hc : c ≠ '-') : trimHyphensRight (c :: cs) ≠ [] := by
  intro h
  obtain ⟨hyphens, hcs⟩ := trimHyphensRight_append (c :: cs)
  have hempty : (c :: cs).reverse.dropWhile (fun c => c == '-') = [] := List.reverse_eq_nil_iff.mp h
  have hall := List.dropWhile_eq_nil_iff.mp hempty c (by simp)
  exact hc (beq_iff_eq.mp hall)

theorem spaced_head (h : spaced false (c :: cs) = true) : c ≠ '-' := by
  rintro rfl
  have hhyphen : isSlugChar '-' = false := by decide
  rw [spaced, hhyphen] at h
  exact absurd h (by simp)

/-- A text that starts with a word is one of the format once it is trimmed. -/
theorem matches_trimHyphensRight (h : spaced false cs = true) (hne : cs ≠ []) :
    matchesSlugFormat false (trimHyphensRight cs) = true := by
  cases cs with
  | nil => exact absurd rfl hne
  | cons c cs =>
    obtain ⟨hyphens, hcs⟩ := trimHyphensRight_append (c :: cs)
    have hspaced := h
    rw [hcs] at hspaced
    exact matches_of_spaced (spaced_of_append hspaced) (.inr (trimHyphensRight_ne_nil (spaced_head h)))
      (trimHyphensRight_getLast _)

theorem spaced_hyphenate (hyphen : Bool) (cs : List Char) :
    spaced (!hyphen) (hyphenate hyphen cs) = true := by
  induction cs generalizing hyphen with
  | nil => rfl
  | cons c cs ih =>
    have hhyphen : isSlugChar '-' = false := by decide
    rw [hyphenate]
    split
    · next hc =>
      rw [spaced, if_pos hc]
      exact ih false
    · split
      · next hwritten =>
        rw [hwritten]
        exact ih true
      · next hwritten =>
        rw [Bool.not_eq_true] at hwritten
        have hrest : spaced false (hyphenate true cs) = true := ih true
        rw [spaced, hhyphen, hwritten, hrest]
        rfl

/-- Hyphens at the start are dropped, and there was at most one. -/
theorem spaced_dropWhile (h : spaced true cs = true) :
    spaced false (cs.dropWhile fun c => c == '-') = true := by
  cases cs with
  | nil => rfl
  | cons c cs =>
    by_cases hc : c = '-'
    · have hhyphen : isSlugChar '-' = false := by decide
      rw [hc, spaced, hhyphen, if_neg Bool.false_ne_true, Bool.and_eq_true] at h
      rw [hc, List.dropWhile_cons_of_pos rfl]
      cases cs with
      | nil => rfl
      | cons d ds =>
        rw [List.dropWhile_cons_of_neg (by simpa using spaced_head h.2)]
        exact h.2
    · rw [List.dropWhile_cons_of_neg (by simpa using hc)]
      have hslug : isSlugChar c = true := by
        rw [spaced] at h
        by_contra hnot
        rw [if_neg hnot, Bool.and_eq_true, Bool.and_eq_true, beq_iff_eq] at h
        exact hc h.1.1
      rw [spaced, if_pos hslug] at h ⊢
      exact h

end Formats

/-! ## Slugs -/

theorem matches_slugify (env : Environment) (name : String) :
    matchesSlugFormat false (slugify env name) = true := by
  rw [slugify]
  split
  · decide
  · next hne =>
    refine matches_trimHyphensRight (spaced_dropWhile (spaced_hyphenate false _)) fun hempty => ?_
    refine hne ?_
    rw [trimHyphens, hempty]
    rfl

theorem matches_ne_nil {cs : List Char} (h : matchesSlugFormat false cs = true) : cs ≠ [] := by
  rintro rfl
  cases h

theorem slugWithSuffix_toList (baseSlug : List Char) (suffix : Nat) :
    ∃ suffixText : List Char, (suffixText = [] ∨ suffixText = '-' :: suffix.repr.toList) ∧
      (slugWithSuffix baseSlug suffix).toList =
        trimHyphensRight (baseSlug.take (63 - suffixText.length)) ++ suffixText := by
  rw [slugWithSuffix]
  split
  · exact ⟨[], .inl rfl, String.toList_ofList⟩
  · exact ⟨'-' :: suffix.repr.toList, .inr rfl, String.toList_ofList⟩

theorem matches_suffix (suffix : Nat) : matchesSlugFormat false suffix.repr.toList = true := by
  rw [Nat.repr_eq_ofList_toDigits, String.toList_ofList]
  refine matches_word (.inr Nat.toDigits_ne_nil) fun c hc => ?_
  have hdigit := Nat.isDigit_of_mem_toDigits (by decide) (by decide) hc
  rw [Char.isDigit, Bool.and_eq_true, decide_eq_true_eq, decide_eq_true_eq] at hdigit
  rw [isSlugChar, Bool.or_eq_true, Bool.and_eq_true, Bool.and_eq_true, decide_eq_true_eq,
    decide_eq_true_eq, decide_eq_true_eq, decide_eq_true_eq]
  exact .inr ⟨hdigit.1, hdigit.2⟩

theorem length_suffix {suffix : Nat} (h : suffix ≤ 100) : suffix.repr.toList.length ≤ 3 := by
  have hall : ∀ n : Fin 101, n.val.repr.toList.length ≤ 3 := by decide +kernel
  exact hall ⟨suffix, Nat.lt_succ_of_le h⟩

/-- Every slug that is tried has the format of the check and fits into the column. -/
theorem slugWithSuffix_valid {baseSlug : List Char} (hbase : matchesSlugFormat false baseSlug = true)
    {suffix : Nat} (hsuffix : suffix ≤ 100) :
    matchesSlugFormat false (slugWithSuffix baseSlug suffix).toList = true ∧
      (slugWithSuffix baseSlug suffix).length ≤ 63 := by
  obtain ⟨suffixText, hcases, htext⟩ := slugWithSuffix_toList baseSlug suffix
  have hshort : suffixText.length ≤ 4 := by
    rcases hcases with rfl | rfl
    · exact Nat.zero_le 4
    · exact Nat.succ_le_succ (length_suffix hsuffix)
  -- the cut may end with a hyphen, which is trimmed
  have hspaced : spaced false (baseSlug.take (63 - suffixText.length)) = true := by
    have h := spaced_of_matches hbase
    rw [← List.take_append_drop (63 - suffixText.length) baseSlug] at h
    exact spaced_of_append h
  have hne : baseSlug.take (63 - suffixText.length) ≠ [] := by
    intro hempty
    rcases List.take_eq_nil_iff.mp hempty with hzero | hnil
    · lia
    · exact matches_ne_nil hbase hnil
  have hstem := matches_trimHyphensRight hspaced hne
  constructor
  · rw [htext]
    rcases hcases with rfl | rfl
    · rw [List.append_nil]
      exact hstem
    · exact matches_append hstem (matches_suffix suffix)
  · obtain ⟨hyphens, hcut⟩ := trimHyphensRight_append (baseSlug.take (63 - suffixText.length))
    have hlength := congrArg List.length hcut
    rw [List.length_append, List.length_take] at hlength
    rw [← String.length_toList, htext, List.length_append]
    lia

/-! ## The language of the check -/

section Language
open Computability
variable {b : Bool} {cs ds : List Char}

/-- The words of `[a-z0-9]+`. -/
def slugWords : Language Char := {w | w ≠ [] ∧ ∀ c ∈ w, isSlugChar c = true}

/-- The language of `^[a-z0-9]+(?:-[a-z0-9]+)*$`. -/
def slugLanguage : Language Char := slugWords * ({['-']} * slugWords)∗

theorem matches_flatten (h : matchesSlugFormat b cs = true) {words : List (List Char)}
    (hwords : ∀ w ∈ words, w ∈ ({['-']} * slugWords : Language Char)) :
    matchesSlugFormat b (cs ++ words.flatten) = true := by
  induction words generalizing cs with
  | nil =>
    rw [List.flatten_nil, List.append_nil]
    exact h
  | cons w words ih =>
    obtain ⟨hyphen, hhyphen, w', hw', rfl⟩ := Language.mem_mul.mp (hwords w List.mem_cons_self)
    obtain rfl : hyphen = ['-'] := hhyphen
    rw [List.flatten_cons, ← List.append_assoc]
    apply ih
    · exact matches_append h (matches_word (.inr hw'.1) hw'.2)
    · exact fun v hv => hwords v (List.mem_cons_of_mem _ hv)

/-- The automaton reads the rest of a word and then the words after it. -/
theorem matches_split (h : matchesSlugFormat b cs = true) :
    ∃ w rest, cs = w ++ rest ∧ (∀ c ∈ w, isSlugChar c = true) ∧ (b = false → w ≠ []) ∧
      rest ∈ ({['-']} * slugWords : Language Char)∗ := by
  induction cs generalizing b with
  | nil =>
    refine ⟨[], [], rfl, nofun, ?_, Language.nil_mem_kstar _⟩
    rintro rfl
    cases h
  | cons c cs ih =>
    rw [matchesSlugFormat] at h
    split at h
    · next hc =>
      obtain ⟨w, rest, rfl, hw, -, hrest⟩ := ih h
      refine ⟨c :: w, rest, rfl, ?_, fun _ => List.cons_ne_nil c w, hrest⟩
      exact List.forall_mem_cons.mpr ⟨hc, hw⟩
    · rw [Bool.and_eq_true, Bool.and_eq_true, beq_iff_eq] at h
      obtain ⟨⟨rfl, rfl⟩, h⟩ := h
      obtain ⟨w, rest, rfl, hw, hne, hrest⟩ := ih h
      obtain ⟨words, rfl, hwords⟩ := Language.mem_kstar.mp hrest
      have hword : '-' :: w ∈ ({['-']} * slugWords : Language Char) :=
        Language.mem_mul.mpr ⟨['-'], rfl, w, ⟨hne rfl, hw⟩, rfl⟩
      refine ⟨[], '-' :: (w ++ words.flatten), rfl, nofun, nofun, Language.mem_kstar.mpr ?_⟩
      exact ⟨('-' :: w) :: words, rfl, List.forall_mem_cons.mpr ⟨hword, hwords⟩⟩

theorem matchesSlugFormat_iff : matchesSlugFormat false cs = true ↔ cs ∈ slugLanguage := by
  constructor
  · intro h
    obtain ⟨w, rest, rfl, hw, hne, hrest⟩ := matches_split h
    exact Language.mem_mul.mpr ⟨w, ⟨hne rfl, hw⟩, rest, hrest, rfl⟩
  · intro h
    obtain ⟨w, hw, rest, hrest, rfl⟩ := Language.mem_mul.mp h
    obtain ⟨words, rfl, hwords⟩ := Language.mem_kstar.mp hrest
    exact matches_flatten (matches_word (.inr hw.1) hw.2) hwords

end Language

/-- Every slug that is tried for a name is in the language of the check and fits into the column,
whatever the normalisations of the name do; the table refuses no organization for it. -/
theorem slug_format (env : Environment) (name : String) (suffix : Nat) (hlast : suffix ≤ 100) :
    (slugWithSuffix (slugify env name) suffix).toList ∈ slugLanguage ∧
      1 ≤ (slugWithSuffix (slugify env name) suffix).length ∧
      (slugWithSuffix (slugify env name) suffix).length ≤ 63 ∧
      ∀ o : Organization, o.slug = slugWithSuffix (slugify env name) suffix →
        o.validSlug = true := by
  obtain ⟨hmatches, hlength⟩ := slugWithSuffix_valid (matches_slugify env name) hlast
  refine ⟨matchesSlugFormat_iff.mp hmatches, ?_, hlength, fun o ho => ?_⟩
  · rw [← String.length_toList]
    exact List.length_pos_iff.mpr (matches_ne_nil hmatches)
  · rw [Organization.validSlug, ho, hmatches, Bool.true_and, decide_eq_true_eq]
    exact hlength

/-- The cut for the twelfth attempt falls right behind a hyphen. -/
theorem slug_format_cut :
    (slugWithSuffix (slugify Environment.transparent
        (String.ofList (List.replicate 59 'a') ++ " b")) 12).toList ∈ slugLanguage ∧
      1 ≤ (slugWithSuffix (slugify Environment.transparent
        (String.ofList (List.replicate 59 'a') ++ " b")) 12).length ∧
      (slugWithSuffix (slugify Environment.transparent
        (String.ofList (List.replicate 59 'a') ++ " b")) 12).length ≤ 63 ∧
      ∀ o : Organization, o.slug = slugWithSuffix (slugify Environment.transparent
        (String.ofList (List.replicate 59 'a') ++ " b")) 12 → o.validSlug = true :=
  slug_format Environment.transparent _ 12 (by decide)

end ShipFlow.Organizations
