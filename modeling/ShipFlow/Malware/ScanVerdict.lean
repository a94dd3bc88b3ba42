import ShipFlow.Malware.ClamAvMalwareScanner

/-! The answer of the scanner arrives in pieces. Which pieces makes no difference. -/

namespace ShipFlow.Malware
open Files

section Stream
variable {toUtf8 : List UInt8 → String} {seen chunk : List UInt8} {s : ScanStream}

/-- The text that a response stands for. -/
def answer (toUtf8 : List UInt8 → String) (response : List UInt8) : String :=
  match response.findIdx? fun byte => byte == 0 with
  | some terminator => toUtf8 (response.take terminator)
  | none => trim (toUtf8 response)

/-- The promise is settled from the first NUL on, with the text before it. -/
structure Answered (toUtf8 : List UInt8 → String) (seen : List UInt8) (s : ScanStream) : Prop where
  response : s.response = seen
  waiting : (seen.findIdx? fun byte => byte == 0) = none → s.settled = false ∧ s.settlements = []
  terminated : ∀ terminator, (seen.findIdx? fun byte => byte == 0) = some terminator →
    s.settled = true ∧ s.settlements = [.ok (toUtf8 (seen.take terminator))]

theorem answered_initial : Answered toUtf8 [] .initial := by
  constructor
  · rfl
  · exact fun _ => ⟨rfl, rfl⟩
  · intro terminator h
    rw [List.findIdx?_nil] at h
    cases h

theorem finish_settled (outcome : Except String String) (h : s.settled = true) :
    finish outcome s = s := by
  rw [finish, if_pos h]

theorem findIdx?_append_some (chunk : List UInt8) {terminator : Nat} {p : UInt8 → Bool}
    (h : seen.findIdx? p = some terminator) : (seen ++ chunk).findIdx? p = some terminator ∧
      (seen ++ chunk).take terminator = seen.take terminator := by
  have hlt : terminator < seen.length := List.findIdx?_eq_some_iff_findIdx_eq.mp h |>.1
  refine ⟨?_, List.take_append_of_le_length (Nat.le_of_lt hlt)⟩
  rw [List.findIdx?_append, h]
  rfl

/-- What a piece of the response does. -/
theorem Answered.onData (h : Answered toUtf8 seen s)
    (hlength : (seen ++ chunk).length ≤ MAX_RESPONSE_BYTES) :
    Answered toUtf8 (seen ++ chunk) (onData toUtf8 chunk s) := by
  have hsmall : ¬ (s.response ++ chunk).length > MAX_RESPONSE_BYTES := by
    rw [h.response]
    exact Nat.not_lt.mpr hlength
  rw [Malware.onData]
  simp only [if_neg hsmall]
  rw [h.response]
  cases hseen : seen.findIdx? fun byte => byte == 0 with
  | some terminator =>
    -- settled before: a later piece is only added to the response
    obtain ⟨hsettled, hsettlements⟩ := h.terminated terminator hseen
    obtain ⟨hfound, htake⟩ := findIdx?_append_some chunk hseen
    rw [hfound]
    have hsame := finish_settled (s := { s with response := seen ++ chunk })
      (.ok (toUtf8 ((seen ++ chunk).take terminator))) hsettled
    simp only [hsame]
    constructor
    · rfl
    · intro hnone
      rw [hfound] at hnone
      cases hnone
    · intro t ht
      rw [hfound] at ht
      cases ht
      rw [htake]
      exact ⟨hsettled, hsettlements⟩
  | none =>
    obtain ⟨hsettled, hsettlements⟩ := h.waiting hseen
    cases hfound : (seen ++ chunk).findIdx? fun byte => byte == 0 with
    | some terminator =>
      simp only [finish, hsettled, Bool.false_eq_true, if_false, hsettlements, List.nil_append]
      constructor
      · rfl
      · intro hnone
        rw [hfound] at hnone
        cases hnone
      · intro t ht
        rw [hfound] at ht
        cases ht
        exact ⟨rfl, rfl⟩
    | none =>
      constructor
      · rfl
      · exact fun _ => ⟨hsettled, hsettlements⟩
      · intro t ht
        rw [hfound] at ht
        cases ht

theorem Answered.run (h : Answered toUtf8 seen s) (chunks : List (List UInt8))
    (hlength : (seen ++ chunks.flatten).length ≤ MAX_RESPONSE_BYTES) :
    Answered toUtf8 (seen ++ chunks.flatten)
      ((chunks.map SocketEvent.data).foldl (onEvent toUtf8) s) := by
  induction chunks generalizing seen s with
  | nil =>
    rw [List.flatten_nil, List.append_nil]
    exact h
  | cons chunk chunks ih =>
    rw [List.flatten_cons, ← List.append_assoc] at hlength ⊢
    have hchunk : (seen ++ chunk).length ≤ MAX_RESPONSE_BYTES := by
      rw [List.length_append] at hlength
      lia
    exact ih (h.onData hchunk) hlength

theorem Answered.end (h : Answered toUtf8 seen s) :
    (onEvent toUtf8 s .end).settlements = [.ok (answer toUtf8 seen)] := by
  rw [onEvent, answer]
  cases hseen : seen.findIdx? fun byte => byte == 0 with
  | some terminator =>
    obtain ⟨hsettled, hsettlements⟩ := h.terminated terminator hseen
    rw [if_pos hsettled, hsettlements]
  | none =>
    obtain ⟨hsettled, hsettlements⟩ := h.waiting hseen
    rw [hsettled, h.response, finish, hsettled, hsettlements]
    rfl

end Stream

/-! ## Words at the end of a text -/

/-- The text ends with the word, in upper or lower case. -/
def EndsInWord (word : String) (text : List Char) : Prop :=
  ∃ before last, text = before ++ last ∧ last.map Char.toUpper = word.toList ∧
    ∀ c ∈ before.getLast?, isWordCharacter c = false

theorem isWordCharacter_of_toUpper {c first : Char} (hfirst : first.isAlpha = true)
    (h : c.toUpper = first) : isWordCharacter c = true := by
  have halpha : c.isAlpha = true := by
    by_cases hlower : 'a'.val ≤ c.val ∧ c.val ≤ 'z'.val
    · have hc : c.isLower = true :=
        Bool.and_eq_true_iff.mpr ⟨decide_eq_true hlower.1, decide_eq_true hlower.2⟩
      exact Bool.or_eq_true_iff.mpr (.inr hc)
    · have hsame : c.toUpper = c := dif_neg hlower
      rw [← hsame, h]
      exact hfirst
  rw [isWordCharacter, Char.isAlphanum, halpha, Bool.true_or, Bool.true_or]

/-- In front of a letter a boundary is the start of the text or a character outside of `\w`. -/
theorem wordBoundary_iff {before rest : List Char} {c : Char} (hc : isWordCharacter c = true) :
    wordBoundary before (c :: rest) = true ↔
      ∀ d ∈ before.getLast?, isWordCharacter d = false := by
  rw [wordBoundary, List.head?_cons, Option.any_some, hc, bne_iff_ne, ne_eq, Bool.not_eq_true]
  cases before.getLast? with
  | none => simp only [Option.any_none, Option.mem_def, reduceCtorEq, false_implies, implies_true]
  | some d => simp only [Option.any_some, Option.mem_def, Option.some.injEq, forall_eq']

theorem endsWithWord_iff {word : String} {text : List Char} {first : Char} {rest : List Char}
    (hword : word.toList = first :: rest) (hfirst : first.isAlpha = true)
    (hupper : word.toList.map Char.toUpper = word.toList) :
    endsWithWord word text = true ↔ EndsInWord word text := by
  have hmatch (last : List Char) :
      sameIgnoringCase last word.toList = true ↔ last.map Char.toUpper = word.toList := by
    rw [sameIgnoringCase, beq_iff_eq, hupper]
  -- what matches the word starts with a letter
  have hboundary (before last : List Char) (h : last.map Char.toUpper = word.toList) :
      wordBoundary before last = true ↔ ∀ d ∈ before.getLast?, isWordCharacter d = false := by
    rw [hword] at h
    obtain ⟨c, cs, rfl, hc, -⟩ := List.map_eq_cons_iff.mp h
    exact wordBoundary_iff (isWordCharacter_of_toUpper hfirst hc)
  rw [endsWithWord, List.any_eq_true]
  constructor
  · rintro ⟨i, -, hi⟩
    rw [Bool.and_eq_true] at hi
    have hlast := (hmatch (text.drop i)).mp hi.2
    exact ⟨text.take i, text.drop i, (List.take_append_drop i text).symm, hlast,
      (hboundary _ _ hlast).mp hi.1⟩
  · rintro ⟨before, last, rfl, hlast, hbefore⟩
    refine ⟨before.length, ?_, ?_⟩
    · rw [List.mem_range, List.length_append]
      lia
    · rw [List.take_left, List.drop_left, Bool.and_eq_true]
      exact ⟨(hboundary before last hlast).mpr hbefore, (hmatch last).mpr hlast⟩

theorem verdict_clean (text : String) :
    verdict text = .clean ↔ EndsInWord "OK" text.toList := by
  rw [← endsWithWord_iff rfl rfl rfl, verdict]
  split
  · next h => exact iff_of_true rfl h
  · next h =>
    refine iff_of_false (fun hclean => ?_) h
    split at hclean
    · cases hclean
    · split at hclean <;> cases hclean

/-- However the response is cut into pieces, the promise is settled once and with the same
text. The file is clean only if the text ends with the word OK, in upper or lower case. -/
theorem scan_segmentation (toUtf8 : List UInt8 → String) (response : List UInt8)
    (hlength : response.length ≤ 16384) (chunks : List (List UInt8))
    (hchunks : chunks.flatten = response) :
    (scanStream toUtf8 (chunks.map .data ++ [.end])).settlements =
        [.ok (answer toUtf8 response)] ∧
      scan toUtf8 (chunks.map .data ++ [.end]) = [.ok (verdict (answer toUtf8 response))] ∧
      (scan toUtf8 (chunks.map .data ++ [.end]) = [.ok .clean] ↔
        EndsInWord "OK" (answer toUtf8 response).toList) := by
  have hsettled : (scanStream toUtf8 (chunks.map .data ++ [.end])).settlements =
      [.ok (answer toUtf8 response)] := by
    have hinitial : Answered toUtf8 [] .initial := answered_initial
    have hrun := hinitial.run chunks (by
      rw [List.nil_append, hchunks]
      exact hlength)
    rw [List.nil_append, hchunks] at hrun
    rw [scanStream, List.foldl_append]
    exact hrun.end
  have hscan : scan toUtf8 (chunks.map .data ++ [.end]) =
      [.ok (verdict (answer toUtf8 response))] := by
    rw [scan, hsettled]
    rfl
  refine ⟨hsettled, hscan, ?_⟩
  rw [hscan, List.cons_eq_cons, Except.ok.injEq, verdict_clean]
  exact and_iff_left rfl

/-- The text of an ASCII response. -/
def asciiText (bytes : List UInt8) : String :=
  String.ofList (bytes.map fun byte => Char.ofNat byte.toNat)

theorem scan_segmentation_cut :
    scan asciiText [.data (ascii "stre"), .data (ascii "am: O"), .data (ascii "K" ++ [0]), .end] =
      [.ok (verdict (answer asciiText (ascii "stream: OK" ++ [0])))] :=
  (scan_segmentation asciiText (ascii "stream: OK" ++ [0]) (by decide)
    [ascii "stre", ascii "am: O", ascii "K" ++ [0]] (by decide)).2.1

theorem scan_clean_lower :
    scan asciiText [.data (ascii "stream: ok" ++ [0]), .end] = [.ok .clean] ∧
      answer asciiText (ascii "stream: ok" ++ [0]) = "stream: ok" ∧
      ¬ "OK".toList <:+ (answer asciiText (ascii "stream: ok" ++ [0])).toList := by
  decide +kernel

end ShipFlow.Malware
