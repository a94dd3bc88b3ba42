import ShipFlow.Notifications.NotificationsService

/-! The cursor of a notification is read back as it was written. -/

namespace ShipFlow.Notifications
open Script Encoding

/-! ## Identifiers -/

theorem hexText_add (width width' n : Nat) :
    hexText (width + width') n = hexText width (n / 16 ^ width') ++ hexText width' n := by
  induction width' generalizing n with
  | zero => simp [hexText]
  | succ width' ih =>
    rw [← Nat.add_assoc, hexText, hexText, ih, Nat.div_div_eq_div_mul, Nat.pow_succ',
      List.append_assoc]

theorem length_hexText (width n : Nat) : (hexText width n).length = width := by
  induction width generalizing n with
  | zero => rfl
  | succ width ih => rw [hexText, List.length_append, ih, List.length_singleton]

theorem mem_hexText {width n : Nat} {c : Char} (h : c ∈ hexText width n) : c ∈ hexDigits := by
  have hall : ∀ k : Fin 16, hexDigit k ∈ hexDigits := by decide
  induction width generalizing n with
  | zero => cases h
  | succ width ih =>
    rcases List.mem_append.mp h with h | h
    · exact ih h
    · rw [List.mem_singleton.mp h]
      exact hall ⟨n % 16, Nat.mod_lt n (by decide)⟩

/-- The digits are read to the number modulo what they can hold. -/
theorem hexText_value (width n : Nat) : ∃ digits, (hexText width n).mapM hexValue = some digits ∧
    ∀ a, digits.foldl (fun n digit => 16 * n + digit) a = a * 16 ^ width + n % 16 ^ width := by
  induction width generalizing n with
  | zero => exact ⟨[], rfl, fun a => by simp [Nat.mod_one]⟩
  | succ width ih =>
    obtain ⟨digits, hdigits, hvalue⟩ := ih (n / 16)
    have hlast := hexValue_hexDigit (Nat.mod_lt n (show 0 < 16 by decide))
    refine ⟨digits ++ [n % 16], ?_, fun a => ?_⟩
    · rw [hexText, List.mapM_append, hdigits, List.mapM_cons, hlast]
      rfl
    · rw [List.foldl_append, hvalue, Nat.pow_succ', Nat.mod_mul]
      simp only [List.foldl_cons, List.foldl_nil]
      ring

theorem filter_uuidText (n : Nat) : (uuidText n).filter (· ≠ '-') = hexText 32 n := by
  have hkept (width n : Nat) : (hexText width n).filter (· ≠ '-') = hexText width n := by
    refine List.filter_eq_self.mpr fun c hc => ?_
    have hall : hexDigits.all (fun c => decide (c ≠ '-')) = true := by decide
    exact List.all_eq_true.mp hall c (mem_hexText hc)
  have hminus : decide ('-' ≠ '-') = false := rfl
  simp only [uuidText, List.filter_append, List.filter_cons, hkept, hminus, Bool.false_eq_true,
    if_false]
  rw [show 32 = 8 + (4 + (4 + (4 + 12))) from rfl, hexText_add, hexText_add 4, hexText_add 4,
    hexText_add 4]
  simp only [List.append_assoc]

theorem uuidText_ascii {n : Nat} {c : Char} (h : c ∈ uuidText n) : c ∈ '-' :: hexDigits := by
  simp only [uuidText, List.mem_append, List.mem_cons] at h
  rw [List.mem_cons]
  rcases h with ((((h | h | h) | h | h) | h | h) | h | h)
  · exact .inr (mem_hexText h)
  · exact .inl h
  · exact .inr (mem_hexText h)
  · exact .inl h
  · exact .inr (mem_hexText h)
  · exact .inl h
  · exact .inr (mem_hexText h)
  · exact .inl h
  · exact .inr (mem_hexText h)

theorem length_uuidText (n : Nat) : (uuidText n).length = 36 := by
  simp only [uuidText, List.length_append, List.length_cons, length_hexText]

/-- A character that a string literal has as it is. -/
def Plain (c : Char) : Prop :=
  0x20 ≤ c.toNat ∧ c.toNat < 0x80 ∧ c.toNat ≠ 0x22 ∧ c.toNat ≠ 0x5c

instance (c : Char) : Decidable (Plain c) := inferInstanceAs (Decidable (_ ∧ _ ∧ _ ∧ _))

theorem Plain.unit {c : Char} (h : Plain c) : Json.plain (UInt16.ofNat c.toNat) := by
  obtain ⟨hlow, hhigh, hquote, hslash⟩ := h
  have hunit : (UInt16.ofNat c.toNat).toNat = c.toNat := by
    rw [UInt16.toNat_ofNat']
    omega
  simp only [Json.plain, UInt16.le_iff_toNat_le, UInt16.lt_iff_toNat_lt, ne_eq, ← UInt16.toNat_inj,
    hunit, UInt16.reduceToNat]
  exact ⟨hlow, hhigh, hquote, hslash⟩

theorem plain_uuidText {n : Nat} {c : Char} (h : c ∈ uuidText n) : Plain c := by
  have hall : ('-' :: hexDigits).all (fun c => decide (Plain c)) = true := by decide
  exact of_decide_eq_true (List.all_eq_true.mp hall c (uuidText_ascii h))

theorem uuidValue_uuidText {n : Nat} (h : n < 2 ^ 128) :
    uuidValue (text (String.ofList (uuidText n))) = some n := by
  have hunits : ∀ c ∈ uuidText n, c.toNat < 0xd800 := fun c hc =>
    Nat.lt_trans (plain_uuidText hc).2.1 (by decide)
  obtain ⟨digits, hdigits, hvalue⟩ := hexText_value 32 n
  rw [uuidValue, scalarValues_text hunits, filter_uuidText, hdigits, Option.map_some, hvalue,
    Nat.zero_mul, Nat.zero_add, Nat.mod_eq_of_lt (Nat.lt_of_lt_of_eq h (by norm_num))]

/-! ## Dates -/

theorem plain_padStart {width n : Nat} {c : Char} (hwidth : 0 < width) (h : n < 10 ^ width)
    (hc : c ∈ (Billing.padStart width n).toList) : Plain c := by
  have hdigit := (padStart_spec hwidth h).2.1 c hc
  rw [Char.isDigit, Bool.and_eq_true, decide_eq_true_iff, decide_eq_true_iff] at hdigit
  change 48 ≤ c.val.toNat ∧ c.val.toNat ≤ 57 at hdigit
  unfold Plain Char.toNat
  omega

theorem plain_yearText {year : Int} (hyear : year.natAbs < 1000000) {c : Char}
    (hc : c ∈ (yearText year).toList) : Plain c := by
  rw [yearText] at hc
  split at hc
  · next hfour =>
    simp only [Bool.and_eq_true, decide_eq_true_iff] at hfour
    exact plain_padStart (by decide) (show year.toNat < 10 ^ 4 by omega) hc
  · rw [String.toList_append, List.mem_append] at hc
    rcases hc with hc | hc
    · split at hc
      · rw [List.mem_singleton.mp hc]
        decide
      · rw [List.mem_singleton.mp hc]
        decide
    · exact plain_padStart (by decide) (show year.natAbs < 10 ^ 6 from hyear) hc

theorem length_yearText {year : Int} (hyear : year.natAbs < 1000000) :
    (yearText year).toList.length ≤ 7 := by
  rw [yearText]
  split
  · next hfour =>
    simp only [Bool.and_eq_true, decide_eq_true_iff] at hfour
    have hlength := (padStart_spec (by decide) (show year.toNat < 10 ^ 4 by omega)).1
    omega
  · have hlength := (padStart_spec (by decide) (show year.natAbs < 10 ^ 6 from hyear)).1
    rw [String.toList_append, List.length_append, hlength]
    split <;> decide

theorem plain_toISOString {t : Time} (h : IsDate t) {c : Char}
    (hc : c ∈ (Billing.toISOString t).toList) : Plain c := by
  obtain ⟨f, hf, htext, -⟩ := toISOString_fields h
  have htwo {n : Nat} (hn : n < 100) {c : Char} (hc : c ∈ (Billing.padStart 2 n).toList) : Plain c :=
    plain_padStart (by decide) hn hc
  have hsigns : ['-', 'T', ':', '.', 'Z'].all (fun c => decide (Plain c)) = true := by decide
  replace hsigns := fun c hc => of_decide_eq_true (List.all_eq_true.mp hsigns c hc)
  simp only [htext, Fields.text, List.mem_append, List.mem_cons, List.not_mem_nil, or_false] at hc
  rcases hc with hc | rfl | hc | rfl | hc | rfl | hc | rfl | hc | rfl | hc | rfl | hc | rfl
  · exact plain_yearText hf.year hc
  · exact hsigns _ (by simp)
  · exact htwo hf.month hc
  · exact hsigns _ (by simp)
  · exact htwo hf.day hc
  · exact hsigns _ (by simp)
  · exact htwo (Nat.lt_trans hf.hour (by decide)) hc
  · exact hsigns _ (by simp)
  · exact htwo (Nat.lt_trans hf.minute (by decide)) hc
  · exact hsigns _ (by simp)
  · exact htwo (Nat.lt_trans hf.second (by decide)) hc
  · exact hsigns _ (by simp)
  · exact plain_padStart (by decide) hf.ms hc
  · exact hsigns _ (by simp)

theorem length_toISOString {t : Time} (h : IsDate t) :
    (Billing.toISOString t).toList.length ≤ 27 := by
  obtain ⟨f, hf, htext, -⟩ := toISOString_fields h
  have hyear := length_yearText hf.year
  have htwo {n : Nat} (hn : n < 100) : (Billing.padStart 2 n).toList.length = 2 :=
    (padStart_spec (by decide) hn).1
  have hthree : (Billing.padStart 3 f.ms).toList.length = 3 := (padStart_spec (by decide) hf.ms).1
  simp only [htext, Fields.text, List.length_append, List.length_cons, List.length_nil,
    htwo hf.month, htwo hf.day, htwo (Nat.lt_trans hf.hour (by decide)),
    htwo (Nat.lt_trans hf.minute (by decide)), htwo (Nat.lt_trans hf.second (by decide)), hthree]
  omega

theorem newDate_toISOString (p : Platform) {t : Time} (h : IsDate t) :
    newDate p (text (Billing.toISOString t)) = some t := by
  have hunits : ∀ c ∈ (Billing.toISOString t).toList, c.toNat < 0xd800 := fun c hc =>
    Nat.lt_trans (plain_toISOString h hc).2.1 (by decide)
  have hchars : scalarValues (text (Billing.toISOString t)) = (Billing.toISOString t).toList := by
    conv_lhs => rw [← String.ofList_toList (s := Billing.toISOString t)]
    exact scalarValues_text hunits
  rw [newDate, hchars, parseIso_toISOString h, Option.some_or, Option.filter_some, if_pos]
  obtain ⟨hfrom, hto⟩ := h
  rw [Bool.and_eq_true, decide_eq_true_iff, decide_eq_true_iff]
  exact ⟨hfrom, hto⟩

/-! ## Cursors -/

section Cursors
variable {p : Platform} {t : Time} {id : Nat}

/-- The text of a cursor before its encoding. -/
def cursorJson (createdAt id : List Char) : List Char :=
  ['\x7b', '"', 'c', 'r', 'e', 'a', 't', 'e', 'd', 'A', 't', '"', ':', '"'] ++ createdAt ++
    ['"', ',', '"', 'i', 'd', '"', ':', '"'] ++ id ++ ['"', '\x7d']

theorem text_plain {cs : List Char} (h : ∀ c ∈ cs, Plain c) :
    text (String.ofList cs) = cs.map (fun c => UInt16.ofNat c.toNat) ∧
      Json.quoteUnits (text (String.ofList cs)) = text (String.ofList cs) := by
  have htext := text_ofList fun c hc => Nat.lt_trans (h c hc).2.1 (by decide)
  refine ⟨htext, Json.quoteUnits_plain fun u hu => ?_⟩
  rw [htext] at hu
  obtain ⟨c, hc, rfl⟩ := List.mem_map.mp hu
  exact (h c hc).unit

theorem cursorJson_ascii {createdAt id : List Char} (hcreated : ∀ c ∈ createdAt, Plain c)
    (hid : ∀ c ∈ id, Plain c) : ∀ c ∈ cursorJson createdAt id, c.toNat < 0x80 := by
  intro c hc
  simp only [cursorJson, List.mem_append, or_assoc] at hc
  have hfixed : (['\x7b', '"', 'c', 'r', 'e', 'a', 't', 'e', 'd', 'A', 't', '"', ':', '"'] ++
      ['"', ',', '"', 'i', 'd', '"', ':', '"'] ++ ['"', '\x7d']).all
        (fun c => decide (c.toNat < 0x80)) = true := by decide
  replace hfixed := fun c hc => of_decide_eq_true (List.all_eq_true.mp hfixed c hc)
  rcases hc with hc | hc | hc | hc | hc
  · exact hfixed c (List.mem_append_left _ (List.mem_append_left _ hc))
  · exact (hcreated c hc).2.1
  · exact hfixed c (List.mem_append_left _ (List.mem_append_right _ hc))
  · exact (hid c hc).2.1
  · exact hfixed c (List.mem_append_right _ hc)

theorem stringify_cursor {createdAt id : List Char} (hcreated : ∀ c ∈ createdAt, Plain c)
    (hid : ∀ c ∈ id, Plain c) :
    Json.stringify [(text "createdAt", text (String.ofList createdAt)),
      (text "id", text (String.ofList id))] = text (String.ofList (cursorJson createdAt id)) := by
  have hall := cursorJson_ascii hcreated hid
  have hcreatedAt : Json.quote (text "createdAt") =
      ['"', 'c', 'r', 'e', 'a', 't', 'e', 'd', 'A', 't', '"'].map fun c => UInt16.ofNat c.toNat := by
    decide
  have hname : Json.quote (text "id") = ['"', 'i', 'd', '"'].map fun c => UInt16.ofNat c.toNat := by
    decide
  rw [text_ofList fun c hc => Nat.lt_trans (hall c hc) (by decide), Json.stringify,
    Json.stringifyMembers, Json.stringifyMembers, hcreatedAt, hname, Json.quote, Json.quote,
    (text_plain hcreated).2, (text_plain hid).2, (text_plain hcreated).1, (text_plain hid).1]
  · simp only [cursorJson, List.map_append, List.append_assoc, List.cons_append, List.map_cons]
    rfl
  · exact fun h => absurd h (List.cons_ne_nil _ _)

/-- The two properties of a cursor. -/
theorem stringProperty_cursor (createdAt id : Text) :
    let decoded := Value.object (Json.defineAll [] [(text "createdAt", createdAt), (text "id", id)])
    stringProperty decoded (text "createdAt") = some createdAt ∧
      stringProperty decoded (text "id") = some id := by
  have hcreatedAt : arrayIndex (text "createdAt") = none := by decide
  have hid : arrayIndex (text "id") = none := by decide
  have hne : (text "createdAt" == text "id") = false := by decide
  simp [Json.defineAll, defineProperty, hcreatedAt, hid, hne, stringProperty]

/-- The parts of a stored notification's cursor. -/
theorem encodeCursor_eq (ht : IsDate t) :
    encodeCursor ⟨t, text (String.ofList (uuidText id))⟩ = Base64Url.encode (Utf8.encode (text
      (String.ofList (cursorJson (Billing.toISOString t).toList (uuidText id))))) := by
  have hjson := stringify_cursor (fun c hc => plain_toISOString ht hc)
    (fun c (hc : c ∈ uuidText id) => plain_uuidText hc)
  rw [String.ofList_toList] at hjson
  rw [encodeCursor, hjson]

/-- What the service encodes it decodes to the same position. -/
theorem decodeCursor_encodeCursor (ht : IsDate t)
    (huuid : p.isUUID (text (String.ofList (uuidText id))) = true) :
    decodeCursor p (encodeCursor ⟨t, text (String.ofList (uuidText id))⟩) =
      .ok ⟨t, text (String.ofList (uuidText id))⟩ := by
  have hjson := stringify_cursor (fun c hc => plain_toISOString ht hc)
    (fun c (hc : c ∈ uuidText id) => plain_uuidText hc)
  have hascii := cursorJson_ascii (fun c hc => plain_toISOString ht hc)
    (fun c (hc : c ∈ uuidText id) => plain_uuidText hc)
  rw [String.ofList_toList] at hjson
  obtain ⟨hcreated, hid⟩ := stringProperty_cursor (text (Billing.toISOString t))
    (text (String.ofList (uuidText id)))
  rw [decodeCursor, encodeCursor_eq ht, Base64Url.decode_encode, Utf8.decode_encode hascii, ← hjson,
    Json.parse_stringify]
  simp only [hcreated, hid, newDate_toISOString p ht, huuid, if_true]

/-- A cursor keeps the bounds that the next request checks it against. -/
theorem length_encodeCursor (ht : IsDate t) :
    0 < (encodeCursor ⟨t, text (String.ofList (uuidText id))⟩).length ∧
      (encodeCursor ⟨t, text (String.ofList (uuidText id))⟩).length ≤ 500 := by
  have hascii := cursorJson_ascii (fun c hc => plain_toISOString ht hc)
    (fun c (hc : c ∈ uuidText id) => plain_uuidText hc)
  have hdate := length_toISOString ht
  have hlength : (cursorJson (Billing.toISOString t).toList (uuidText id)).length =
      (Billing.toISOString t).toList.length + 60 := by
    simp only [cursorJson, List.length_append, List.length_cons, List.length_nil, length_uuidText]
    omega
  rw [encodeCursor_eq ht, Base64Url.length_encode, Utf8.encode_ascii hascii, List.length_map,
    hlength]
  omega

end Cursors
end ShipFlow.Notifications
