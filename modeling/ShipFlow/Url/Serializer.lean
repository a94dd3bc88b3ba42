import ShipFlow.Url.DotSegments

/-! What the URL parser makes of its own output. -/

namespace Url

/-! ## Characters -/

/-- The characters that stand for themselves everywhere: a percent sign and digits. -/
def encodedChars : List Char := '%' :: hexDigits

theorem encodedChars_plain : ∀ c ∈ encodedChars,
    pathSet c = false ∧ specialQuerySet c = false ∧ fragmentSet c = false ∧ isSlash c = false := by
  simp [encodedChars, hexDigits, pathSet, specialQuerySet, querySet, fragmentSet, c0ControlSet,
    isSlash]

section Characters
variable {set : Char → Bool} {cs : List Char} {c : Char}

theorem hexDigit_mem (n : Nat) : hexDigit n ∈ encodedChars := by
  rw [hexDigit, List.getD_eq_getElem?_getD]
  cases h : hexDigits[n]? with
  | none => decide
  | some digit => exact List.mem_cons_of_mem _ (List.mem_of_getElem? h)

theorem mem_percentEncode (h : c ∈ percentEncode set cs) :
    c ∈ encodedChars ∨ (c ∈ cs ∧ set c = false) := by
  obtain ⟨d, hd, hc⟩ := List.mem_flatMap.mp h
  split at hc
  · obtain ⟨byte, -, hbyte⟩ := List.mem_flatMap.mp hc
    simp only [percentEncodeByte, List.mem_cons, List.not_mem_nil, or_false] at hbyte
    rcases hbyte with rfl | rfl | rfl
    · exact .inl List.mem_cons_self
    · exact .inl (hexDigit_mem _)
    · exact .inl (hexDigit_mem _)
  · next hset =>
    rw [List.mem_singleton.mp hc]
    exact .inr ⟨hd, Bool.not_eq_true _ ▸ hset⟩

theorem percentEncode_self (h : ∀ c ∈ cs, set c = false) : percentEncode set cs = cs := by
  induction cs with
  | nil => rfl
  | cons d ds ih =>
    rw [percentEncode, List.flatMap_cons, h d List.mem_cons_self]
    exact congrArg (d :: ·) (ih fun c hc => h c (List.mem_cons_of_mem d hc))

theorem percentEncode_path (h : c ∈ percentEncode pathSet cs) : pathSet c = false := by
  rcases mem_percentEncode h with hc | hc
  · exact (encodedChars_plain c hc).1
  · exact hc.2

theorem percentEncode_query (h : c ∈ percentEncode specialQuerySet cs) :
    specialQuerySet c = false := by
  rcases mem_percentEncode h with hc | hc
  · exact (encodedChars_plain c hc).2.1
  · exact hc.2

theorem percentEncode_fragment (h : c ∈ percentEncode fragmentSet cs) : fragmentSet c = false := by
  rcases mem_percentEncode h with hc | hc
  · exact (encodedChars_plain c hc).2.2.1
  · exact hc.2

def Visible (c : Char) : Prop := 0x20 < c.toNat ∧ c.toNat ≤ 0x7e

theorem visible_of_sets (hc0 : c0ControlSet c = false) (hspace : c ≠ ' ') : Visible c := by
  rw [c0ControlSet, Bool.or_eq_false_iff, decide_eq_false_iff_not, decide_eq_false_iff_not] at hc0
  have hspace : c.toNat ≠ 0x20 := fun h => hspace (Char.ext (UInt32.toNat_inj.mp h))
  exact ⟨by lia, by lia⟩

theorem visible_of_fragment (h : fragmentSet c = false) : Visible c := by
  rw [fragmentSet, Bool.or_eq_false_iff] at h
  refine visible_of_sets h.1 ?_
  rintro rfl
  exact absurd h.2 (by decide)

theorem visible_of_query (h : querySet c = false) : Visible c ∧ c ≠ '#' := by
  rw [querySet, Bool.or_eq_false_iff] at h
  refine ⟨visible_of_sets h.1 ?_, ?_⟩
  · rintro rfl
    exact absurd h.2 (by decide)
  · rintro rfl
    exact absurd h.2 (by decide)

theorem visible_of_specialQuery (h : specialQuerySet c = false) : Visible c ∧ c ≠ '#' := by
  rw [specialQuerySet, Bool.or_eq_false_iff] at h
  exact visible_of_query h.1

theorem visible_of_path (h : pathSet c = false) : Visible c ∧ c ≠ '#' ∧ c ≠ '?' := by
  rw [pathSet, Bool.or_eq_false_iff] at h
  refine ⟨(visible_of_query h.1).1, (visible_of_query h.1).2, ?_⟩
  rintro rfl
  exact absurd h.2 (by decide)

theorem clean_visible (h : ∀ c ∈ cs, Visible c) : clean cs = cs := by
  have hkeep (ds : List Char) (hds : ∀ c ∈ ds, Visible c) :
      ds.dropWhile isControlOrSpace = ds := by
    cases ds with
    | nil => rfl
    | cons d ds =>
      have hd : isControlOrSpace d = false := by
        rw [isControlOrSpace, decide_eq_false_iff_not, Nat.not_le]
        exact (hds d List.mem_cons_self).1
      rw [List.dropWhile_cons, hd]
      rfl
  rw [clean, hkeep cs h, hkeep _ fun c hc => h c (List.mem_reverse.mp hc), List.reverse_reverse,
    List.filter_eq_self]
  intro c hc
  have hlow := (h c hc).1
  simp only [isTabOrNewline, Bool.not_eq_true', Bool.or_eq_false_iff, beq_eq_false_iff_ne, ne_eq]
  refine ⟨⟨?_, ?_⟩, ?_⟩
  all_goals
    rintro rfl
    exact absurd hlow (by decide)

end Characters

/-! ## Normal records -/

/-- A segment that the parser leaves as it is. -/
structure Plain (segment : List Char) : Prop where
  set : ∀ c ∈ segment, pathSet c = false
  slash : ∀ c ∈ segment, isSlash c = false
  single : isSingleDot segment = false
  double : isDoubleDot segment = false

/-- What the parser returns. -/
structure Normal {Origin : Type} (url : Record Origin) : Prop where
  path_ne : url.path ≠ []
  plain : ∀ segment ∈ url.path, Plain segment
  query : ∀ query ∈ url.query, ∀ c ∈ query, specialQuerySet c = false
  fragment : ∀ fragment ∈ url.fragment, ∀ c ∈ fragment, fragmentSet c = false

section Paths
variable {path buffers : List (List Char)} {buffer : List Char}

theorem plain_nil : Plain [] := ⟨by simp, by simp, by decide, by decide⟩

/-- The buffers that the path state meets. -/
def Buffered (buffer : List Char) : Prop := ∀ c ∈ buffer, pathSet c = false ∧ isSlash c = false

theorem splitOnP_avoids {p : Char → Bool} {cs part : List Char} (h : part ∈ cs.splitOnP p) :
    ∀ c ∈ part, p c = false := by
  induction cs generalizing part with
  | nil =>
    rw [List.splitOnP_nil, List.mem_singleton] at h
    rw [h]
    simp
  | cons d cs ih =>
    rw [List.splitOnP_cons_eq_if_modifyHead] at h
    split at h
    · rcases List.mem_cons.mp h with rfl | h
      · simp
      · exact ih h
    · next hd =>
      cases hsplit : cs.splitOnP p with
      | nil => exact absurd hsplit (List.splitOnP_ne_nil p cs)
      | cons first rest =>
        rw [hsplit, List.modifyHead_cons] at h
        rcases List.mem_cons.mp h with rfl | h
        · intro c hc
          rcases List.mem_cons.mp hc with rfl | hc
          · exact Bool.not_eq_true _ ▸ hd
          · exact ih (by rw [hsplit]; exact List.mem_cons_self) c hc
        · exact ih (by rw [hsplit]; exact List.mem_cons_of_mem _ h)

theorem pathBuffers_buffered {input : List Char} (h : buffer ∈ pathBuffers input) :
    Buffered buffer := by
  obtain ⟨part, hpart, rfl⟩ := List.mem_map.mp h
  intro c hc
  refine ⟨percentEncode_path hc, ?_⟩
  rcases mem_percentEncode hc with hc | hc
  · exact (encodedChars_plain c hc).2.2.2
  · exact splitOnP_avoids hpart c hc.1

theorem pathBuffers_ne_nil {input : List Char} : pathBuffers input ≠ [] := by
  rw [pathBuffers, ne_eq, List.map_eq_nil_iff]
  exact List.splitOnP_ne_nil _ _

theorem endSegment_plain {last : Bool} (hpath : ∀ s ∈ path, Plain s) (hbuffer : Buffered buffer) :
    ∀ s ∈ endSegment path buffer last, Plain s := by
  have hempty (ss : List (List Char)) (hss : ∀ s ∈ ss, Plain s) : ∀ s ∈ ss ++ [[]], Plain s := by
    intro s hs
    rcases List.mem_append.mp hs with hs | hs
    · exact hss s hs
    · rw [List.mem_singleton.mp hs]
      exact plain_nil
  have hdrop : ∀ s ∈ path.dropLast, Plain s := fun s hs => hpath s (List.dropLast_subset path hs)
  unfold endSegment
  split
  · split
    · exact hempty _ hdrop
    · exact hdrop
  · next hdouble =>
    split
    · split
      · exact hempty _ hpath
      · exact hpath
    · next hsingle =>
      intro s hs
      rcases List.mem_append.mp hs with hs | hs
      · exact hpath s hs
      · rw [List.mem_singleton.mp hs]
        exact ⟨fun c hc => (hbuffer c hc).1, fun c hc => (hbuffer c hc).2,
          Bool.not_eq_true _ ▸ hsingle, Bool.not_eq_true _ ▸ hdouble⟩

theorem endSegments_plain (hpath : ∀ s ∈ path, Plain s) (hbuffers : ∀ b ∈ buffers, Buffered b) :
    ∀ s ∈ endSegments path buffers, Plain s := by
  induction path, buffers using endSegments.induct with
  | case1 path => exact hpath
  | case2 path buffer => exact endSegment_plain hpath (hbuffers buffer List.mem_cons_self)
  | case3 path buffer buffers hne ih =>
    rw [endSegments.eq_3 _ _ _ hne]
    refine ih (endSegment_plain hpath (hbuffers buffer List.mem_cons_self)) ?_
    exact fun b hb => hbuffers b (List.mem_cons_of_mem buffer hb)

theorem endSegments_ne_nil (h : buffers ≠ []) : endSegments path buffers ≠ [] := by
  induction path, buffers using endSegments.induct with
  | case1 path => exact absurd rfl h
  | case2 path buffer =>
    rw [endSegments]
    unfold endSegment
    split
    · simp
    split
    · simp
    · simp
  | case3 path buffer buffers hne ih =>
    rw [endSegments.eq_3 _ _ _ hne]
    exact ih hne

/-- Plain segments remain as they are. -/
theorem endSegments_eq_append (h : ∀ b ∈ buffers, Plain b) :
    endSegments path buffers = path ++ buffers := by
  have hend (path : List (List Char)) (b : List Char) (last : Bool) (hb : Plain b) :
      endSegment path b last = path ++ [b] := by
    rw [endSegment, hb.double, hb.single]
    rfl
  induction path, buffers using endSegments.induct with
  | case1 path => exact (List.append_nil path).symm
  | case2 path buffer => exact hend path buffer true (h buffer List.mem_cons_self)
  | case3 path buffer buffers hne ih =>
    rw [endSegments.eq_3 _ _ _ hne, ih fun b hb => h b (List.mem_cons_of_mem buffer hb),
      hend path buffer false (h buffer List.mem_cons_self), List.append_assoc]
    rfl

theorem parsePath_normal {Origin : Type} (origin : Origin) (input : List Char) :
    Normal (parsePath origin input) where
  path_ne := endSegments_ne_nil pathBuffers_ne_nil
  plain := endSegments_plain (fun s hs => by cases hs) fun b hb => pathBuffers_buffered hb
  query query hquery c hc := by
    obtain ⟨text, -, rfl⟩ := Option.map_eq_some_iff.mp hquery
    exact percentEncode_query hc
  fragment fragment hfragment c hc := by
    obtain ⟨text, -, rfl⟩ := Option.map_eq_some_iff.mp hfragment
    exact percentEncode_fragment hc

end Paths

/-! ## Parsing the output again -/

section Reparse
variable {Origin : Type} {url : Record Origin} {parseAuthority : List Char → Option Origin}

theorem takeWhile_append_stop {p : Char → Bool} {front back : List Char} (hfront : ∀ c ∈ front, p c)
    (hback : ∀ c ∈ back.head?, p c = false) :
    (front ++ back).takeWhile p = front ∧ (front ++ back).dropWhile p = back := by
  have hstop : back.takeWhile p = [] ∧ back.dropWhile p = back := by
    cases back with
    | nil => exact ⟨rfl, rfl⟩
    | cons c back =>
      have hc : p c = false := hback c rfl
      rw [List.takeWhile_cons, List.dropWhile_cons, hc]
      exact ⟨rfl, rfl⟩
  rw [List.takeWhile_append_of_pos hfront, List.dropWhile_append_of_pos hfront, hstop.1, hstop.2,
    List.append_nil]
  exact ⟨rfl, rfl⟩

/-- The path without its first slash. -/
def joined (segment : List Char) (segments : List (List Char)) : List Char :=
  segment ++ segments.flatMap fun s => '/' :: s

theorem splitOnP_joined {segment : List Char} {segments : List (List Char)} (h : Plain segment)
    (hs : ∀ s ∈ segments, Plain s) :
    (joined segment segments).splitOnP isSlash = segment :: segments := by
  induction segments generalizing segment with
  | nil =>
    rw [joined, List.flatMap_nil, List.append_nil]
    exact List.splitOnP_eq_singleton h.slash
  | cons next rest ih =>
    have hnext : Plain next := hs next List.mem_cons_self
    have hrest : ∀ s ∈ rest, Plain s := fun s hs' => hs s (List.mem_cons_of_mem next hs')
    rw [joined, List.flatMap_cons]
    change (segment ++ '/' :: joined next rest).splitOnP isSlash = _
    rw [List.splitOnP_append_cons_of_forall_mem h.slash '/' rfl, ih hnext hrest]

theorem joined_chars {segment : List Char} {segments : List (List Char)} (h : Plain segment)
    (hs : ∀ s ∈ segments, Plain s) : ∀ c ∈ joined segment segments, pathSet c = false := by
  intro c hc
  rcases List.mem_append.mp hc with hc | hc
  · exact h.set c hc
  · obtain ⟨s, hmem, hc⟩ := List.mem_flatMap.mp hc
    rcases List.mem_cons.mp hc with rfl | hc
    · decide
    · exact (hs s hmem).set c hc

theorem component_head {mark : Char} {text : Option (List Char)} :
    ∀ c ∈ (component mark text).head?, c = mark := by
  intro c hc
  unfold component at hc
  split at hc
  · cases hc
  · cases hc
  · cases hc
    rfl

theorem mem_component {mark c : Char} {text : Option (List Char)} (h : c ∈ component mark text) :
    c = mark ∨ ∃ t, text = some t ∧ c ∈ t := by
  unfold component at h
  split at h
  · cases h
  · cases h
  · next t hne => exact (List.mem_cons.mp h).imp id fun hc => ⟨t, rfl, hc⟩

theorem component_again {mark : Char} {text : Option (List Char)} {set : Char → Bool}
    (h : ∀ t ∈ text, ∀ c ∈ t, set c = false) :
    component mark ((afterMark (component mark text)).map (percentEncode set)) =
      component mark text := by
  cases text with
  | none => rfl
  | some t =>
    cases t with
    | nil => rfl
    | cons c t =>
      have hsame : percentEncode set (c :: t) = c :: t := percentEncode_self (h (c :: t) rfl)
      change component mark (some (percentEncode set (c :: t))) = _
      rw [hsame]

theorem marks_head : ∀ c ∈ (url.search ++ url.hash).head?, c = '?' ∨ c = '#' := by
  intro c hc
  rw [List.head?_append, Option.mem_def, Option.or_eq_some_iff] at hc
  rcases hc with hc | ⟨-, hc⟩
  · exact .inl (component_head c hc)
  · exact .inr (component_head c hc)

theorem Normal.search_chars (h : Normal url) : ∀ c ∈ url.search, Visible c ∧ c ≠ '#' := by
  intro c hc
  rcases mem_component hc with rfl | ⟨query, hquery, hc⟩
  · exact ⟨⟨by decide, by decide⟩, by decide⟩
  · exact visible_of_specialQuery (h.query query hquery c hc)

theorem Normal.hash_chars (h : Normal url) : ∀ c ∈ url.hash, Visible c := by
  intro c hc
  rcases mem_component hc with rfl | ⟨fragment, hfragment, hc⟩
  · exact ⟨by decide, by decide⟩
  · exact visible_of_fragment (h.fragment fragment hfragment c hc)

theorem Normal.pathBuffers_joined {segment : List Char} {segments : List (List Char)}
    (h : Normal url) (hpath : url.path = segment :: segments) :
    pathBuffers (joined segment segments ++ (url.search ++ url.hash)) = segment :: segments := by
  have hplain : ∀ s ∈ segment :: segments, Plain s := by
    rw [← hpath]
    exact h.plain
  have hjoined := joined_chars (hplain segment List.mem_cons_self) fun s hs =>
    hplain s (List.mem_cons_of_mem segment hs)
  have hfront : ∀ c ∈ joined segment segments, (c != '?' && c != '#') = true := by
    intro c hc
    have hvisible := visible_of_path (hjoined c hc)
    simp [hvisible.2.1, hvisible.2.2]
  have hback : ∀ c ∈ (url.search ++ url.hash).head?, (c != '?' && c != '#') = false := by
    intro c hc
    rcases marks_head c hc with rfl | rfl
    · rfl
    · rfl
  have hsame : (segment :: segments).map (percentEncode pathSet) = segment :: segments :=
    (List.map_congr_left fun s hs => percentEncode_self (hplain s hs).set).trans (List.map_id _)
  rw [pathBuffers, (takeWhile_append_stop hfront hback).1,
    splitOnP_joined (hplain segment List.mem_cons_self) fun s hs =>
      hplain s (List.mem_cons_of_mem segment hs), hsame]

theorem Normal.search_again {Origin' : Type} (h : Normal url) {front : List Char}
    (hfront : ∀ c ∈ front, c ≠ '?' ∧ c ≠ '#') (base : Origin') :
    (parsePath base (front ++ (url.search ++ url.hash))).search = url.search := by
  have hbefore : (front ++ (url.search ++ url.hash)).takeWhile (fun c => c != '#') =
      front ++ url.search := by
    rw [← List.append_assoc]
    refine (takeWhile_append_stop (fun c hc => ?_) fun c hc => ?_).1
    · rcases List.mem_append.mp hc with hc | hc
      · exact bne_iff_ne.mpr (hfront c hc).2
      · exact bne_iff_ne.mpr (h.search_chars c hc).2
    · rw [component_head c hc]
      rfl
  have hafter : (front ++ url.search).dropWhile (fun c => c != '?') = url.search := by
    refine (takeWhile_append_stop (fun c hc => bne_iff_ne.mpr (hfront c hc).1) fun c hc => ?_).2
    rw [component_head c hc]
    rfl
  rw [Record.search, parsePath, queryText, hbefore, hafter]
  exact component_again h.query

theorem Normal.hash_again {Origin' : Type} (h : Normal url) {front : List Char}
    (hfront : ∀ c ∈ front, c ≠ '#') (base : Origin') : (parsePath base (front ++ url.hash)).hash = url.hash := by
  have hafter : (front ++ url.hash).dropWhile (fun c => c != '#') = url.hash := by
    refine (takeWhile_append_stop (fun c hc => bne_iff_ne.mpr (hfront c hc)) fun c hc => ?_).2
    rw [component_head c hc]
    rfl
  rw [Record.hash, parsePath, fragmentText, hafter]
  exact component_again h.fragment

theorem Normal.visible (h : Normal url) : ∀ c ∈ url.relative, Visible c := by
  intro c hc
  rw [Record.relative, List.mem_append, List.mem_append] at hc
  rcases hc with (hc | hc) | hc
  · obtain ⟨s, hs, hc⟩ := List.mem_flatMap.mp hc
    rcases List.mem_cons.mp hc with rfl | hc
    · exact ⟨by decide, by decide⟩
    · exact (visible_of_path ((h.plain s hs).set c hc)).1
  · exact (h.search_chars c hc).1
  · exact h.hash_chars c hc

theorem relative_of_path {segment : List Char} {segments : List (List Char)}
    (hpath : url.path = segment :: segments) :
    url.relative = '/' :: (joined segment segments ++ (url.search ++ url.hash)) := by
  rw [Record.relative, Record.pathname, hpath, List.flatMap_cons, List.append_assoc]
  rfl

/-- What stands after the first slash does not begin with another. -/
theorem Normal.head_joined {segment : List Char} {segments : List (List Char)} (h : Normal url)
    (hpath : url.path = segment :: segments) (hhead : ¬ EmptyHead url.path) :
    (joined segment segments ++ (url.search ++ url.hash)).head?.any isSlash = false := by
  have hsegment : Plain segment := h.plain segment (by rw [hpath]; exact List.mem_cons_self)
  cases segment with
  | cons c cs => exact hsegment.slash c List.mem_cons_self
  | nil =>
    cases segments with
    | cons next rest => exact absurd ⟨next, rest, hpath⟩ hhead
    | nil =>
      change (url.search ++ url.hash).head?.any isSlash = false
      cases hmark : (url.search ++ url.hash).head? with
      | none => rfl
      | some c =>
        rcases marks_head c hmark with rfl | rfl
        · rfl
        · rfl

theorem Normal.relative_cons (h : Normal url) (hhead : ¬ EmptyHead url.path) :
    ∃ rest, url.relative = '/' :: rest ∧ rest.head?.any isSlash = false := by
  obtain ⟨segment, segments, hpath⟩ := List.exists_cons_of_ne_nil h.path_ne
  exact ⟨_, relative_of_path hpath, h.head_joined hpath hhead⟩

theorem relative_of_emptyHead (h : EmptyHead url.path) : ∃ rest, url.relative = '/' :: '/' :: rest := by
  obtain ⟨next, rest, hpath⟩ := h
  exact ⟨_, relative_of_path hpath⟩

/-- What the parser returned is, against any base, the same path on the base's origin, unless it
begins with two slashes. -/
theorem Normal.parse_relative {Origin' : Type} {parseAuthority : List Char → Option Origin'}
    (h : Normal url) (hhead : ¬ EmptyHead url.path) (base : Origin') :
    ∃ url', parse parseAuthority base url.relative = some url' ∧ url'.origin = base ∧
      url'.relative = url.relative := by
  obtain ⟨segment, segments, hpath⟩ := List.exists_cons_of_ne_nil h.path_ne
  have hplain : ∀ s ∈ segment :: segments, Plain s := by
    rw [← hpath]
    exact h.plain
  have hsegments : ∀ s ∈ segments, Plain s := fun s hs => hplain s (List.mem_cons_of_mem segment hs)
  have hsegment : Plain segment := hplain segment List.mem_cons_self
  have hjoined : ∀ c ∈ joined segment segments, c ≠ '?' ∧ c ≠ '#' := fun c hc =>
    (visible_of_path (joined_chars hsegment hsegments c hc)).2.symm
  -- nothing is stripped, and the path does not begin with two slashes, so the base stays
  have horigin : parseOrigin parseAuthority base url.relative =
      some (base, joined segment segments ++ (url.search ++ url.hash)) := by
    rw [parseOrigin, clean_visible h.visible, relative_of_path hpath]
    simp only [h.head_joined hpath hhead]
    rfl
  refine ⟨parsePath base (joined segment segments ++ (url.search ++ url.hash)), ?_, rfl, ?_⟩
  · rw [parse, horigin]
    rfl
  -- the segments are plain, and none of them is removed a second time
  · have hagain : (parsePath base (joined segment segments ++ (url.search ++ url.hash))).path =
        url.path := by
      rw [parsePath, h.pathBuffers_joined hpath, endSegments_eq_append hplain, List.nil_append, hpath]
    have hfront : ∀ c ∈ joined segment segments ++ url.search, c ≠ '#' := by
      intro c hc
      rcases List.mem_append.mp hc with hc | hc
      · exact (hjoined c hc).2
      · exact (h.search_chars c hc).2
    have hhash := h.hash_again hfront base
    rw [List.append_assoc] at hhash
    rw [Record.relative, Record.relative, Record.pathname, Record.pathname, hagain,
      h.search_again hjoined base, hhash]

end Reparse

/-! ## Backslashes -/

section Backslashes
variable {Origin : Type} {parseAuthority : List Char → Option Origin} {input rest : List Char}

theorem takeWhile_dropWhile_subset {p q : Char → Bool} :
    (input.takeWhile p).dropWhile q ⊆ input := fun _ hc =>
  (List.takeWhile_sublist p).subset ((List.dropWhile_sublist q).subset hc)

theorem clean_subset : clean input ⊆ input := by
  intro c hc
  have hc := (List.mem_filter.mp hc).1
  rw [List.mem_reverse] at hc
  have hc := (List.dropWhile_sublist _).subset hc
  rw [List.mem_reverse] at hc
  exact (List.dropWhile_sublist _).subset hc

theorem parseOrigin_subset {base origin : Origin}
    (h : parseOrigin parseAuthority base input = some (origin, rest)) : rest ⊆ input := by
  unfold parseOrigin at h
  split at h
  · next after hclean =>
    have hafter : after ⊆ input := fun c hc =>
      clean_subset (by rw [hclean]; exact List.mem_cons_of_mem _ hc)
    split at h
    · obtain ⟨origin', -, heq⟩ := Option.map_eq_some_iff.mp h
      have hrest := (Prod.mk.inj heq).2
      intro c hc
      rw [← hrest] at hc
      apply hafter
      split at hc
      · exact (List.dropWhile_sublist _).subset
          ((List.dropWhile_sublist _).subset (List.mem_of_mem_tail hc))
      · exact (List.dropWhile_sublist _).subset ((List.dropWhile_sublist _).subset hc)
    · cases h
      exact hafter
  · cases h

theorem mem_afterMark {text : List Char} (h : afterMark input = some text) : text ⊆ input := by
  cases input with
  | nil => cases h
  | cons c cs =>
    cases h
    exact List.subset_cons_self c _

/-- The parser makes no backslashes. -/
theorem backslash_relative {origin : Origin} (h : '\\' ∈ (parsePath origin input).relative) :
    '\\' ∈ input := by
  have hencoded : '\\' ∉ encodedChars := by decide
  rw [Record.relative, List.mem_append, List.mem_append] at h
  rcases h with (h | h) | h
  · obtain ⟨segment, hsegment, hc⟩ := List.mem_flatMap.mp h
    rcases List.mem_cons.mp hc with heq | hc
    · exact absurd heq (by decide)
    · have hslash := ((parsePath_normal origin input).plain segment hsegment).slash _ hc
      cases hslash
  · rcases mem_component h with heq | ⟨query, hquery, hc⟩
    · exact absurd heq (by decide)
    · obtain ⟨text, htext, rfl⟩ := Option.map_eq_some_iff.mp hquery
      have hmem := (mem_percentEncode hc).resolve_left hencoded
      exact takeWhile_dropWhile_subset (mem_afterMark htext hmem.1)
  · rcases mem_component h with heq | ⟨fragment, hfragment, hc⟩
    · exact absurd heq (by decide)
    · obtain ⟨text, htext, rfl⟩ := Option.map_eq_some_iff.mp hfragment
      have hmem := (mem_percentEncode hc).resolve_left hencoded
      exact (List.dropWhile_sublist _).subset (mem_afterMark htext hmem.1)

end Backslashes
end Url
