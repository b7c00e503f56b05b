/-
Records in a stream that is read segment by segment, without a buffer.

A stream holds records with blanks between them.  It arrives in segments, and a
reader sees one segment at a time.  `Segment` says what the reader can rely on:
a record is read as well with blanks around it, and blanks alone are not read.
`Delimited` adds that no other part of a stream is read.  Then what is read is
all records, in order, exactly when every segment that is not blank is one
record (`pieces_of_length_reads` and `filterMap_reads_of_pieces`).
-/
import Mathlib.Data.List.DropRight

namespace Framing

variable {α β : Type}

/-! ## Blanks -/

def Blank (blank : α → Bool) (w : List α) : Prop := ∀ a ∈ w, blank a = true

/-- The text without the blanks around it. -/
def trim (blank : α → Bool) (l : List α) : List α := (l.dropWhile blank).rdropWhile blank

/-- The text neither begins nor ends with a blank. -/
structure Solid (blank : α → Bool) (t : List α) : Prop where
  ne_nil : t ≠ []
  head : ∀ h : t ≠ [], blank (t.head h) = false
  last : ∀ h : t ≠ [], blank (t.getLast h) = false

variable {blank : α → Bool} {t w w' : List α}

theorem blank_nil : Blank blank [] := fun _ h => by cases h

theorem blank_append : Blank blank (w ++ w') ↔ Blank blank w ∧ Blank blank w' := by
  constructor
  · exact fun h => ⟨fun a ha => h a (List.mem_append_left _ ha),
      fun a ha => h a (List.mem_append_right _ ha)⟩
  · rintro ⟨h, h'⟩ a ha
    rcases List.mem_append.1 ha with ha | ha
    · exact h a ha
    · exact h' a ha

theorem dropWhile_of_blank (h : Blank blank w) (l : List α) :
    (w ++ l).dropWhile blank = l.dropWhile blank := by
  induction w with
  | nil => rfl
  | cons a w ih =>
    rw [List.cons_append, List.dropWhile_cons_of_pos (h a (List.mem_cons_self ..))]
    exact ih fun b hb => h b (List.mem_cons_of_mem _ hb)

theorem rdropWhile_of_blank (h : Blank blank w) (l : List α) :
    (l ++ w).rdropWhile blank = l.rdropWhile blank := by
  have hreverse : Blank blank w.reverse := fun a ha => h a (List.mem_reverse.1 ha)
  rw [List.rdropWhile, List.reverse_append, dropWhile_of_blank hreverse]
  rfl

theorem trim_of_blank (h : Blank blank w) : trim blank w = [] := by
  have hdrop := dropWhile_of_blank h []
  rw [List.append_nil] at hdrop
  rw [trim, hdrop]
  rfl

theorem trim_surrounded (ht : Solid blank t) (hw : Blank blank w) (hw' : Blank blank w') :
    trim blank (w ++ t ++ w') = t := by
  obtain ⟨a, l, rfl⟩ := List.exists_cons_of_ne_nil ht.ne_nil
  have hhead : blank a = false := ht.head (List.cons_ne_nil a l)
  rw [trim, List.append_assoc, dropWhile_of_blank hw, List.cons_append,
    List.dropWhile_cons_of_neg (by rw [hhead]; exact Bool.false_ne_true), ← List.cons_append,
    rdropWhile_of_blank hw', List.rdropWhile_eq_self_iff]
  intro hl
  rw [ht.last hl]
  exact Bool.false_ne_true

theorem exists_trim (blank : α → Bool) (l : List α) :
    ∃ w w', Blank blank w ∧ Blank blank w' ∧ l = w ++ trim blank l ++ w' := by
  refine ⟨l.takeWhile blank, (l.dropWhile blank).rtakeWhile blank, fun a ha => ?_, fun a ha => ?_,
    ?_⟩
  · exact List.mem_takeWhile_imp ha
  · exact List.mem_rtakeWhile_imp ha
  · rw [trim, List.append_assoc, List.rdropWhile_append_rtakeWhile, List.takeWhile_append_dropWhile]

theorem blank_of_trim (h : trim blank t = []) : Blank blank t := by
  obtain ⟨w, w', hw, hw', ht⟩ := exists_trim blank t
  rw [h, List.append_nil] at ht
  rw [ht]
  exact blank_append.2 ⟨hw, hw'⟩

/-- What the segments hold besides blanks. -/
def pieces (blank : α → Bool) (segments : List (List α)) : List (List α) :=
  (segments.map (trim blank)).filter fun t => !t.isEmpty

theorem pieces_cons_of_blank {c : List α} (h : trim blank c = []) (segments : List (List α)) :
    pieces blank (c :: segments) = pieces blank segments := by
  rw [pieces, List.map_cons, h, List.filter_cons_of_neg (by simp)]
  rfl

theorem pieces_cons_of_ne {c : List α} (h : trim blank c ≠ []) (segments : List (List α)) :
    pieces blank (c :: segments) = trim blank c :: pieces blank segments := by
  rw [pieces, List.map_cons, List.filter_cons_of_pos (by simpa using h)]
  rfl

/-! ## Segments that hold one record -/

/-- What reading a segment relies on. -/
structure Segment (blank : α → Bool) (record : List α → Prop) (reads : List α → Option β) :
    Prop where
  solid : ∀ {t}, record t → Solid blank t
  surrounded : ∀ {t w w'}, record t → Blank blank w → Blank blank w' →
    reads (w ++ t ++ w') = reads t
  unread : ∀ {w}, Blank blank w → reads w = none

variable {record : List α → Prop} {reads : List α → Option β}

/-- Segments that hold one record each, or nothing but blanks, are read as the records are. -/
theorem Segment.filterMap_reads_of_pieces (h : Segment blank record reads)
    {segments records : List (List α)} (hrecords : ∀ t ∈ records, record t)
    (hpieces : pieces blank segments = records) :
    segments.filterMap reads = records.filterMap reads := by
  induction segments generalizing records with
  | nil =>
    rw [← hpieces]
    rfl
  | cons c segments ih =>
    by_cases hc : trim blank c = []
    · rw [pieces_cons_of_blank hc] at hpieces
      rw [List.filterMap_cons_none (h.unread (blank_of_trim hc))]
      exact ih hrecords hpieces
    · rw [pieces_cons_of_ne hc] at hpieces
      subst hpieces
      obtain ⟨w, w', hw, hw', hsplit⟩ := exists_trim blank c
      have hread : reads c = reads (trim blank c) := by
        have hsurrounded := h.surrounded (hrecords _ (List.mem_cons_self ..)) hw hw'
        rw [← hsplit] at hsurrounded
        exact hsurrounded
      rw [List.filterMap_cons, List.filterMap_cons, hread,
        ih (fun t ht => hrecords t (List.mem_cons_of_mem _ ht)) rfl]

/-! ## Segments that hold something else -/

/-- No part of a stream but a record is read.  `opens` recognises how a record begins, and a
`newline` among the blanks after a record keeps what follows apart from it. -/
structure Delimited (blank : α → Bool) (newline : α) (opens : α → Prop)
    (record : List α → Prop) (reads : List α → Option β) : Prop extends
    Segment blank record reads where
  opening : ∀ {t}, record t → ∃ a l, t = a :: l ∧ opens a
  incomplete : ∀ {t r w}, record t → Blank blank w → r <+: t → r ≠ t → reads (w ++ r) = none
  followed : ∀ {t w g a l}, record t → Blank blank w → Blank blank g → opens a →
    reads (w ++ t ++ g ++ a :: l) = none
  remainder : ∀ {t s g l}, record t → s <:+ t → s ≠ [] → s ≠ t → Blank blank g →
    (l = [] ∨ newline ∈ g) → reads (s ++ g ++ l) = none
  inside : ∀ {x c y}, record (x ++ c ++ y) → x ≠ [] → y ≠ [] → reads c = none

variable {newline : α} {opens : α → Prop}

/-- Records, each with the blanks after it. -/
def Lines (blank : α → Bool) (newline : α) (record : List α → Prop)
    (lines : List (List α × List α)) : Prop :=
  ∀ line ∈ lines, record line.1 ∧ Blank blank line.2 ∧ newline ∈ line.2

def body (lines : List (List α × List α)) : List α := lines.flatMap fun line => line.1 ++ line.2

theorem body_cons (line : List α × List α) (lines : List (List α × List α)) :
    body (line :: lines) = line.1 ++ (line.2 ++ body lines) := by
  rw [body, List.flatMap_cons, List.append_assoc]
  rfl

theorem Lines.tail {line : List α × List α} {lines : List (List α × List α)}
    (h : Lines blank newline record (line :: lines)) : Lines blank newline record lines :=
  fun line' h' => h line' (List.mem_cons_of_mem _ h')

/-- What is left of a stream after some segments, with the records it still holds: it may begin
with blanks or with the remainder of a record. -/
inductive Rest (blank : α → Bool) (newline : α) (record : List α → Prop) :
    List α → List (List α) → Prop where
  | whole (lead : List α) (lines : List (List α × List α)) (hlead : Blank blank lead)
      (hlines : Lines blank newline record lines) :
      Rest blank newline record (lead ++ body lines) (lines.map Prod.fst)
  | cut (t s gap : List α) (lines : List (List α × List α)) (ht : record t) (hs : s <:+ t)
      (hne : s ≠ []) (hcut : s ≠ t) (hgap : Blank blank gap) (hnewline : newline ∈ gap)
      (hlines : Lines blank newline record lines) :
      Rest blank newline record (s ++ (gap ++ body lines)) (lines.map Prod.fst)

/-- The remainder of a record, if anything remains, and the stream after it. -/
theorem rest_of_suffix {s gap : List α} {lines : List (List α × List α)} (ht : record t)
    (hs : s <:+ t) (hcut : s ≠ t) (hgap : Blank blank gap) (hnewline : newline ∈ gap)
    (hlines : Lines blank newline record lines) :
    Rest blank newline record (s ++ (gap ++ body lines)) (lines.map Prod.fst) := by
  by_cases hne : s = []
  · rw [hne, List.nil_append]
    exact .whole gap lines hgap hlines
  · exact .cut t s gap lines ht hs hne hcut hgap hnewline hlines

/-- Whatever is taken from a stream, a stream is left. -/
theorem rest_of_append {lead u l : List α} {lines : List (List α × List α)}
    (hlead : Blank blank lead) (hlines : Lines blank newline record lines)
    (h : u ++ l = lead ++ body lines) :
    ∃ records, Rest blank newline record l records ∧ records.length ≤ lines.length := by
  induction lines generalizing lead u with
  | nil =>
    have hblank : Blank blank (u ++ l) := by
      rw [h]
      exact blank_append.2 ⟨hlead, blank_nil⟩
    refine ⟨[], ?_, Nat.le_refl _⟩
    have hwhole : Rest blank newline record (l ++ body []) [] :=
      .whole l [] (blank_append.1 hblank).2 hlines
    rwa [body, List.flatMap_nil, List.append_nil] at hwhole
  | cons line lines ih =>
    obtain ⟨ht, hgap, hnewline⟩ := hlines line (List.mem_cons_self ..)
    rcases List.append_eq_append_iff.1 h with ⟨lead', rfl, rfl⟩ | ⟨u', rfl, hbody⟩
    · exact ⟨_, .whole lead' (line :: lines) (blank_append.1 hlead).2 hlines, by simp⟩
    · rw [body_cons] at hbody
      rcases List.append_eq_append_iff.1 hbody with ⟨u'', rfl, hgapbody⟩ | ⟨s, hs, rfl⟩
      · obtain ⟨records, hrest, hle⟩ := ih hgap hlines.tail hgapbody.symm
        exact ⟨records, hrest, Nat.le_succ_of_le hle⟩
      · by_cases hu : u' = []
        · subst hu
          have hwhole := Rest.whole [] (line :: lines) blank_nil hlines
          rw [List.nil_append, body_cons, hs, List.nil_append] at hwhole
          exact ⟨_, hwhole, by simp⟩
        · refine ⟨_, rest_of_suffix ht ⟨u', hs.symm⟩ ?_ hgap hnewline hlines.tail, by simp⟩
          intro heq
          rw [heq] at hs
          exact hu (List.self_eq_append_left.1 hs)

/-- What a nonempty segment at the beginning of a stream can be. -/
inductive SegmentCase (blank : α → Bool) (newline : α) (record : List α → Prop)
    (reads : List α → Option β) (c l : List α) : List (List α × List α) → Prop where
  | blank (lead : List α) (lines : List (List α × List α)) (hc : Blank blank c)
      (hlead : Blank blank lead) (hrest : l = lead ++ body lines) :
      SegmentCase blank newline record reads c l lines
  | record (lead : List α) (line : List α × List α) (lines : List (List α × List α))
      (hc : trim blank c = line.1) (hlead : Blank blank lead) (hrest : l = lead ++ body lines) :
      SegmentCase blank newline record reads c l (line :: lines)
  | lost (line : List α × List α) (lines : List (List α × List α)) (hc : reads c = none)
      (records : List (List α)) (hrest : Rest blank newline record l records)
      (hle : records.length ≤ lines.length) :
      SegmentCase blank newline record reads c l (line :: lines)

theorem Delimited.opens_of_body (h : Delimited blank newline opens record reads)
    {u l : List α} {lines : List (List α × List α)} (hlines : Lines blank newline record lines)
    (hu : u ≠ []) (hbody : body lines = u ++ l) : ∃ a u', u = a :: u' ∧ opens a := by
  obtain ⟨b, u', rfl⟩ := List.exists_cons_of_ne_nil hu
  cases lines with
  | nil => cases hbody
  | cons line lines =>
    obtain ⟨a, t, ht, hopens⟩ := h.opening (hlines line (List.mem_cons_self ..)).1
    rw [body_cons, ht, List.cons_append, List.cons_append] at hbody
    exact ⟨b, u', rfl, (List.cons.inj hbody).1 ▸ hopens⟩

theorem Delimited.segment_cases (h : Delimited blank newline opens record reads)
    {lead c l : List α} {lines : List (List α × List α)} (hlead : Blank blank lead)
    (hlines : Lines blank newline record lines) (hsplit : c ++ l = lead ++ body lines) :
    SegmentCase blank newline record reads c l lines := by
  rcases List.append_eq_append_iff.1 hsplit with ⟨lead', rfl, rfl⟩ | ⟨c', rfl, hbody⟩
  · exact .blank lead' lines (blank_append.1 hlead).1 (blank_append.1 hlead).2 rfl
  · by_cases hc' : c' = []
    · subst hc'
      refine .blank [] lines ?_ blank_nil hbody.symm
      rw [List.append_nil]
      exact hlead
    · cases lines with
      | nil => exact absurd (List.append_eq_nil_iff.1 hbody.symm).1 hc'
      | cons line lines =>
        obtain ⟨ht, hgap, hnewline⟩ := hlines line (List.mem_cons_self ..)
        rw [body_cons] at hbody
        rcases List.append_eq_append_iff.1 hbody with ⟨v, rfl, hgapbody⟩ | ⟨s, hs, rfl⟩
        · -- the segment holds the whole record
          rcases List.append_eq_append_iff.1 hgapbody with ⟨u, rfl, hbody'⟩ | ⟨gap, hv, rfl⟩
          · by_cases hu : u = []
            · subst hu
              refine .record [] line lines ?_ blank_nil hbody'.symm
              rw [List.append_nil, ← List.append_assoc]
              exact trim_surrounded (h.solid ht) hlead hgap
            · -- and the beginning of another one
              have hbegin : u ++ l = [] ++ body lines := hbody'.symm
              obtain ⟨records, hrest, hle⟩ := rest_of_append blank_nil hlines.tail hbegin
              refine .lost line lines ?_ records hrest hle
              obtain ⟨a, u', rfl, hopens⟩ := h.opens_of_body hlines.tail hu hbody'
              rw [← List.append_assoc, ← List.append_assoc]
              exact h.followed ht hlead hgap hopens
          · rw [hv] at hgap
            refine .record gap line lines ?_ (blank_append.1 hgap).2 rfl
            rw [← List.append_assoc]
            exact trim_surrounded (h.solid ht) hlead (blank_append.1 hgap).1
        · by_cases hcut : c' = line.1
          · subst hcut
            have hnil : s = [] := List.self_eq_append_right.1 hs
            refine .record line.2 line lines ?_ hgap (by rw [hnil, List.nil_append])
            rw [← List.append_nil (lead ++ line.1)]
            exact trim_surrounded (h.solid ht) hlead blank_nil
          · refine .lost line lines (h.incomplete ht hlead ⟨s, hs.symm⟩ hcut) _
              (rest_of_suffix ht ⟨c', hs.symm⟩ ?_ hgap hnewline hlines.tail) (by simp)
            intro heq
            rw [heq] at hs
            exact hc' (List.self_eq_append_left.1 hs)

/-- A segment that begins inside a record is not read. -/
theorem Delimited.reads_of_cut (h : Delimited blank newline opens record reads)
    {s gap c l : List α} {lines : List (List α × List α)} (ht : record t) (hs : s <:+ t)
    (hne : s ≠ []) (hcut : s ≠ t) (hgap : Blank blank gap) (hnewline : newline ∈ gap)
    (hsplit : c ++ l = s ++ (gap ++ body lines)) : reads c = none := by
  rcases List.append_eq_append_iff.1 hsplit with ⟨s', rfl, -⟩ | ⟨v, rfl, hbody⟩
  · by_cases hs' : s' = []
    · subst hs'
      rw [List.append_nil] at hs hne hcut
      have hread := h.remainder (l := []) ht hs hne hcut blank_nil (Or.inl rfl)
      rwa [List.append_nil, List.append_nil] at hread
    · obtain ⟨x, rfl⟩ := hs
      rw [← List.append_assoc] at ht
      refine h.inside ht (fun hx => hcut ?_) hs'
      rw [hx, List.nil_append]
  · rcases List.append_eq_append_iff.1 hbody with ⟨u, rfl, -⟩ | ⟨gap', rfl, -⟩
    · rw [← List.append_assoc]
      exact h.remainder ht hs hne hcut hgap (Or.inr hnewline)
    · have hread := h.remainder (l := []) ht hs hne hcut (blank_append.1 hgap).1 (Or.inl rfl)
      rwa [List.append_nil] at hread

theorem rest_of_cut {s gap c l : List α} {lines : List (List α × List α)} (ht : record t)
    (hs : s <:+ t) (hcut : s ≠ t) (hgap : Blank blank gap) (hnewline : newline ∈ gap)
    (hlines : Lines blank newline record lines) (hsplit : c ++ l = s ++ (gap ++ body lines)) :
    ∃ records, Rest blank newline record l records ∧ records.length ≤ lines.length := by
  rcases List.append_eq_append_iff.1 hsplit with ⟨s', rfl, rfl⟩ | ⟨v, rfl, hbody⟩
  · have hs' : s' <:+ t := (List.suffix_append c s').trans hs
    refine ⟨_, rest_of_suffix ht hs' (fun heq => ?_) hgap hnewline hlines, by simp⟩
    subst heq
    have hlen := hs.length_le
    rw [List.length_append] at hlen
    have hc : c = [] := List.eq_nil_of_length_eq_zero (by omega)
    exact hcut (by rw [hc, List.nil_append])
  · exact rest_of_append hgap hlines hbody.symm

/-- At most the records of a stream are read, and if all of them are, the segments hold one
each. -/
theorem Delimited.pieces_of_length_reads (h : Delimited blank newline opens record reads)
    (segments : List (List α)) :
    (∀ records, Rest blank newline record segments.flatten records →
      (segments.filterMap reads).length ≤ records.length) ∧
    ∀ lead lines, Blank blank lead → Lines blank newline record lines →
      segments.flatten = lead ++ body lines →
      (segments.filterMap reads).length = lines.length →
        pieces blank segments = lines.map Prod.fst := by
  induction segments with
  | nil =>
    refine ⟨fun _ _ => Nat.zero_le _, fun lead lines hlead hlines hsplit hlen => ?_⟩
    rw [List.eq_nil_of_length_eq_zero hlen.symm]
    rfl
  | cons c segments ih =>
    obtain ⟨hle, hpieces⟩ := ih
    have hbound : ∀ lead lines, Blank blank lead → Lines blank newline record lines →
        segments.flatten = lead ++ body lines →
        (segments.filterMap reads).length ≤ lines.length := by
      intro lead lines hlead hlines hsplit
      have hwhole := hle _ (by rw [hsplit]; exact .whole lead lines hlead hlines)
      rwa [List.length_map] at hwhole
    have hwhole : ∀ lead lines, Blank blank lead → Lines blank newline record lines →
        (c :: segments).flatten = lead ++ body lines →
        ((c :: segments).filterMap reads).length ≤ lines.length ∧
          (((c :: segments).filterMap reads).length = lines.length →
            pieces blank (c :: segments) = lines.map Prod.fst) := by
      intro lead lines hlead hlines hsplit
      cases h.segment_cases hlead hlines hsplit with
      | blank lead' lines hc hlead' hrest =>
        rw [List.filterMap_cons_none (h.unread hc), pieces_cons_of_blank (trim_of_blank hc)]
        exact ⟨hbound lead' lines hlead' hlines hrest, hpieces lead' lines hlead' hlines hrest⟩
      | record lead' line lines hc hlead' hrest =>
        have hrestbound := hbound lead' lines hlead' hlines.tail hrest
        have hne : trim blank c ≠ [] := by
          rw [hc]
          exact (h.solid (hlines line (List.mem_cons_self ..)).1).ne_nil
        rw [pieces_cons_of_ne hne, hc, List.map_cons, List.length_cons]
        have hone : ((c :: segments).filterMap reads).length ≤
            (segments.filterMap reads).length + 1 := by
          cases hread : reads c <;> simp [hread]
        refine ⟨by omega, fun hlen => ?_⟩
        rw [hpieces lead' lines hlead' hlines.tail hrest (by omega)]
      | lost line lines hc records hrest hshort =>
        have hrestbound := hle records hrest
        rw [List.filterMap_cons_none hc, List.length_cons]
        exact ⟨by omega, fun hlen => by omega⟩
    refine ⟨fun records hrest => ?_, fun lead lines hlead hlines hsplit =>
      (hwhole lead lines hlead hlines hsplit).2⟩
    generalize hstream : (c :: segments).flatten = stream at hrest
    cases hrest with
    | whole lead lines hlead hlines =>
      rw [List.length_map]
      exact (hwhole lead lines hlead hlines hstream).1
    | cut t s gap lines ht hs hne hcut hgap hnewline hlines =>
      rw [List.filterMap_cons_none (h.reads_of_cut ht hs hne hcut hgap hnewline hstream),
        List.length_map]
      obtain ⟨records, hrest, hshort⟩ := rest_of_cut ht hs hcut hgap hnewline hlines hstream
      exact Nat.le_trans (hle records hrest) hshort

/-! ## Records that are sent with a newline each -/

/-- A stream of newline-terminated texts is a sequence of records with blanks between them. -/
theorem exists_lines (record : List α → Prop) (hnewline : blank newline = true)
    {texts : List (List α)} (hrecords : ∀ t ∈ texts, record (trim blank t)) :
    ∃ lead lines, Blank blank lead ∧ Lines blank newline record lines ∧
      (texts.flatMap fun t => t ++ [newline]) = lead ++ body lines ∧
      lines.map Prod.fst = texts.map (trim blank) := by
  induction texts with
  | nil => exact ⟨[], [], blank_nil, (fun _ h => by cases h), rfl, rfl⟩
  | cons t texts ih =>
    obtain ⟨lead, lines, hlead, hlines, hstream, hmap⟩ :=
      ih fun t' ht' => hrecords t' (List.mem_cons_of_mem _ ht')
    obtain ⟨w, w', hw, hw', hsplit⟩ := exists_trim blank t
    have hgap : Blank blank (w' ++ ([newline] ++ lead)) := by
      refine blank_append.2 ⟨hw', blank_append.2 ⟨fun a ha => ?_, hlead⟩⟩
      rw [List.mem_singleton.1 ha]
      exact hnewline
    refine ⟨w, (trim blank t, w' ++ ([newline] ++ lead)) :: lines, hw, ?_, ?_, ?_⟩
    · intro line hline
      rcases List.mem_cons.1 hline with rfl | hline
      · exact ⟨hrecords t (List.mem_cons_self ..), hgap, by simp⟩
      · exact hlines line hline
    · rw [List.flatMap_cons, hstream, body_cons]
      conv_lhs => rw [hsplit]
      simp only [List.append_assoc]
    · rw [List.map_cons, List.map_cons, hmap]

end Framing
