/-
What the library scans, byte by byte.

Each token is a word at the front of the text.  `quoting` says where the strings of a
text are: a word leads from outside the strings to outside, and its brackets that are not
in a string are those of its token.  White space behind a text changes no token.
-/
import Mathlib.Combinatorics.Enumerative.DyckWord
import SamuraiKirby.Coding.Quoting
import SamuraiKirby.Network.RoundTrip

namespace SamuraiKirby
namespace Json

open Coding

/-- The strings of a text.  No byte below `0x20` is in a string. -/
def quoting : Quoting UInt8 where
  quote := 0x22
  escape := 0x5C
  plain current := current ≠ 0x00 ∧ current ≠ 0x5C
  inner current := 0x20 ≤ current
  not_plain_escape h := h.2 rfl

def bracket? (current : UInt8) : Option DyckStep :=
  if current = 0x5B ∨ current = 0x7B then some .U
  else if current = 0x5D ∨ current = 0x7D then some .D
  else none

def Token.bracket? : Token → Option DyckStep
  | .beginArray | .beginObject => some .U
  | .endArray | .endObject => some .D
  | _ => none

/-- The brackets of a text that are not in strings. -/
def brackets (place : Place) (text : Bytes) : List DyckStep :=
  (quoting.unquoted place text).filterMap bracket?

variable {strtod : Bytes → Option Rat} {text rest : Bytes} {current : UInt8} {token : Token}

/-- What is decided for each item of a list. -/
theorem forall_mem_of_all {α : Type} {P : α → Prop} [DecidablePred P] {l : List α}
    (h : l.all (fun a => decide (P a)) = true) : ∀ a ∈ l, P a :=
  fun a ha => of_decide_eq_true (List.all_eq_true.1 h a ha)

/-! ## Strings -/

/-- Bytes that stand for themselves in a string. -/
def Content (current : UInt8) : Prop := 0x20 ≤ current ∧ current ≠ 0x22 ∧ current ≠ 0x5C

theorem content_of_le (h : 0x5D ≤ current) : Content current := by
  unfold Content
  simp only [UInt8.le_iff_toNat_le, ne_eq, ← UInt8.toNat_inj, UInt8.reduceToNat] at h ⊢
  omega

theorem hexValue_content {digit : Nat} (h : hexValue current = some digit) : Content current := by
  unfold hexValue at h
  unfold Content
  simp only [UInt8.le_iff_toNat_le, ne_eq, ← UInt8.toNat_inj, UInt8.reduceToNat] at h ⊢
  split_ifs at h <;> omega

theorem getCodepoint_word :
    TakesWords getCodepoint fun _ word => ∀ c ∈ word, Content c := by
  intro text codepoint rest h
  unfold getCodepoint at h
  split at h
  · next c₁ c₂ c₃ c₄ left =>
    simp only [Option.bind_eq_bind, Option.bind_eq_some_iff] at h
    obtain ⟨d₁, h₁, d₂, h₂, d₃, h₃, d₄, h₄, h⟩ := h
    cases h
    refine ⟨[c₁, c₂, c₃, c₄], rfl, fun c hc => ?_, fun more => ?_⟩
    · simp only [List.mem_cons, List.not_mem_nil, or_false] at hc
      rcases hc with rfl | rfl | rfl | rfl
      · exact hexValue_content h₁
      · exact hexValue_content h₂
      · exact hexValue_content h₃
      · exact hexValue_content h₄
    · simp only [List.cons_append, List.nil_append, getCodepoint, h₁, h₂, h₃, h₄,
        Option.bind_eq_bind, Option.bind_some]
      rfl
  · cases h

theorem leads_solidus : quoting.Leads .inside [0x5C] .escaped [] :=
  Quoting.leads_escape (q := quoting) (show (0x20 : UInt8) ≤ 0x5C by decide)
    (show (0x5C : UInt8) ≠ 0x22 by decide)

theorem leads_content (h : ∀ c ∈ text, Content c) : quoting.Leads .inside text .inside [] :=
  Quoting.leads_inner (q := quoting) h

theorem scanUnicode_word :
    TakesWords scanUnicode fun _ word => quoting.Leads .inside word .inside [] := by
  intro text added rest h
  unfold scanUnicode at h
  simp only [Option.bind_eq_bind, Option.bind_eq_some_iff] at h
  obtain ⟨⟨codepoint1, left⟩, hfirst, h⟩ := h
  obtain ⟨word, rfl, hword, hmore⟩ := getCodepoint_word _ _ _ hfirst
  simp only at h
  split_ifs at h with hhigh hlow
  · split at h
    · next left' =>
      simp only [Option.bind_eq_some_iff] at h
      obtain ⟨⟨codepoint2, left''⟩, hsecond, h⟩ := h
      obtain ⟨word', rfl, hword', hmore'⟩ := getCodepoint_word _ _ _ hsecond
      split_ifs at h with hpair
      obtain ⟨rfl, rfl⟩ := Prod.mk.inj (Option.some.inj h)
      have hescape : quoting.Leads .escaped [0x75] .inside [] :=
        Quoting.leads_escaped (q := quoting) (show (0x20 : UInt8) ≤ 0x75 by decide)
      refine ⟨word ++ ([0x5C] ++ ([0x75] ++ word')), by simp, ?_, fun more => ?_⟩
      · exact (leads_content hword).append (leads_solidus.append
          (hescape.append (leads_content hword')))
      · rw [List.append_assoc, scanUnicode, hmore]
        simp only [Option.bind_eq_bind, Option.bind_some, if_pos hhigh, List.cons_append,
          List.nil_append, hmore', if_pos hpair]
        rfl
    · cases h
  · cases h
    refine ⟨word, rfl, leads_content hword, fun more => ?_⟩
    rw [scanUnicode, hmore]
    simp only [Option.bind_eq_bind, Option.bind_some, if_neg hhigh, if_neg hlow]
    rfl

theorem scanEscape_word :
    TakesWords scanEscape fun _ word => quoting.Leads .escaped word .inside [] := by
  intro text added rest h
  cases text with
  | nil => cases h
  | cons current left =>
    have hone : 0x20 ≤ current → quoting.Leads .escaped [current] .inside [] :=
      Quoting.leads_escaped (q := quoting)
    simp only [scanEscape] at h
    split_ifs at h with h₁ h₂ h₃ h₄ h₅ h₆ h₇ h₈ h₉
    iterate 8
      · cases h
        refine ⟨[current], rfl, hone (by rw [‹current = _›]; decide), fun more => ?_⟩
        simp [scanEscape, *]
    · obtain ⟨word, rfl, hword, hmore⟩ := scanUnicode_word _ _ _ h
      refine ⟨[current] ++ word, rfl, (hone (by rw [h₉]; decide)).append hword, fun more => ?_⟩
      simp [scanEscape, *]

/-- The bytes behind the first of a code point. -/
theorem nextByteInRange_word {ranges : List (UInt8 × UInt8)} :
    TakesWords (nextByteInRange ranges) fun added word =>
      added = word ∧ Utf8.Matches ranges word := by
  intro text added rest h
  induction ranges generalizing text added with
  | nil =>
    cases h
    exact ⟨[], rfl, ⟨rfl, .nil⟩, fun _ => rfl⟩
  | cons range ranges ih =>
    cases text with
    | nil => cases h
    | cons current left =>
      unfold nextByteInRange at h
      split_ifs at h with hrange
      obtain ⟨⟨others, left'⟩, hothers, heq⟩ := Option.map_eq_some_iff.1 h
      cases heq
      obtain ⟨word, rfl, ⟨rfl, hmatches⟩, hmore⟩ := ih _ _ hothers
      refine ⟨current :: others, rfl, ⟨rfl, .cons hrange hmatches⟩, fun more => ?_⟩
      rw [List.cons_append, nextByteInRange, if_pos hrange, hmore]
      rfl

/-- No range of a code point beyond ASCII begins below `0x80`. -/
theorem le_of_matches {form : List (UInt8 × UInt8)} {bytes : Bytes}
    (hform : ∀ range ∈ form, 0x80 ≤ range.1) (h : Utf8.Matches form bytes) :
    ∀ c ∈ bytes, 0x80 ≤ c := by
  induction h with
  | nil => exact fun _ hc => absurd hc List.not_mem_nil
  | cons hrange _ ih =>
    intro c hc
    rcases List.mem_cons.1 hc with rfl | hc
    · exact UInt8.le_trans (hform _ (List.mem_cons_self ..)) hrange.1
    · exact ih (fun range hmem => hform range (List.mem_cons_of_mem _ hmem)) c hc

theorem followingRanges_high {ranges : List (UInt8 × UInt8)}
    (h : followingRanges current = some ranges) : ∀ range ∈ ranges, 0x80 ≤ range.1 := by
  unfold followingRanges at h
  split_ifs at h <;> cases h <;> exact forall_mem_of_all (by decide)

/-- The place behind a character: the closing quotation mark ends the string. -/
def placeBehind (added? : Option Bytes) : Place := if added?.isSome then .inside else .outside

theorem scanCharacter_word :
    TakesWords scanCharacter fun added? word =>
      quoting.Leads .inside word (placeBehind added?) [] := by
  intro text added? rest h
  cases text with
  | nil => cases h
  | cons current left =>
    simp only [scanCharacter] at h
    split_ifs at h with hquote hescape hcontrol hascii
    · cases h
      refine ⟨[current], rfl, ?_, fun more => if_pos hquote⟩
      rw [hquote]
      exact Quoting.leads_close (q := quoting) (show (0x20 : UInt8) ≤ 0x22 by decide)
    · obtain ⟨⟨added, left'⟩, hadded, heq⟩ := Option.map_eq_some_iff.1 h
      cases heq
      obtain ⟨word, rfl, hword, hmore⟩ := scanEscape_word _ _ _ hadded
      refine ⟨[current] ++ word, rfl, ?_, fun more => ?_⟩
      · rw [hescape]
        exact leads_solidus.append hword
      · simp only [List.cons_append, List.nil_append, scanCharacter, if_neg hquote,
          if_pos hescape, hmore]
        rfl
    · cases h
      have hcontent : Content current := by
        refine ⟨?_, hquote, hescape⟩
        simp only [UInt8.le_iff_toNat_le, UInt8.reduceToNat] at hcontrol ⊢
        omega
      refine ⟨[current], rfl, leads_content fun c hc => List.mem_singleton.1 hc ▸ hcontent,
        fun more => ?_⟩
      simp only [List.singleton_append, scanCharacter, if_neg hquote, if_neg hescape,
        if_neg hcontrol, if_pos hascii]
    · simp only [Option.bind_eq_bind, Option.bind_eq_some_iff] at h
      obtain ⟨ranges, hranges, ⟨following, left'⟩, hfollowing, heq⟩ := h
      cases heq
      obtain ⟨word, rfl, ⟨rfl, hmatches⟩, hmore⟩ := nextByteInRange_word _ _ _ hfollowing
      have hhigh : 0x80 ≤ current := by
        simp only [UInt8.le_iff_toNat_le, UInt8.reduceToNat] at hascii ⊢
        omega
      refine ⟨current :: following, rfl, leads_content fun c hc => ?_, fun more => ?_⟩
      · have hle : 0x80 ≤ c := by
          rcases List.mem_cons.1 hc with rfl | hc
          · exact hhigh
          · exact le_of_matches (followingRanges_high hranges) hmatches c hc
        exact content_of_le (UInt8.le_trans (by decide) hle)
      · simp only [List.cons_append, scanCharacter, if_neg hquote, if_neg hescape,
          if_neg hcontrol, if_neg hascii, hranges, Option.bind_eq_bind, Option.bind_some, hmore]
        rfl

/-- A string goes up to its closing quotation mark. -/
theorem scanString_word :
    TakesWords scanString fun _ word => quoting.Leads .inside word .outside [] := by
  have hall : TakesWords (scanAll scanCharacter) fun _ word =>
      quoting.Leads .inside word .outside [] :=
    scanCharacter_word.scanAll shrinks_scanCharacter (fun _ h => h)
      fun _ _ _ _ h h' => h.append h'
  intro text value rest h
  obtain ⟨⟨words, left⟩, hwords, heq⟩ := Option.map_eq_some_iff.1 h
  cases heq
  obtain ⟨word, htext, hword, hmore⟩ := hall _ _ _ hwords
  refine ⟨word, htext, hword, fun more => ?_⟩
  rw [scanString, hmore]
  rfl

/-! ## Tokens -/

/-- A text that leads from outside the strings to outside, and the brackets it has there. -/
structure Crosses (text : Bytes) (steps : List DyckStep) : Prop where
  proper : quoting.Proper .outside text
  behind : quoting.behind .outside text = .outside
  brackets : brackets .outside text = steps

/-- Bytes that stand outside the strings. -/
def Bare (current : UInt8) : Prop := current ≠ 0x00 ∧ current ≠ 0x5C ∧ current ≠ 0x22

def Ordinary (current : UInt8) : Prop := Bare current ∧ bracket? current = none

instance : DecidablePred Bare := fun _ => inferInstanceAs (Decidable (_ ∧ _ ∧ _))

instance : DecidablePred Ordinary := fun _ => inferInstanceAs (Decidable (_ ∧ _))

theorem crosses_of_leads {outer : Bytes} (h : quoting.Leads .outside text .outside outer) :
    Crosses text (outer.filterMap bracket?) where
  proper := h.proper
  behind := h.behind
  brackets := by rw [brackets, h.unquoted]

theorem brackets_append (place : Place) (text text' : Bytes) :
    brackets place (text ++ text') =
      brackets place text ++ brackets (quoting.behind place text) text' := by
  rw [brackets, Quoting.unquoted_append, List.filterMap_append]
  rfl

theorem Crosses.append {text' : Bytes} {steps steps' : List DyckStep} (h : Crosses text steps)
    (h' : Crosses text' steps') : Crosses (text ++ text') (steps ++ steps') where
  proper := Quoting.proper_append.2 ⟨h.proper, h.behind.symm ▸ h'.proper⟩
  behind := by rw [Quoting.behind_append, h.behind, h'.behind]
  brackets := by rw [brackets_append, h.brackets, h.behind, h'.brackets]

theorem crosses_bare (h : ∀ c ∈ text, Bare c) : Crosses text (text.filterMap bracket?) :=
  crosses_of_leads (Quoting.leads_plain (q := quoting) fun c hc =>
    ⟨⟨(h c hc).1, (h c hc).2.1⟩, (h c hc).2.2⟩)

theorem crosses_ordinary (h : ∀ c ∈ text, Ordinary c) : Crosses text [] := by
  have hcrosses := crosses_bare fun c hc => (h c hc).1
  rwa [List.filterMap_eq_nil_iff.2 fun c hc => (h c hc).2] at hcrosses

theorem structural?_bracket? (h : structural? current = some token) :
    Bare current ∧ bracket? current = token.bracket? := by
  unfold structural? at h
  split_ifs at h
  all_goals
    cases h
    subst current
    decide

theorem whitespace_cases (h : isWhitespace current = true) :
    current = 0x20 ∨ current = 0x09 ∨ current = 0x0A ∨ current = 0x0D := by
  simpa [isWhitespace, or_assoc] using h

theorem ordinary_of_whitespace (h : isWhitespace current = true) : Ordinary current := by
  rcases whitespace_cases h with rfl | rfl | rfl | rfl <;> decide

theorem ordinary_of_numberByte (h : isNumberByte current = true) : Ordinary current := by
  have hdigits : ∀ n < 10, Ordinary (digit n) := by decide
  rcases numberByte_cases h with rfl | ⟨n, hn, rfl⟩
  · decide
  · exact hdigits n hn

theorem ordinary_of_next {state state' : NumberState} (h : state.next current = some state') :
    Ordinary current := by
  have hdigit : isDigit current = true → Ordinary current := fun hdigit =>
    ordinary_of_numberByte (by rw [isNumberByte, hdigit, Bool.or_true])
  unfold NumberState.next at h
  split at h <;> split_ifs at h
  all_goals first
    | exact hdigit ‹_›
    | rw [‹current = _›]; decide
    | rcases ‹current = _ ∨ current = _› with rfl | rfl <;> decide

/-- No number goes on with white space. -/
theorem next_whitespace (state : NumberState) (h : isWhitespace current = true) :
    state.next current = none := by
  rcases whitespace_cases h with rfl | rfl | rfl | rfl <;> cases state <;> rfl

theorem scanNumberFrom_word {state : NumberState} {type type' : NumberType} {buffer : Bytes}
    (h : scanNumberFrom state type text = some (buffer, type', rest)) :
    text = buffer ++ rest ∧ (∀ c ∈ buffer, Ordinary c) ∧
      ∀ w, (∀ c ∈ w, isWhitespace c = true) →
        scanNumberFrom state type (text ++ w) = some (buffer, type', rest ++ w) := by
  induction text generalizing state type buffer with
  | nil =>
    unfold scanNumberFrom at h
    split_ifs at h with hdone
    cases h
    refine ⟨rfl, fun _ hc => absurd hc List.not_mem_nil, fun w hw => ?_⟩
    cases w with
    | nil => exact if_pos hdone
    | cons c w =>
      have hnext := next_whitespace state (hw c (List.mem_cons_self ..))
      simp only [List.nil_append, scanNumberFrom, hnext, if_pos hdone]
  | cons current left ih =>
    unfold scanNumberFrom at h
    split at h
    · next state' hnext =>
      obtain ⟨⟨others, type'', left'⟩, hothers, heq⟩ := Option.map_eq_some_iff.1 h
      cases heq
      obtain ⟨rfl, hordinary, hmore⟩ := ih hothers
      refine ⟨rfl, fun c hc => ?_, fun w hw => ?_⟩
      · rcases List.mem_cons.1 hc with rfl | hc
        · exact ordinary_of_next hnext
        · exact hordinary c hc
      · simp only [List.cons_append, scanNumberFrom, hnext, hmore w hw, Option.map_some]
    · next hnext =>
      split_ifs at h with hdone
      cases h
      refine ⟨rfl, fun _ hc => absurd hc List.not_mem_nil, fun w hw => ?_⟩
      simp only [List.cons_append, scanNumberFrom, hnext, if_pos hdone]

theorem numberToken_bracket? (type : NumberType) (buffer : Bytes) :
    (numberToken strtod type buffer).bracket? = none := by
  cases type with
  | valueFloat => rfl
  | valueUnsigned | valueInteger =>
    simp only [numberToken]
    split_ifs <;> rfl

theorem scanLiteral_word {literal : Bytes} {token' : Token} :
    TakesWords (scanLiteral literal token') fun token word => token = token' ∧ word = literal := by
  intro text token rest h
  unfold scanLiteral at h
  split_ifs at h with hprefix
  cases h
  obtain ⟨left, rfl⟩ := List.isPrefixOf_iff_prefix.1 hprefix
  refine ⟨literal, by rw [List.drop_left], ⟨rfl, rfl⟩, fun more => ?_⟩
  rw [scanLiteral, if_pos (List.isPrefixOf_iff_prefix.2 (List.prefix_append _ _)), List.drop_left]

/-- A token is a word that crosses its bracket, and white space behind the text changes nothing. -/
theorem scanToken_word (h : scanToken strtod current text = some (token, rest)) :
    ∃ word, text = word ++ rest ∧ Crosses (current :: word) token.bracket?.toList ∧
      ∀ w, (∀ c ∈ w, isWhitespace c = true) →
        scanToken strtod current (text ++ w) = some (token, rest ++ w) := by
  unfold scanToken at h
  cases hstructural : structural? current with
  | some token' =>
    rw [hstructural] at h
    cases h
    obtain ⟨hbare, hbracket⟩ := structural?_bracket? hstructural
    refine ⟨[], rfl, ?_, fun w _ => ?_⟩
    · have hcrosses := crosses_bare fun c hc => List.mem_singleton.1 hc ▸ hbare
      rwa [show [current].filterMap bracket? = (bracket? current).toList by
        cases hb : bracket? current <;> simp [hb], hbracket] at hcrosses
    · rw [scanToken, hstructural]
  | none =>
    rw [hstructural] at h
    have hliteral : ∀ literal token', token'.bracket? = none →
        (∀ c ∈ current :: literal, Ordinary c) →
        scanLiteral literal token' text = some (token, rest) →
        ∃ word, text = word ++ rest ∧ Crosses (current :: word) token.bracket?.toList ∧
          ∀ w, scanLiteral literal token' (text ++ w) = some (token, rest ++ w) := by
      intro literal token' hbracket hordinary hscan
      obtain ⟨word, htext, ⟨rfl, rfl⟩, -⟩ := scanLiteral_word _ _ _ hscan
      refine ⟨word, htext, ?_, scanLiteral_word.append hscan⟩
      rw [hbracket]
      exact crosses_ordinary hordinary
    simp only at h
    split_ifs at h with ht hf hn hquote hnumber
    · obtain ⟨word, htext, hcrosses, hmore⟩ := hliteral _ _ rfl
        (forall_mem_of_all (by rw [ht]; decide)) h
      refine ⟨word, htext, hcrosses, fun w _ => ?_⟩
      simp only [scanToken, hstructural, if_pos ht, hmore]
    · obtain ⟨word, htext, hcrosses, hmore⟩ := hliteral _ _ rfl
        (forall_mem_of_all (by rw [hf]; decide)) h
      refine ⟨word, htext, hcrosses, fun w _ => ?_⟩
      simp only [scanToken, hstructural, if_neg ht, if_pos hf, hmore]
    · obtain ⟨word, htext, hcrosses, hmore⟩ := hliteral _ _ rfl
        (forall_mem_of_all (by rw [hn]; decide)) h
      refine ⟨word, htext, hcrosses, fun w _ => ?_⟩
      simp only [scanToken, hstructural, if_neg ht, if_neg hf, if_pos hn, hmore]
    · obtain ⟨⟨value, left⟩, hvalue, heq⟩ := Option.map_eq_some_iff.1 h
      cases heq
      obtain ⟨word, rfl, hword, hmore⟩ := scanString_word _ _ _ hvalue
      refine ⟨word, rfl, ?_, fun w _ => ?_⟩
      · rw [hquote]
        have hopen : quoting.Leads .outside [0x22] .inside [] :=
          Quoting.leads_open (q := quoting) ⟨by decide, by decide⟩
        exact crosses_of_leads (hopen.append hword)
      · simp only [scanToken, hstructural, if_neg ht, if_neg hf, if_neg hn, if_pos hquote,
          List.append_assoc, hmore]
        rfl
    · obtain ⟨⟨buffer, type, left⟩, hbuffer, heq⟩ := Option.map_eq_some_iff.1 h
      cases heq
      obtain ⟨rfl, hordinary, hmore⟩ := scanNumberFrom_word hbuffer
      refine ⟨buffer, rfl, ?_, fun w hw => ?_⟩
      · rw [numberToken_bracket?]
        refine crosses_ordinary fun c hc => ?_
        rcases List.mem_cons.1 hc with rfl | hc
        · exact ordinary_of_numberByte hnumber
        · exact hordinary c hc
      · simp only [scanToken, hstructural, if_neg ht, if_neg hf, if_neg hn, if_neg hquote,
          if_pos hnumber, scanNumber, hmore w hw]
        rfl

theorem skipWhitespace_split (text : Bytes) : ∃ w, text = w ++ skipWhitespace text ∧
    ∀ c ∈ w, isWhitespace c = true :=
  ⟨text.takeWhile isWhitespace, List.takeWhile_append_dropWhile.symm,
    fun _ hc => List.mem_takeWhile_imp hc⟩

theorem skipWhitespace_append (h : skipWhitespace text = current :: rest) (text' : Bytes) :
    skipWhitespace (text ++ text') = current :: (rest ++ text') := by
  rw [skipWhitespace, List.dropWhile_append, ← skipWhitespace, h]
  rfl

theorem skipWhitespace_whitespace {w : Bytes} (hw : ∀ c ∈ w, isWhitespace c = true)
    (text : Bytes) : skipWhitespace (w ++ text) = skipWhitespace text :=
  List.dropWhile_append_of_pos hw

/-- White space in front of a token is ordinary. -/
theorem crosses_of_whitespace {w : Bytes} (hw : ∀ c ∈ w, isWhitespace c = true) : Crosses w [] :=
  crosses_ordinary fun c hc => ordinary_of_whitespace (hw c hc)

theorem scan_word (h : scan strtod text = some (some token, rest)) :
    ∃ word, text = word ++ rest ∧ Crosses word token.bracket?.toList ∧
      ∀ w, (∀ c ∈ w, isWhitespace c = true) →
        scan strtod (text ++ w) = some (some token, rest ++ w) := by
  obtain ⟨blank, htext, hblank⟩ := skipWhitespace_split text
  unfold scan at h
  split at h
  · cases h
  · next current left hskip =>
    rw [hskip] at htext
    split_ifs at h with hzero
    · cases h
    obtain ⟨⟨token', left'⟩, htoken, heq⟩ := Option.map_eq_some_iff.1 h
    cases heq
    obtain ⟨word, rfl, hcrosses, hmore⟩ := scanToken_word htoken
    refine ⟨blank ++ current :: word, by simp [htext], ?_, fun w hw => ?_⟩
    · exact (crosses_of_whitespace hblank).append hcrosses
    · rw [scan, skipWhitespace_append hskip]
      simp only [if_neg hzero, hmore w hw]
      rfl

/-- Up to the end there is white space. -/
theorem scan_end (h : scan strtod text = some (none, rest)) :
    ∃ word tail, text = word ++ tail ∧ Crosses word [] ∧ (∀ c ∈ tail.head?, c = 0x00) ∧
      ∀ w, (∀ c ∈ w, isWhitespace c = true) →
        ∃ rest', scan strtod (text ++ w) = some (none, rest') := by
  obtain ⟨blank, htext, hblank⟩ := skipWhitespace_split text
  refine ⟨blank, skipWhitespace text, htext, crosses_of_whitespace hblank, ?_⟩
  unfold scan at h
  split at h
  · next hskip =>
    rw [hskip, List.append_nil] at htext
    refine ⟨fun c hc => by simp [hskip] at hc, fun w hw => ⟨[], ?_⟩⟩
    have hskip' : skipWhitespace (text ++ w) = [] := by
      rw [htext, skipWhitespace_whitespace hblank]
      exact List.dropWhile_eq_nil_iff.2 hw
    rw [scan, hskip']
  · next current left hskip =>
    split_ifs at h with hzero
    · cases h
      refine ⟨fun c hc => ?_, fun w hw => ⟨rest ++ w, ?_⟩⟩
      · rw [hskip] at hc
        exact Option.some.inj hc ▸ hzero
      · rw [scan, skipWhitespace_append hskip]
        exact if_pos hzero
    · obtain ⟨_, _, heq⟩ := Option.map_eq_some_iff.1 h
      cases heq

/-- The tokens of a text are the words of a body; behind it the text ends. -/
theorem scanAll_word {ts : List Token} (h : scanAll (scan strtod) text = some (ts, rest)) :
    ∃ body tail, text = body ++ tail ∧ (∀ c ∈ tail.head?, c = 0x00) ∧
      Crosses body (ts.filterMap Token.bracket?) := by
  refine @scanAll_induct _ _ _ _ _ _ (fun text ts _ => ∃ body tail, text = body ++ tail ∧
    (∀ c ∈ tail.head?, c = 0x00) ∧ Crosses body (ts.filterMap Token.bracket?)) ?_ ?_ h
  · intro text rest hscan
    obtain ⟨word, tail, htext, hcrosses, htail, -⟩ := scan_end hscan
    exact ⟨word, tail, htext, htail, hcrosses⟩
  · rintro text token left ts rest hscan ⟨body, tail, rfl, htail, hbody⟩
    obtain ⟨word, rfl, hword, -⟩ := scan_word hscan
    refine ⟨word ++ body, tail, (List.append_assoc ..).symm, htail, ?_⟩
    have hcrosses := hword.append hbody
    rwa [List.filterMap_eq_flatMap_toList, ← List.flatMap_cons (f := fun token =>
      (Token.bracket? token).toList), ← List.filterMap_eq_flatMap_toList] at hcrosses

theorem skipBom_of_head (h : text.head? ≠ some 0xEF) : skipBom text = some text := by
  unfold skipBom
  split
  · exact absurd rfl h
  · rfl

theorem tokens_word {ts : List Token} (h : tokens strtod text = some ts) :
    ∃ body tail, text = body ++ tail ∧ (∀ c ∈ tail.head?, c = 0x00) ∧
      Crosses body (ts.filterMap Token.bracket?) := by
  unfold tokens at h
  simp only [Option.bind_eq_bind, Option.bind_eq_some_iff] at h
  obtain ⟨text', hbom, ⟨ts', rest⟩, hscan, heq⟩ := h
  cases heq
  obtain ⟨body, tail, rfl, htail, hbody⟩ := scanAll_word hscan
  unfold skipBom at hbom
  split at hbom
  · next left =>
    split_ifs at hbom with hprefix
    obtain ⟨left', rfl⟩ := List.isPrefixOf_iff_prefix.1 hprefix
    have heq : body ++ tail = left' := (Option.some.inj hbom).symm
    refine ⟨[0xEF, 0xBB, 0xBF] ++ body, tail, by simp [← heq], htail, ?_⟩
    exact (crosses_ordinary (forall_mem_of_all (by decide))).append hbody
  · cases hbom
    exact ⟨body, tail, rfl, htail, hbody⟩

/-- No byte order mark comes up in white space. -/
theorem head?_surrounded {w w' : Bytes} (hfirst : text.head? ≠ some 0xEF)
    (hw : ∀ c ∈ w, isWhitespace c = true) (hw' : ∀ c ∈ w', isWhitespace c = true) :
    (w ++ (text ++ w')).head? ≠ some 0xEF := by
  have hblank : ∀ l : Bytes, (∀ c ∈ l, isWhitespace c = true) → l.head? ≠ some 0xEF :=
    fun l hl h => absurd (hl _ (List.mem_of_mem_head? h)) (by decide)
  rw [List.head?_append, List.head?_append]
  cases hhead : w.head? with
  | some c =>
    rw [Option.some_or, ← hhead]
    exact hblank w hw
  | none =>
    rw [Option.none_or]
    cases hhead' : text.head? with
    | some c => rwa [Option.some_or, ← hhead']
    | none => rw [Option.none_or]; exact hblank w' hw'

/-- White space around a text changes no token. -/
theorem tokens_surrounded {ts : List Token} {w w' : Bytes} (h : tokens strtod text = some ts)
    (hfirst : text.head? ≠ some 0xEF) (hw : ∀ c ∈ w, isWhitespace c = true)
    (hw' : ∀ c ∈ w', isWhitespace c = true) : tokens strtod (w ++ text ++ w') = some ts := by
  unfold tokens at h
  simp only [skipBom_of_head hfirst, Option.bind_eq_bind, Option.bind_some,
    Option.bind_eq_some_iff] at h
  obtain ⟨⟨ts', rest⟩, hscan, heq⟩ := h
  cases heq
  obtain ⟨rest', hrest'⟩ := @scanAll_append _ _ _ _ _ _ w' shrinks_scan
    (fun text rest hend => by
      obtain ⟨_, _, -, -, -, hmore⟩ := scan_end hend
      exact hmore w' hw')
    (fun text token rest hitem => by
      obtain ⟨_, -, -, hmore⟩ := scan_word hitem
      exact hmore w' hw') hscan
  have hfront : scan strtod (w ++ (text ++ w')) = scan strtod (text ++ w') := by
    rw [scan, skipWhitespace_whitespace hw, ← scan]
  unfold tokens
  rw [List.append_assoc, skipBom_of_head (head?_surrounded hfirst hw hw')]
  simp only [Option.bind_eq_bind, Option.bind_some, scanAll_congr shrinks_scan hfront, hrest']
  rfl

end Json
end SamuraiKirby
