/-
When the cuts TCP makes in the stream of a client go unnoticed.

A client that separates its messages like the server does sends a stream of
newline-terminated texts.  Each `recv` returns an arbitrary part of the stream,
and the part is deserialized as if it were one message.  The actions published
are those of the messages exactly when every part that is not white space is
one message with white space around it.

What is used of `json::parse` is that it accepts one JSON value surrounded by
white space and nothing else, here for the texts of objects.
-/
import SamuraiKirby.Framing.Segments
import SamuraiKirby.Network.ConnectedClient

namespace SamuraiKirby

open Framing

/-- The size of the buffer `recv` fills. -/
def BUFFER_SIZE : Nat := 1024

/-- The white space of JSON. -/
def isSpace (byte : UInt8) : Bool := byte = 0x20 || byte = 0x09 || byte = 0x0a || byte = 0x0d

def newline : UInt8 := 0x0a

def openBrace : UInt8 := 0x7b

def closeBrace : UInt8 := 0x7d

/-- The text of one JSON object, from brace to brace. -/
structure ObjectText (parse : Bytes → Option Json) (t : Bytes) : Prop where
  parses : (parse t).isSome = true
  opening : t.head? = some openBrace
  closing : t.getLast? = some closeBrace
  /-- The library takes a null byte for the end of its input. -/
  noNull : 0 ∉ t

/-- `json::parse` accepts exactly one value surrounded by white space. -/
structure AcceptsOneValue (parse : Bytes → Option Json) : Prop where
  surrounded : ∀ {t w w'}, ObjectText parse t → Blank isSpace w → Blank isSpace w' →
    parse (w ++ t ++ w') = parse t
  blank : ∀ {w}, Blank isSpace w → parse w = none
  /-- The beginning of an object is not a value. -/
  incomplete : ∀ {t r w}, ObjectText parse t → Blank isSpace w → r <+: t → r ≠ t →
    parse (w ++ r) = none
  /-- Nothing may follow a value. -/
  followed : ∀ {t w g l}, ObjectText parse t → Blank isSpace w → Blank isSpace g →
    parse (w ++ t ++ g ++ openBrace :: l) = none
  /-- The end of an object is not the beginning of a value, nor is a string open across a line
  break. -/
  remainder : ∀ {t s g l}, ObjectText parse t → s <:+ t → s ≠ [] → s ≠ t → Blank isSpace g →
    (l = [] ∨ newline ∈ g) → parse (s ++ g ++ l) = none

variable {parse : Bytes → Option Json} {cast : FloatCast} {texts segments : List Bytes}

/-- What one `recv` publishes. -/
def action? (parse : Bytes → Option Json) (cast : FloatCast) (segment : Bytes) :
    Option PlayerActionMessage :=
  (Serializer.deserializePlayerActionMessage cast parse segment).toOption

/-- What the client publishes when `recv` gives it these segments one after the other. -/
def ConnectedClient.receiveSegments (parse : Bytes → Option Json) (cast : FloatCast)
    (client : ConnectedClient) (segments : List Bytes) : ConnectedClient × List System.Event :=
  client.receiveAll (Serializer.deserializePlayerActionMessage cast parse) (segments.map .data)

/-- The text of a player action, with or without white space around it. -/
structure ActionText (parse : Bytes → Option Json) (cast : FloatCast) (t : Bytes) : Prop where
  object : ObjectText parse (trim isSpace t)
  deserializes : (action? parse cast (trim isSpace t)).isSome = true

/-- No part of the text is an action by itself. -/
def Flat (parse : Bytes → Option Json) (cast : FloatCast) (t : Bytes) : Prop :=
  ∀ x c y, t = x ++ c ++ y → x ≠ [] → y ≠ [] → action? parse cast c = none

/-- The results of `recv` for a stream of texts. -/
structure Segmentation (texts segments : List Bytes) : Prop where
  flatten : segments.flatten = texts.flatMap ClientSocket.send
  received : ∀ segment ∈ segments, segment ≠ [] ∧ segment.length ≤ BUFFER_SIZE

/-! ## Reading objects -/

theorem action?_of_parse_eq_none {segment : Bytes} (h : parse segment = none) :
    action? parse cast segment = none := by
  rw [action?, Serializer.deserialize_of_parse_eq_none h]
  rfl

theorem ObjectText.solid {t : Bytes} (h : ObjectText parse t) : Solid isSpace t where
  ne_nil := by
    rintro rfl
    cases h.opening
  head hne := by
    have hhead := h.opening
    rw [List.head?_eq_some_head hne] at hhead
    rw [Option.some.inj hhead]
    rfl
  last hne := by
    have hlast := h.closing
    rw [List.getLast?_eq_some_getLast hne] at hlast
    rw [Option.some.inj hlast]
    rfl

theorem segment_action? (hparse : AcceptsOneValue parse) (cast : FloatCast)
    (record : Bytes → Prop) (hrecord : ∀ {t}, record t → ObjectText parse t) :
    Segment isSpace record (action? parse cast) where
  solid ht := (hrecord ht).solid
  surrounded ht hw hw' := by
    unfold action?
    rw [Serializer.deserialize_congr (hparse.surrounded (hrecord ht) hw hw')]
  unread hw := action?_of_parse_eq_none (hparse.blank hw)

/-- Flat objects are all that is read of a stream of flat objects. -/
theorem delimited_action? (hparse : AcceptsOneValue parse) (cast : FloatCast) :
    Delimited isSpace newline (· = openBrace)
      (fun t => ObjectText parse t ∧ Flat parse cast t) (action? parse cast) where
  toSegment := segment_action? hparse cast _ fun h => h.1
  opening ht := by
    obtain ⟨a, l, rfl⟩ := List.exists_cons_of_ne_nil ht.1.solid.ne_nil
    exact ⟨a, l, rfl, Option.some.inj ht.1.opening⟩
  incomplete ht hw hr hne := action?_of_parse_eq_none (hparse.incomplete ht.1 hw hr hne)
  followed ht hw hg ha := by
    subst ha
    exact action?_of_parse_eq_none (hparse.followed ht.1 hw hg)
  remainder ht hs hne hcut hg hl :=
    action?_of_parse_eq_none (hparse.remainder ht.1 hs hne hcut hg hl)
  inside ht hx hy := ht.2 _ _ _ rfl hx hy

theorem ActionText.action?_eq (hparse : AcceptsOneValue parse) {t : Bytes}
    (h : ActionText parse cast t) : action? parse cast t = action? parse cast (trim isSpace t) := by
  obtain ⟨w, w', hw, hw', hsplit⟩ := exists_trim isSpace t
  have hread := (segment_action? hparse cast (ObjectText parse) id).surrounded h.object hw hw'
  rwa [← hsplit] at hread

/-! ## The published actions -/

theorem filterMap_action?_trim (hparse : AcceptsOneValue parse)
    (htexts : ∀ t ∈ texts, ActionText parse cast t) :
    (texts.map (trim isSpace)).filterMap (action? parse cast) =
      texts.filterMap (action? parse cast) := by
  rw [List.filterMap_map]
  apply List.filterMap_congr
  intro t ht
  exact ((htexts t ht).action?_eq hparse).symm

theorem length_filterMap_action? (hparse : AcceptsOneValue parse)
    (htexts : ∀ t ∈ texts, ActionText parse cast t) :
    (texts.filterMap (action? parse cast)).length = texts.length := by
  apply List.filterMap_length_eq_length.2
  intro t ht
  rw [(htexts t ht).action?_eq hparse]
  exact (htexts t ht).deserializes

/-- If every segment besides white space is one message, the messages are published as if each
came by itself.  The converse holds for messages with no action inside. -/
theorem receiveSegments_eq_iff (hparse : AcceptsOneValue parse) (cast : FloatCast)
    (texts segments : List Bytes) (htexts : ∀ t ∈ texts, ActionText parse cast t)
    (hsegments : Segmentation texts segments) (client : ConnectedClient)
    (hclient : client.hasBeenDisconnected = false) :
    (pieces isSpace segments = texts.map (trim isSpace) →
      client.receiveSegments parse cast segments = client.receiveSegments parse cast texts) ∧
    ((∀ t ∈ texts, Flat parse cast (trim isSpace t)) →
      client.receiveSegments parse cast segments = client.receiveSegments parse cast texts →
      pieces isSpace segments = texts.map (trim isSpace)) := by
  unfold ConnectedClient.receiveSegments
  rw [ConnectedClient.receiveAll_data hclient, ConnectedClient.receiveAll_data hclient]
  constructor
  · intro hpieces
    have hread := (segment_action? hparse cast (ObjectText parse)
      id).filterMap_reads_of_pieces (fun t ht => ?_) hpieces
    · rw [filterMap_action?_trim hparse htexts] at hread
      exact congrArg (fun l => (client, List.map _ l)) hread
    · obtain ⟨t', ht', rfl⟩ := List.mem_map.1 ht
      exact (htexts t' ht').object
  · intro hflat heq
    have hmap := congrArg (fun r => r.2.length) heq
    simp only [List.length_map] at hmap
    have hlength : (segments.filterMap (action? parse cast)).length = texts.length :=
      hmap.trans (length_filterMap_action? hparse htexts)
    have hnewline : isSpace newline = true := rfl
    obtain ⟨lead, lines, hlead, hlines, hstream, hlinetexts⟩ :=
      exists_lines (fun t => ObjectText parse t ∧ Flat parse cast t) hnewline
        fun t ht => ⟨(htexts t ht).object, hflat t ht⟩
    rw [← hlinetexts]
    refine ((delimited_action? hparse cast).pieces_of_length_reads segments).2 lead lines hlead
      hlines (hsegments.flatten.trans hstream) (hlength.trans ?_)
    have hcount := congrArg List.length hlinetexts
    rw [List.length_map, List.length_map] at hcount
    exact hcount.symm

/-! ## A parser for one message -/

/-- The text of a `LEAVE_GAME`. -/
def leaveGameText : Bytes := ascii "\x7b\"messageType\":5\x7d"

/-- A parser that accepts this one text. -/
def parseLeaveGame (t : Bytes) : Option Json :=
  if trim isSpace t = leaveGameText then
    some (.object [(ascii "messageType", .number 5)])
  else none

theorem parseLeaveGame_eq_none {t : Bytes} (h : trim isSpace t ≠ leaveGameText) :
    parseLeaveGame t = none := if_neg h

theorem count_of_blank {byte : UInt8} (hbyte : isSpace byte = false) {w : Bytes}
    (hw : Blank isSpace w) : w.count byte = 0 := by
  apply List.count_eq_zero.2
  intro hmem
  rw [hw byte hmem] at hbyte
  cases hbyte

/-- Trimming keeps every byte that is not white space. -/
theorem count_trim {byte : UInt8} (hbyte : isSpace byte = false) (t : Bytes) :
    (trim isSpace t).count byte = t.count byte := by
  obtain ⟨w, w', hw, hw', hsplit⟩ := exists_trim isSpace t
  have hcount := congrArg (List.count byte) hsplit
  rw [List.count_append, List.count_append, count_of_blank hbyte hw,
    count_of_blank hbyte hw'] at hcount
  omega

theorem head?_trim {byte : UInt8} (hbyte : isSpace byte = false) (t : Bytes) :
    (trim isSpace (byte :: t)).head? = some byte := by
  obtain ⟨w, w', hw, hw', hsplit⟩ := exists_trim isSpace (byte :: t)
  cases w with
  | cons a w =>
    rw [List.cons_append, List.cons_append] at hsplit
    rw [(List.cons.inj hsplit).1, hw a (List.mem_cons_self ..)] at hbyte
    cases hbyte
  | nil =>
    cases htrim : trim isSpace (byte :: t) with
    | nil =>
      rw [blank_of_trim htrim byte (List.mem_cons_self ..)] at hbyte
      cases hbyte
    | cons a l =>
      rw [htrim, List.nil_append, List.cons_append] at hsplit
      rw [(List.cons.inj hsplit).1]
      rfl

theorem acceptsOneValue_parseLeaveGame : AcceptsOneValue parseLeaveGame := by
  have htext : ∀ {t}, ObjectText parseLeaveGame t → t = leaveGameText := by
    intro t ht
    have htrim : trim isSpace t = t := by
      have hself : trim isSpace ([] ++ t ++ []) = t :=
        trim_surrounded ht.solid blank_nil blank_nil
      rwa [List.nil_append, List.append_nil] at hself
    by_cases h : trim isSpace t = leaveGameText
    · exact htrim.symm.trans h
    · have hparses := ht.parses
      rw [parseLeaveGame_eq_none h] at hparses
      cases hparses
  have hopen : leaveGameText.count openBrace = 1 := by decide
  have hclose : leaveGameText.count closeBrace = 1 := by decide
  refine ⟨fun ht hw hw' => ?_, fun hw => ?_, fun ht hw hr hne => ?_, fun ht hw hg => ?_,
    fun {t s g l} ht hs hne hcut hg hl => ?_⟩
  · rw [parseLeaveGame, parseLeaveGame, trim_surrounded ht.solid hw hw', htext ht]
    rfl
  · apply parseLeaveGame_eq_none
    rw [trim_of_blank hw]
    decide
  · -- the closing brace is missing
    apply parseLeaveGame_eq_none
    intro h
    obtain ⟨s, hs⟩ := hr
    have hlast : closeBrace ∈ s := by
      have hclosing := ht.closing
      rw [← hs, List.getLast?_append] at hclosing
      cases hend : s.getLast? with
      | none =>
        rw [List.getLast?_eq_none_iff.1 hend, List.append_nil] at hs
        exact absurd hs hne
      | some a =>
        rw [hend, Option.some_or] at hclosing
        exact List.mem_of_getLast? (hend.trans hclosing)
    have hpos := List.count_pos_iff.2 hlast
    have hcount := congrArg (List.count closeBrace) h
    rw [count_trim rfl, List.count_append, count_of_blank rfl hw] at hcount
    have hsum := congrArg (List.count closeBrace) hs
    rw [htext ht, List.count_append] at hsum
    omega
  · -- there is a second opening brace
    apply parseLeaveGame_eq_none
    intro h
    have hcount := congrArg (List.count openBrace) h
    rw [count_trim rfl, htext ht] at hcount
    simp only [List.count_append, List.count_cons_self] at hcount
    omega
  · -- the first byte is not the opening brace
    apply parseLeaveGame_eq_none
    intro h
    obtain ⟨x, hx⟩ := hs
    obtain ⟨b, s, rfl⟩ := List.exists_cons_of_ne_nil hne
    have hspace : leaveGameText.all (fun byte => !isSpace byte) = true := rfl
    have hmem : b ∈ leaveGameText := by
      rw [← htext ht, ← hx]
      exact List.mem_append_right _ (List.mem_cons_self ..)
    have hb : isSpace b = false := by simpa using List.all_eq_true.1 hspace b hmem
    have hhead := head?_trim hb (s ++ g ++ l)
    rw [← List.cons_append, ← List.cons_append, h] at hhead
    cases x with
    | nil => exact hcut hx
    | cons a x =>
      have ha : a = openBrace := by
        have hopening := ht.opening
        rw [← hx] at hopening
        exact Option.some.inj hopening
      have hfirst : openBrace = b := Option.some.inj hhead
      have hcount := congrArg (List.count openBrace) hx
      rw [htext ht, hopen, ha, ← hfirst, List.cons_append, List.count_cons_self,
        List.count_append, List.count_cons_self] at hcount
      omega

theorem actionText_leaveGameText (cast : FloatCast) :
    ActionText parseLeaveGame cast leaveGameText :=
  ⟨⟨rfl, rfl, rfl, by decide⟩, rfl⟩

theorem flat_leaveGameText (cast : FloatCast) : Flat parseLeaveGame cast leaveGameText := by
  intro x c y hsplit hx _
  refine action?_of_parse_eq_none (parseLeaveGame_eq_none fun h => ?_)
  obtain ⟨a, x, rfl⟩ := List.exists_cons_of_ne_nil hx
  have ha : openBrace = a := Option.some.inj (congrArg List.head? hsplit)
  have hone : leaveGameText.count openBrace = 1 := by decide
  have hinner := congrArg (List.count openBrace) h
  rw [count_trim rfl, hone] at hinner
  have hcount := congrArg (List.count openBrace) hsplit
  rw [hone, ← ha, List.count_append, List.count_append, List.count_cons_self] at hcount
  omega

def zeroCast : FloatCast := ⟨fun _ => 0, fun _ => 0⟩

/-- Two messages, of which the second comes before its separator. -/
theorem receiveSegments_eq_iff_leaveGameText :
    (ConnectedClient.new 0).1.receiveSegments parseLeaveGame zeroCast
          [ClientSocket.send leaveGameText, leaveGameText, [newline]] =
        (ConnectedClient.new 0).1.receiveSegments parseLeaveGame zeroCast
          [leaveGameText, leaveGameText] ∧
      pieces isSpace [ClientSocket.send leaveGameText, leaveGameText, [newline]] =
        [leaveGameText, leaveGameText].map (trim isSpace) := by
  have htexts : ∀ t ∈ [leaveGameText, leaveGameText], t = leaveGameText := fun t ht => by
    simpa using ht
  have hiff := receiveSegments_eq_iff acceptsOneValue_parseLeaveGame zeroCast
    [leaveGameText, leaveGameText] [ClientSocket.send leaveGameText, leaveGameText, [newline]]
    (fun t ht => htexts t ht ▸ actionText_leaveGameText zeroCast)
    ⟨rfl, by decide⟩ (ConnectedClient.new 0).1 rfl
  have hsame := hiff.1 (by decide)
  exact ⟨hsame, hiff.2 (fun t ht => htexts t ht ▸ flat_leaveGameText zeroCast) hsame⟩

/-- Two messages in one segment are lost. -/
theorem coalesced_messages_are_lost :
    ¬ ∀ (parse : Bytes → Option Json) (cast : FloatCast) (texts segments : List Bytes)
      (client : ConnectedClient), AcceptsOneValue parse →
        (∀ t ∈ texts, ActionText parse cast t) → Segmentation texts segments →
        client.hasBeenDisconnected = false →
        client.receiveSegments parse cast segments = client.receiveSegments parse cast texts := by
  intro h
  have heq := h parseLeaveGame zeroCast [leaveGameText, leaveGameText]
    [ClientSocket.send leaveGameText ++ ClientSocket.send leaveGameText] (ConnectedClient.new 0).1
    acceptsOneValue_parseLeaveGame (fun t ht => ?_) ⟨rfl, by decide⟩ rfl
  · have hlength := congrArg (fun r => r.2.length) heq
    revert hlength
    decide
  · simp only [List.mem_cons, List.not_mem_nil, or_false, or_self] at ht
    exact ht ▸ actionText_leaveGameText _

end SamuraiKirby
