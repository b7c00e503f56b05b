/-
How the library parses a text: `json::parse`.

`sax_parse_internal` is a loop around a stack of the arrays and objects that are
open, and it takes one token at a time.  Between two tokens it is at one of a few
places, and `step` says what a token does there.  The values are put where
`json_sax_dom_parser` puts them.  A key that occurs twice keeps the last value.

Whatever the text is, the value is well formed: its strings are UTF-8, its integers
fit 64 bits, and the keys of an object are in order (`wellFormed_of_parse`).  So it can
be dumped again.
-/
import SamuraiKirby.Network.Lexer

namespace SamuraiKirby
namespace Json

/-- `object->operator[](key) = value` -/
def assign (key : Bytes) (value : Json) : List (Bytes × Json) → List (Bytes × Json)
  | [] => [(key, value)]
  | member :: rest =>
    if key < member.1 then (key, value) :: member :: rest
    else if key = member.1 then (key, value) :: rest
    else member :: assign key value rest

/-- An array or an object that is open; the value of the key comes next. -/
inductive Frame where
  | array (elements : List Json)
  | object (members : List (Bytes × Json)) (key : Bytes)

/-- Where `sax_parse_internal` takes the next token. -/
inductive Parsing where
  /-- at the switch on the first token of a value -/
  | value (stack : List Frame)
  /-- behind the opening bracket -/
  | arrayStart (stack : List Frame)
  /-- behind the opening brace -/
  | objectStart (stack : List Frame)
  /-- behind a comma in an object -/
  | objectKey (members : List (Bytes × Json)) (stack : List Frame)
  | objectSeparator (members : List (Bytes × Json)) (key : Bytes) (stack : List Frame)
  /-- behind an element -/
  | arrayEvaluation (elements : List Json) (stack : List Frame)
  /-- behind a member -/
  | objectEvaluation (members : List (Bytes × Json)) (stack : List Frame)
  /-- behind the value -/
  | finished (json : Json)

/-- `handle_value`, and where the parser goes from there. -/
def handleValue (value : Json) : List Frame → Parsing
  | [] => .finished value
  | .array elements :: stack => .arrayEvaluation (elements ++ [value]) stack
  | .object members key :: stack => .objectEvaluation (assign key value members) stack

/-- The switch on the first token of a value. -/
def startValue (stack : List Frame) : Token → Option Parsing
  | .beginObject => some (.objectStart stack)
  | .beginArray => some (.arrayStart stack)
  | .valueFloat value => value.map fun x => handleValue (.float x) stack
  | .literalFalse => some (handleValue (.boolean false) stack)
  | .literalNull => some (handleValue .null stack)
  | .literalTrue => some (handleValue (.boolean true) stack)
  | .valueInteger value => some (handleValue (.number value) stack)
  | .valueString value => some (handleValue (.string value) stack)
  | .valueUnsigned value => some (handleValue (.number value) stack)
  | .endArray | .endObject | .nameSeparator | .valueSeparator => none

/-- What one token does. -/
def Parsing.step : Parsing → Token → Option Parsing
  | .value stack, token => startValue stack token
  | .arrayStart stack, .endArray => some (handleValue (.array []) stack)
  | .arrayStart stack, token => startValue (.array [] :: stack) token
  | .objectStart stack, .endObject => some (handleValue (.object []) stack)
  | .objectStart stack, .valueString key => some (.objectSeparator [] key stack)
  | .objectKey members stack, .valueString key => some (.objectSeparator members key stack)
  | .objectSeparator members key stack, .nameSeparator =>
    some (.value (.object members key :: stack))
  | .arrayEvaluation elements stack, .valueSeparator => some (.value (.array elements :: stack))
  | .arrayEvaluation elements stack, .endArray => some (handleValue (.array elements) stack)
  | .objectEvaluation members stack, .valueSeparator => some (.objectKey members stack)
  | .objectEvaluation members stack, .endObject => some (handleValue (.object members) stack)
  | _, _ => none

def Parsing.result? : Parsing → Option Json
  | .finished json => some json
  | _ => none

/-- `json::parse`, which throws where there is no value. -/
def parse (strtod : Bytes → Option Rat) (text : Bytes) : Option Json := do
  let tokens ← tokens strtod text
  let parsing ← tokens.foldlM Parsing.step (.value [])
  parsing.result?

/-! ## Values as the library keeps them -/

inductive WellFormed : Json → Prop where
  | null : WellFormed .null
  | boolean (value : Bool) : WellFormed (.boolean value)
  | number {value : Int} (hlow : -2 ^ 63 ≤ value) (hhigh : value < 2 ^ 64) :
      WellFormed (.number value)
  | float (value : Rat) : WellFormed (.float value)
  | string {value : Bytes} (hvalue : Coding.Utf8 value) : WellFormed (.string value)
  | array {elements : List Json} (h : ∀ element ∈ elements, WellFormed element) :
      WellFormed (.array elements)
  | object {members : List (Bytes × Json)} (hkeys : ∀ member ∈ members, Coding.Utf8 member.1)
      (hsorted : (members.map Prod.fst).Pairwise (· < ·))
      (hvalues : ∀ member ∈ members, WellFormed member.2) : WellFormed (.object members)

/-- The members of a well-formed object. -/
structure WellFormedMembers (members : List (Bytes × Json)) : Prop where
  keys : ∀ member ∈ members, Coding.Utf8 member.1
  sorted : (members.map Prod.fst).Pairwise (· < ·)
  values : ∀ member ∈ members, WellFormed member.2

variable {key : Bytes} {value json : Json} {elements : List Json} {members : List (Bytes × Json)}
  {stack : List Frame} {parsing parsing' : Parsing} {token : Token} {strtod : Bytes → Option Rat}
  {text' : Bytes}

theorem WellFormedMembers.object (h : WellFormedMembers members) : WellFormed (.object members) :=
  .object h.keys h.sorted h.values

theorem WellFormedMembers.nil : WellFormedMembers [] where
  keys _ h := absurd h List.not_mem_nil
  sorted := .nil
  values _ h := absurd h List.not_mem_nil

theorem mem_assign {member : Bytes × Json} (h : member ∈ assign key value members) :
    member = (key, value) ∨ member ∈ members := by
  induction members with
  | nil => exact Or.inl (List.mem_singleton.1 h)
  | cons other rest ih =>
    unfold assign at h
    split_ifs at h with hlt heq
    · exact List.mem_cons.1 h
    · exact (List.mem_cons.1 h).imp_right (List.mem_cons_of_mem _)
    · rcases List.mem_cons.1 h with rfl | h
      · exact Or.inr (List.mem_cons_self ..)
      · exact (ih h).imp_right (List.mem_cons_of_mem _)

/-- A member in front of all others. -/
theorem sorted_cons {other : Bytes × Json} (hlt : key < other.1)
    (h : ((other :: members).map Prod.fst).Pairwise (· < ·)) :
    (((key, value) :: other :: members).map Prod.fst).Pairwise (· < ·) := by
  rw [List.map_cons, List.pairwise_cons]
  refine ⟨fun key' hkey => ?_, h⟩
  rw [List.map_cons, List.pairwise_cons] at h
  rcases List.mem_cons.1 hkey with rfl | hkey
  · exact hlt
  · exact List.lt_trans hlt (h.1 key' hkey)

/-- A member put in somewhere behind the first. -/
theorem sorted_behind {other : Bytes × Json} {members' : List (Bytes × Json)}
    (hlt : ¬ key < other.1) (hne : key ≠ other.1)
    (h : ((other :: members).map Prod.fst).Pairwise (· < ·))
    (hmem : ∀ member ∈ members', member = (key, value) ∨ member ∈ members)
    (hsorted : (members'.map Prod.fst).Pairwise (· < ·)) :
    ((other :: members').map Prod.fst).Pairwise (· < ·) := by
  rw [List.map_cons, List.pairwise_cons] at h ⊢
  refine ⟨fun key' hkey => ?_, hsorted⟩
  obtain ⟨member, hmember, rfl⟩ := List.mem_map.1 hkey
  rcases hmem member hmember with rfl | hmember
  · exact Std.lt_of_le_of_ne hlt hne.symm
  · exact h.1 _ (List.mem_map_of_mem hmember)

/-- The keys of an object stay in order. -/
theorem sorted_assign (h : (members.map Prod.fst).Pairwise (· < ·)) :
    ((assign key value members).map Prod.fst).Pairwise (· < ·) := by
  induction members with
  | nil => exact List.pairwise_singleton _ _
  | cons other rest ih =>
    have hrest := (List.pairwise_cons.1 h).2
    unfold assign
    split_ifs with hlt heq
    · exact sorted_cons hlt h
    · subst heq
      exact h
    · exact sorted_behind hlt heq h (fun _ => mem_assign) (ih hrest)

theorem WellFormedMembers.assign (h : WellFormedMembers members) (hkey : Coding.Utf8 key)
    (hvalue : WellFormed value) : WellFormedMembers (assign key value members) where
  keys member hmember := by
    rcases mem_assign hmember with rfl | hmember
    · exact hkey
    · exact h.keys member hmember
  sorted := sorted_assign h.sorted
  values member hmember := by
    rcases mem_assign hmember with rfl | hmember
    · exact hvalue
    · exact h.values member hmember

/-! ## What is parsed is well formed -/

def Frame.WellFormed : Frame → Prop
  | .array elements => ∀ element ∈ elements, element.WellFormed
  | .object members key => WellFormedMembers members ∧ Coding.Utf8 key

def WellFormedStack (stack : List Frame) : Prop := ∀ frame ∈ stack, frame.WellFormed

def Parsing.WellFormed : Parsing → Prop
  | .value stack | .arrayStart stack | .objectStart stack => WellFormedStack stack
  | .objectKey members stack | .objectEvaluation members stack =>
    WellFormedMembers members ∧ WellFormedStack stack
  | .objectSeparator members key stack =>
    WellFormedMembers members ∧ Coding.Utf8 key ∧ WellFormedStack stack
  | .arrayEvaluation elements stack =>
    (∀ element ∈ elements, element.WellFormed) ∧ WellFormedStack stack
  | .finished json => json.WellFormed

theorem handleValue_wellFormed (hvalue : value.WellFormed) (hstack : WellFormedStack stack) :
    (handleValue value stack).WellFormed := by
  cases stack with
  | nil => exact hvalue
  | cons frame stack =>
    have hframe := hstack frame (List.mem_cons_self ..)
    have hrest : WellFormedStack stack := fun f hf => hstack f (List.mem_cons_of_mem _ hf)
    cases frame with
    | array elements =>
      refine ⟨fun element helement => ?_, hrest⟩
      rcases List.mem_append.1 helement with helement | helement
      · exact hframe element helement
      · exact List.mem_singleton.1 helement ▸ hvalue
    | object members key => exact ⟨hframe.1.assign hframe.2 hvalue, hrest⟩

theorem startValue_wellFormed (htoken : token.WellFormed) (hstack : WellFormedStack stack)
    (h : startValue stack token = some parsing) : parsing.WellFormed := by
  cases token with
  | valueFloat value =>
    obtain ⟨x, -, rfl⟩ := Option.map_eq_some_iff.1 h
    exact handleValue_wellFormed (.float x) hstack
  | valueString value =>
    cases h
    exact handleValue_wellFormed (.string htoken) hstack
  | valueInteger value =>
    cases h
    have hlt : value < 2 ^ 63 := htoken.2
    exact handleValue_wellFormed (.number htoken.1 (by omega)) hstack
  | valueUnsigned value =>
    cases h
    have hlt : value < 2 ^ 64 := htoken
    exact handleValue_wellFormed (.number (by omega) (by exact_mod_cast hlt)) hstack
  | literalTrue | literalFalse =>
    cases h
    exact handleValue_wellFormed (.boolean _) hstack
  | literalNull =>
    cases h
    exact handleValue_wellFormed .null hstack
  | beginArray | beginObject =>
    cases h
    exact hstack
  | endArray | endObject | nameSeparator | valueSeparator => cases h

theorem WellFormedStack.cons {frame : Frame} (hframe : frame.WellFormed)
    (hstack : WellFormedStack stack) : WellFormedStack (frame :: stack) := by
  intro f hf
  rcases List.mem_cons.1 hf with rfl | hf
  · exact hframe
  · exact hstack f hf

theorem Parsing.step_wellFormed (h : parsing.WellFormed) (htoken : token.WellFormed)
    (hstep : parsing.step token = some parsing') : parsing'.WellFormed := by
  unfold Parsing.step at hstep
  split at hstep
  · exact startValue_wellFormed htoken h hstep
  · cases hstep
    exact handleValue_wellFormed (.array fun _ hmem => absurd hmem List.not_mem_nil) h
  · refine startValue_wellFormed htoken (WellFormedStack.cons ?_ h) hstep
    exact fun _ hmem => absurd hmem List.not_mem_nil
  · cases hstep
    exact handleValue_wellFormed WellFormedMembers.nil.object h
  · cases hstep
    exact ⟨.nil, htoken, h⟩
  · cases hstep
    exact ⟨h.1, htoken, h.2⟩
  · cases hstep
    exact WellFormedStack.cons ⟨h.1, h.2.1⟩ h.2.2
  · cases hstep
    exact WellFormedStack.cons h.1 h.2
  · cases hstep
    exact handleValue_wellFormed (.array h.1) h.2
  · cases hstep
    exact h
  · cases hstep
    exact handleValue_wellFormed h.1.object h.2
  · cases hstep

theorem foldlM_wellFormed {ts : List Token} (h : parsing.WellFormed)
    (htokens : ∀ token ∈ ts, token.WellFormed)
    (hfold : ts.foldlM Parsing.step parsing = some parsing') : parsing'.WellFormed := by
  induction ts generalizing parsing with
  | nil =>
    cases hfold
    exact h
  | cons token ts ih =>
    rw [List.foldlM_cons, Option.bind_eq_bind, Option.bind_eq_some_iff] at hfold
    obtain ⟨next, hstep, hfold⟩ := hfold
    refine ih (Parsing.step_wellFormed h (htokens token (List.mem_cons_self ..)) hstep) ?_ hfold
    exact fun other hother => htokens other (List.mem_cons_of_mem _ hother)

/-- Whatever is accepted is well formed. -/
theorem wellFormed_of_parse (h : parse strtod text' = some json) : json.WellFormed := by
  unfold parse at h
  simp only [Option.bind_eq_bind, Option.bind_eq_some_iff] at h
  obtain ⟨ts, hts, parsing, hfold, hresult⟩ := h
  have hparsing := foldlM_wellFormed
    (show (Parsing.value []).WellFormed from fun _ hmem => absurd hmem List.not_mem_nil)
    (tokens_wellFormed hts) hfold
  cases parsing with
  | finished json' =>
    cases hresult
    exact hparsing
  | _ => cases hresult

/-- Nothing is thrown when a well-formed value is dumped. -/
theorem WellFormed.dump_eq (dumpFloat : Rat → Bytes) (h : json.WellFormed) :
    dump dumpFloat json = .ok (text dumpFloat json) := by
  have hok : ∃ t, dump dumpFloat json = .ok t := by
    induction h with
    | null => exact ⟨_, rfl⟩
    | boolean value => exact ⟨_, rfl⟩
    | number => exact ⟨_, rfl⟩
    | float value => exact ⟨_, rfl⟩
    | string hvalue =>
      rw [dump, dumpEscaped_eq hvalue]
      exact ⟨_, rfl⟩
    | array _ ih =>
      rw [dump, dumpElements_eq fun element hmem => by
        obtain ⟨t, ht⟩ := ih element hmem
        rw [text_eq ht, ht]]
      exact ⟨_, rfl⟩
    | object hkeys _ _ ih =>
      rw [dump, dumpMembers_eq hkeys fun member hmem => by
        obtain ⟨t, ht⟩ := ih member hmem
        rw [text_eq ht, ht]]
      exact ⟨_, rfl⟩
  obtain ⟨t, ht⟩ := hok
  rw [text_eq ht, ht]

/-- Whatever is accepted is well formed, and nothing is thrown when it is dumped. -/
theorem dumps_of_parse (dumpFloat : Rat → Bytes) (h : parse strtod text' = some json) :
    json.WellFormed ∧ ∃ t, dump dumpFloat json = .ok t :=
  ⟨wellFormed_of_parse h, _, (wellFormed_of_parse h).dump_eq dumpFloat⟩

/-- An escape is translated and the members are put in order, the last of each key. -/
theorem dumps_of_parse_members :
    (Json.object [(ascii "a", .string [0xC3, 0xA9]), (ascii "b", .number (-2))]).WellFormed :=
  (@dumps_of_parse _ (fun _ => none)
    (ascii " \x7b\"b\":[0],\"a\":\"\\u00e9\", \"b\":-2\x7d") (fun _ => []) rfl).1

end Json
end SamuraiKirby
