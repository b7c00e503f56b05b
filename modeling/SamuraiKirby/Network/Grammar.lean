/-
The grammar of JSON, and that the parser follows it.

`Derives` is the grammar, from the values down to the tokens, together with the values that
are meant.  `sax_parse_internal` works the other way, with a stack instead of recursion.
`Spells` says what the tokens taken so far have to do with what is on the stack, and every
token keeps it.  So the tokens that are accepted are those of the grammar, with the value
the grammar gives them (`parse_iff_derives`).

An object keeps the last value of each key (`Keeps`).
-/
import Mathlib.Data.List.Induction
import Mathlib.Data.List.Sort
import SamuraiKirby.Network.Parser

namespace SamuraiKirby
namespace Json

/-- A token that is a value by itself. -/
def Token.scalar? : Token → Option Json
  | .literalTrue => some (.boolean true)
  | .literalFalse => some (.boolean false)
  | .literalNull => some .null
  | .valueString value => some (.string value)
  | .valueUnsigned value => some (.number value)
  | .valueInteger value => some (.number value)
  | .valueFloat value => value.map .float
  | _ => none

/-- An object keeps the last value of each key, and has its keys in order. -/
structure Keeps (pairs members : List (Bytes × Json)) : Prop where
  sorted : (members.map Prod.fst).Pairwise (· < ·)
  lookup : ∀ key, members.lookup key = pairs.reverse.lookup key

/-- What a row of tokens can be: a value, some elements or some members. -/
inductive Phrase where
  | value (json : Json)
  | elements (elements : List Json)
  | members (pairs : List (Bytes × Json))

/-- The grammar.  Elements and members are at least one, with a comma between any two. -/
inductive Derives : Phrase → List Token → Prop where
  | scalar {token : Token} {json : Json} (h : token.scalar? = some json) :
      Derives (.value json) [token]
  | emptyArray : Derives (.value (.array [])) [.beginArray, .endArray]
  | array {elements : List Json} {ts : List Token} (h : Derives (.elements elements) ts) :
      Derives (.value (.array elements)) (.beginArray :: ts ++ [.endArray])
  | emptyObject : Derives (.value (.object [])) [.beginObject, .endObject]
  | object {pairs members : List (Bytes × Json)} {ts : List Token}
      (h : Derives (.members pairs) ts) (hkeeps : Keeps pairs members) :
      Derives (.value (.object members)) (.beginObject :: ts ++ [.endObject])
  | firstElement {json : Json} {ts : List Token} (h : Derives (.value json) ts) :
      Derives (.elements [json]) ts
  | nextElement {elements : List Json} {json : Json} {ts ts' : List Token}
      (hfront : Derives (.elements elements) ts) (h : Derives (.value json) ts') :
      Derives (.elements (elements ++ [json])) (ts ++ .valueSeparator :: ts')
  | firstMember {json : Json} {ts : List Token} (key : Bytes) (h : Derives (.value json) ts) :
      Derives (.members [(key, json)]) (.valueString key :: .nameSeparator :: ts)
  | nextMember {pairs : List (Bytes × Json)} {json : Json} {ts ts' : List Token} (key : Bytes)
      (hfront : Derives (.members pairs) ts) (h : Derives (.value json) ts') :
      Derives (.members (pairs ++ [(key, json)]))
        (ts ++ .valueSeparator :: .valueString key :: .nameSeparator :: ts')

variable {strtod : Bytes → Option Rat} {text' : Bytes} {json : Json} {stack : List Frame}
  {parsing parsing' : Parsing} {token : Token} {ts ts' : List Token} {elements : List Json}
  {pairs members members' : List (Bytes × Json)} {key : Bytes} {value : Json}

/-! ## The members of an object -/

/-- The assignments of an object, in the order they come. -/
def assignAll (pairs : List (Bytes × Json)) : List (Bytes × Json) :=
  pairs.foldl (fun members pair => assign pair.1 pair.2 members) []

theorem lookup_pair (key' : Bytes) (member : Bytes × Json) (members : List (Bytes × Json)) :
    (member :: members).lookup key' =
      if key' = member.1 then some member.2 else members.lookup key' := by
  obtain ⟨key, value⟩ := member
  by_cases h : key' = key
  · rw [if_pos h, h, List.lookup_cons_self]
  · rw [if_neg h, List.lookup_cons, beq_false_of_ne h]

theorem lookup_assign (key' : Bytes) :
    (assign key value members).lookup key' =
      if key' = key then some value else members.lookup key' := by
  induction members with
  | nil => exact lookup_pair key' (key, value) []
  | cons member rest ih =>
    unfold assign
    by_cases hlt : key < member.1
    · rw [if_pos hlt, lookup_pair]
    rw [if_neg hlt]
    by_cases heq : key = member.1
    · rw [if_pos heq, lookup_pair, lookup_pair, heq]
      split_ifs <;> rfl
    · rw [if_neg heq, lookup_pair, lookup_pair, ih]
      by_cases hkey : key' = key
      · rw [if_pos hkey, if_neg fun h => heq (hkey.symm.trans h), if_pos hkey]
      · rw [if_neg hkey, if_neg hkey]

theorem assignAll_concat (pairs : List (Bytes × Json)) (key : Bytes) (value : Json) :
    assignAll (pairs ++ [(key, value)]) = assign key value (assignAll pairs) := by
  rw [assignAll, List.foldl_append]
  rfl

theorem keeps_assignAll (pairs : List (Bytes × Json)) : Keeps pairs (assignAll pairs) := by
  induction pairs using List.reverseRecOn with
  | nil => exact ⟨.nil, fun _ => rfl⟩
  | append_singleton pairs pair ih =>
    obtain ⟨key, value⟩ := pair
    rw [assignAll_concat]
    refine ⟨sorted_assign ih.sorted, fun key' => ?_⟩
    rw [lookup_assign, List.reverse_append, List.reverse_singleton, List.singleton_append,
      lookup_pair, ih.lookup]

theorem mem_iff_lookup (h : (members.map Prod.fst).Pairwise (· < ·)) :
    (key, value) ∈ members ↔ members.lookup key = some value := by
  induction members with
  | nil => simp
  | cons member rest ih =>
    obtain ⟨key', value'⟩ := member
    obtain ⟨hlt, hrest⟩ := List.pairwise_cons.1 h
    have hlater : (key, value) ∈ rest → key' < key := fun hmem =>
      hlt key (List.mem_map_of_mem hmem)
    rw [lookup_pair, List.mem_cons, ih hrest]
    by_cases hkey : key = key'
    · subst hkey
      have hnone : rest.lookup key ≠ some value := fun hlookup =>
        absurd (hlater ((ih hrest).2 hlookup)) (List.lt_irrefl key)
      simp [hnone, eq_comm]
    · simp [hkey]

/-- Which members an object has is settled by what it keeps. -/
theorem Keeps.unique (h : Keeps pairs members) (h' : Keeps pairs members') :
    members = members' := by
  have hmem : ∀ pair, pair ∈ members ↔ pair ∈ members' := by
    rintro ⟨key, value⟩
    rw [mem_iff_lookup h.sorted, mem_iff_lookup h'.sorted, h.lookup, h'.lookup]
  have : Std.Irrefl fun a b : Bytes × Json => a.1 < b.1 := ⟨fun a => List.lt_irrefl a.1⟩
  exact (List.pairwise_map.1 h.sorted).eq_of_mem_iff (List.pairwise_map.1 h'.sorted) @hmem

/-! ## What the grammar derives is accepted -/

theorem startValue_scalar (h : token.scalar? = some json) (stack : List Frame) :
    startValue stack token = some (handleValue json stack) := by
  cases token with
  | valueFloat value =>
    obtain ⟨x, rfl, rfl⟩ := Option.map_eq_some_iff.1 h
    rfl
  | literalTrue | literalFalse | literalNull | valueString | valueUnsigned | valueInteger =>
    cases h
    rfl
  | beginArray | beginObject | endArray | endObject | nameSeparator | valueSeparator => cases h

/-- Where the tokens of a phrase are taken, and where they lead. -/
def Phrase.Leads (ts : List Token) : Phrase → Prop
  | .value json => ∀ stack, ts.foldlM Parsing.step (.value stack) = some (handleValue json stack) ∧
      ts.foldlM Parsing.step (.arrayStart stack) = some (handleValue json (.array [] :: stack))
  | .elements elements => ∀ stack,
      ts.foldlM Parsing.step (.arrayStart stack) = some (.arrayEvaluation elements stack)
  | .members pairs => ∀ stack,
      ts.foldlM Parsing.step (.objectStart stack) = some (.objectEvaluation (assignAll pairs) stack)

theorem Derives.leads {phrase : Phrase} (h : Derives phrase ts) : phrase.Leads ts := by
  induction h with
  | @scalar token json h =>
    intro stack
    have hstart := startValue_scalar h
    have harray : (Parsing.arrayStart stack).step token =
        startValue (.array [] :: stack) token := by
      cases token with
      | endArray => cases h
      | _ => rfl
    refine ⟨?_, ?_⟩
    · rw [List.foldlM_cons, Parsing.step, hstart]
      rfl
    · rw [List.foldlM_cons, harray, hstart]
      rfl
  | emptyArray => exact fun stack => ⟨rfl, rfl⟩
  | emptyObject => exact fun stack => ⟨rfl, rfl⟩
  | @array elements ts _ ih =>
    have hclose : ∀ stack, (ts ++ [Token.endArray]).foldlM Parsing.step (.arrayStart stack) =
        some (handleValue (.array elements) stack) := by
      intro stack
      rw [List.foldlM_append, ih]
      rfl
    exact fun stack => ⟨hclose stack, hclose (.array [] :: stack)⟩
  | @object pairs members ts _ hkeeps ih =>
    obtain rfl := hkeeps.unique (keeps_assignAll pairs)
    have hclose : ∀ stack, (ts ++ [Token.endObject]).foldlM Parsing.step (.objectStart stack) =
        some (handleValue (.object (assignAll pairs)) stack) := by
      intro stack
      rw [List.foldlM_append, ih]
      rfl
    exact fun stack => ⟨hclose stack, hclose (.array [] :: stack)⟩
  | firstElement _ ih => exact fun stack => (ih stack).2
  | nextElement _ _ ihfront ih =>
    intro stack
    rw [List.foldlM_append, ihfront]
    exact (ih _).1
  | firstMember key _ ih => exact fun stack => (ih _).1
  | nextMember key _ _ ihfront ih =>
    intro stack
    rw [List.foldlM_append, ihfront, assignAll_concat]
    exact (ih _).1

/-! ## What is accepted is derived -/

/-- The tokens in front of the value that comes next. -/
inductive StackSpells : List Frame → List Token → Prop where
  | nil : StackSpells [] []
  | firstElement {stack : List Frame} {ts : List Token} (hstack : StackSpells stack ts) :
      StackSpells (.array [] :: stack) (ts ++ [.beginArray])
  | nextElement {elements : List Json} {stack : List Frame} {ts ts' : List Token}
      (hstack : StackSpells stack ts) (h : Derives (.elements elements) ts') :
      StackSpells (.array elements :: stack) (ts ++ .beginArray :: ts' ++ [.valueSeparator])
  | firstMember {stack : List Frame} {ts : List Token} (key : Bytes)
      (hstack : StackSpells stack ts) :
      StackSpells (.object [] key :: stack)
        (ts ++ .beginObject :: [.valueString key, .nameSeparator])
  | nextMember {pairs : List (Bytes × Json)} {stack : List Frame} {ts ts' : List Token}
      (key : Bytes) (hstack : StackSpells stack ts) (h : Derives (.members pairs) ts') :
      StackSpells (.object (assignAll pairs) key :: stack)
        (ts ++ .beginObject :: ts' ++ [.valueSeparator, .valueString key, .nameSeparator])

/-- The tokens in front of a key, up to the brace or the comma. -/
inductive KeySpells : List (Bytes × Json) → List Frame → List Token → Prop where
  | first {stack : List Frame} {ts : List Token} (hstack : StackSpells stack ts) :
      KeySpells [] stack (ts ++ [.beginObject])
  | next {pairs : List (Bytes × Json)} {stack : List Frame} {ts ts' : List Token}
      (hstack : StackSpells stack ts) (h : Derives (.members pairs) ts') :
      KeySpells (assignAll pairs) stack (ts ++ .beginObject :: ts' ++ [.valueSeparator])

/-- The tokens the parser has taken when it is at a place. -/
def Parsing.Spells (ts : List Token) : Parsing → Prop
  | .value stack => StackSpells stack ts
  | .arrayStart stack => ∃ front, StackSpells stack front ∧ ts = front ++ [.beginArray]
  | .objectStart stack => ∃ front, StackSpells stack front ∧ ts = front ++ [.beginObject]
  | .objectKey members stack => ∃ front ts' pairs, StackSpells stack front ∧
      Derives (.members pairs) ts' ∧ members = assignAll pairs ∧
        ts = front ++ .beginObject :: ts' ++ [.valueSeparator]
  | .objectSeparator members key stack => ∃ front, KeySpells members stack front ∧
      ts = front ++ [.valueString key]
  | .arrayEvaluation elements stack => ∃ front ts', StackSpells stack front ∧
      Derives (.elements elements) ts' ∧ ts = front ++ .beginArray :: ts'
  | .objectEvaluation members stack => ∃ front ts' pairs, StackSpells stack front ∧
      Derives (.members pairs) ts' ∧ members = assignAll pairs ∧ ts = front ++ .beginObject :: ts'
  | .finished json => Derives (.value json) ts

theorem KeySpells.separator (h : KeySpells members stack ts) (key : Bytes) :
    StackSpells (.object members key :: stack) (ts ++ [.valueString key, .nameSeparator]) := by
  cases h with
  | first hstack =>
    have hspells := StackSpells.firstMember key hstack
    simpa using hspells
  | next hstack h =>
    have hspells := StackSpells.nextMember key hstack h
    simpa using hspells

theorem handleValue_spells (hstack : StackSpells stack ts) (h : Derives (.value json) ts') :
    (handleValue json stack).Spells (ts ++ ts') := by
  cases hstack with
  | nil => exact h
  | @firstElement stack ts hstack =>
    exact ⟨ts, ts', hstack, .firstElement h, by simp⟩
  | @nextElement elements stack ts front hstack hfront =>
    exact ⟨ts, _, hstack, .nextElement hfront h, by simp⟩
  | @firstMember stack ts key hstack =>
    exact ⟨ts, _, _, hstack, .firstMember key h, rfl, by simp⟩
  | @nextMember pairs stack ts front key hstack hfront =>
    exact ⟨ts, _, _, hstack, .nextMember key hfront h, (assignAll_concat ..).symm, by simp⟩

theorem startValue_spells (hstack : StackSpells stack ts)
    (h : startValue stack token = some parsing) : parsing.Spells (ts ++ [token]) := by
  have hscalar : ∀ json, token.scalar? = some json → parsing.Spells (ts ++ [token]) := by
    intro json hjson
    rw [startValue_scalar hjson] at h
    cases h
    exact handleValue_spells hstack (.scalar hjson)
  cases token with
  | valueFloat value =>
    obtain ⟨x, rfl, -⟩ := Option.map_eq_some_iff.1 h
    exact hscalar _ rfl
  | literalTrue | literalFalse | literalNull | valueString | valueUnsigned | valueInteger =>
    exact hscalar _ rfl
  | beginArray | beginObject =>
    cases h
    exact ⟨ts, hstack, rfl⟩
  | endArray | endObject | nameSeparator | valueSeparator => cases h

/-- Every token keeps what has been taken in line with the grammar. -/
theorem Parsing.step_spells (hspells : parsing.Spells ts) (h : parsing.step token = some parsing') :
    parsing'.Spells (ts ++ [token]) := by
  unfold Parsing.step at h
  split at h
  · exact startValue_spells hspells h
  · obtain ⟨front, hstack, rfl⟩ := hspells
    cases h
    have hvalue := handleValue_spells hstack .emptyArray
    simpa using hvalue
  · obtain ⟨front, hstack, rfl⟩ := hspells
    exact startValue_spells (.firstElement hstack) h
  · obtain ⟨front, hstack, rfl⟩ := hspells
    cases h
    have hvalue := handleValue_spells hstack .emptyObject
    simpa using hvalue
  · obtain ⟨front, hstack, rfl⟩ := hspells
    cases h
    exact ⟨_, .first hstack, rfl⟩
  · obtain ⟨front, ts', pairs, hstack, hmembers, rfl, rfl⟩ := hspells
    cases h
    exact ⟨_, .next hstack hmembers, rfl⟩
  · next members key stack =>
    obtain ⟨front, hkey, rfl⟩ := hspells
    cases h
    have hvalue := hkey.separator key
    simpa [Parsing.Spells] using hvalue
  · obtain ⟨front, ts', hstack, helements, rfl⟩ := hspells
    cases h
    exact .nextElement hstack helements
  · obtain ⟨front, ts', hstack, helements, rfl⟩ := hspells
    cases h
    have hvalue := handleValue_spells hstack (.array helements)
    simpa using hvalue
  · obtain ⟨front, ts', pairs, hstack, hmembers, rfl, rfl⟩ := hspells
    cases h
    exact ⟨front, ts', pairs, hstack, hmembers, rfl, rfl⟩
  · obtain ⟨front, ts', pairs, hstack, hmembers, rfl, rfl⟩ := hspells
    cases h
    have hvalue := handleValue_spells hstack (.object hmembers (keeps_assignAll pairs))
    simpa using hvalue
  · cases h

theorem foldlM_spells (hspells : parsing.Spells ts)
    (h : ts'.foldlM Parsing.step parsing = some parsing') : parsing'.Spells (ts ++ ts') := by
  induction ts' generalizing parsing ts with
  | nil =>
    cases h
    rwa [List.append_nil]
  | cons token ts' ih =>
    rw [List.foldlM_cons, Option.bind_eq_bind, Option.bind_eq_some_iff] at h
    obtain ⟨next, hstep, hfold⟩ := h
    have hrest := ih (Parsing.step_spells hspells hstep) hfold
    rwa [List.append_assoc, List.singleton_append] at hrest

/-- The texts that are accepted are those of the grammar, with the value the grammar gives them. -/
theorem parse_iff_derives :
    parse strtod text' = some json ↔
      ∃ ts, tokens strtod text' = some ts ∧ Derives (.value json) ts := by
  unfold parse
  simp only [Option.bind_eq_bind, Option.bind_eq_some_iff]
  constructor
  · rintro ⟨ts, hts, parsing, hfold, hresult⟩
    have hspells := foldlM_spells (show (Parsing.value []).Spells [] from .nil) hfold
    cases parsing with
    | finished json' =>
      cases hresult
      exact ⟨ts, hts, hspells⟩
    | _ => cases hresult
  · rintro ⟨ts, hts, hderives⟩
    exact ⟨ts, hts, _, (hderives.leads []).1, rfl⟩

end Json
end SamuraiKirby
