/-
`json::dump` without indentation, as the vendored library writes it.

Values whose strings are UTF-8 are written without an exception
(`Plain.dump_eq`).  If there are no floats in them, different values have
different texts (`text_injective`), and a text is a single line
(`newline_notMem_text`).
-/
import SamuraiKirby.Network.Escaping

namespace SamuraiKirby
namespace Json

/-! ## Numbers -/

/-- `'0' + digit` -/
def digit (n : Nat) : UInt8 := UInt8.ofNat (0x30 + n)

/-- `digits_to_99[digits_index]` -/
def digitsTo99 (digitsIndex : Nat) : Bytes := [digit (digitsIndex / 10), digit (digitsIndex % 10)]

/-- The loop that fills the buffer from behind.  A value is divided by 100 less than `fuel` times
if it is not greater. -/
def dumpDigits : Nat → Nat → Bytes
  | 0, _ => []
  | fuel + 1, absValue =>
    if 100 ≤ absValue then dumpDigits fuel (absValue / 100) ++ digitsTo99 (absValue % 100)
    else if 10 ≤ absValue then digitsTo99 absValue
    else [digit absValue]

def dumpInteger (x : Int) : Bytes :=
  if x = 0 then ascii "0"
  else if x < 0 then ascii "-" ++ dumpDigits x.natAbs x.natAbs
  else dumpDigits x.natAbs x.natAbs

/-! ## Values -/

variable (dumpFloat : Rat → Bytes)

mutual

/-- `serializer::dump` without indentation.  `dumpFloat` is what `dump_float` writes. -/
def dump : Json → Except DumpFailure Bytes
  | .null => .ok (ascii "null")
  | .boolean value => .ok (if value then ascii "true" else ascii "false")
  | .number value => .ok (dumpInteger value)
  | .float value => .ok (dumpFloat value)
  | .string value => do
    let escaped ← dumpEscaped value
    return ascii "\"" ++ escaped ++ ascii "\""
  | .array elements => do
    let dumped ← dumpElements elements
    return ascii "[" ++ dumped ++ ascii "]"
  | .object members => do
    let dumped ← dumpMembers members
    return ascii "\x7b" ++ dumped ++ ascii "\x7d"

def dumpElements : List Json → Except DumpFailure Bytes
  | [] => .ok []
  | element :: rest => do
    let first ← dump element
    if rest.isEmpty then return first
    let others ← dumpElements rest
    return first ++ ascii "," ++ others

def dumpMembers : List (Bytes × Json) → Except DumpFailure Bytes
  | [] => .ok []
  | (key, value) :: rest => do
    let escaped ← dumpEscaped key
    let dumped ← dump value
    let first := ascii "\"" ++ escaped ++ ascii "\":" ++ dumped
    if rest.isEmpty then return first
    let others ← dumpMembers rest
    return first ++ ascii "," ++ others

end

/-! ## Integers -/

def isDigit (c : UInt8) : Bool := 0x30 ≤ c && c ≤ 0x39

/-- A sign or a digit. -/
def isNumberByte (c : UInt8) : Bool := c == 0x2D || isDigit c

def digitsValue (digits : Bytes) : Nat :=
  digits.foldl (fun value c => value * 10 + (c.toNat - 0x30)) 0

def intValue : Bytes → Int
  | 0x2D :: digits => -(digitsValue digits : Int)
  | digits => digitsValue digits

theorem digit_spec : ∀ n < 10, (digit n).toNat = 0x30 + n ∧ isDigit (digit n) = true := by
  decide

theorem dumpDigits_isDigit (fuel n : Nat) : ∀ c ∈ dumpDigits fuel n, isDigit c = true := by
  induction fuel generalizing n with
  | zero => simp [dumpDigits]
  | succ fuel ih =>
    have hpair : ∀ k < 100, ∀ c ∈ digitsTo99 k, isDigit c = true := by
      intro k hk c hc
      simp only [digitsTo99, List.mem_cons, List.not_mem_nil, or_false] at hc
      rcases hc with rfl | rfl
      · exact (digit_spec (k / 10) (by omega)).2
      · exact (digit_spec (k % 10) (by omega)).2
    intro c hc
    simp only [dumpDigits] at hc
    split_ifs at hc with h₁ h₂
    · rcases List.mem_append.1 hc with hc | hc
      · exact ih _ c hc
      · exact hpair _ (Nat.mod_lt _ (by decide)) c hc
    · exact hpair n (by omega) c hc
    · rw [List.mem_singleton.1 hc]
      exact (digit_spec n (by omega)).2

theorem digitsValue_append_pair (digits : Bytes) {k : Nat} (hk : k < 100) :
    digitsValue (digits ++ digitsTo99 k) = digitsValue digits * 100 + k := by
  have htens := (digit_spec (k / 10) (by omega)).1
  have hones := (digit_spec (k % 10) (by omega)).1
  simp only [digitsValue, List.foldl_append, digitsTo99, List.foldl_cons, List.foldl_nil, htens,
    hones]
  omega

/-- The digits written for a number are its own. -/
theorem digitsValue_dumpDigits {fuel n : Nat} (h : n ≤ fuel) :
    digitsValue (dumpDigits fuel n) = n := by
  induction fuel generalizing n with
  | zero =>
    rw [Nat.le_zero.1 h]
    rfl
  | succ fuel ih =>
    rw [dumpDigits]
    split_ifs with h₁ h₂
    · rw [digitsValue_append_pair _ (Nat.mod_lt _ (by decide)), ih (by omega)]
      omega
    · have hpair := digitsValue_append_pair [] (show n < 100 by omega)
      rw [List.nil_append] at hpair
      rw [hpair]
      exact Nat.zero_add n
    · have hone := (digit_spec n (by omega)).1
      simp only [digitsValue, List.foldl_cons, List.foldl_nil, hone]
      omega

theorem intValue_digits {digits : Bytes} (h : ∀ c ∈ digits, isDigit c = true) :
    intValue digits = digitsValue digits := by
  cases digits with
  | nil => rfl
  | cons c digits =>
    have hc := h c (List.mem_cons_self ..)
    unfold intValue
    split
    · rename_i heq
      rw [(List.cons.inj heq).1] at hc
      exact absurd hc (by decide)
    · rfl

theorem intValue_dumpInteger (x : Int) : intValue (dumpInteger x) = x := by
  have hvalue := digitsValue_dumpDigits (Nat.le_refl x.natAbs)
  unfold dumpInteger
  split_ifs with h₁ h₂
  · rw [h₁]
    rfl
  · show -((digitsValue (dumpDigits x.natAbs x.natAbs) : Nat) : Int) = x
    rw [hvalue]
    omega
  · rw [intValue_digits (dumpDigits_isDigit _ _), hvalue]
    omega

theorem dumpInteger_isNumberByte (x : Int) : ∀ c ∈ dumpInteger x, isNumberByte c = true := by
  have hdigits : ∀ c ∈ dumpDigits x.natAbs x.natAbs, isNumberByte c = true := by
    intro c hc
    rw [isNumberByte, dumpDigits_isDigit _ _ c hc, Bool.or_true]
  unfold dumpInteger
  split_ifs with h₁ h₂
  · intro c hc
    rw [List.mem_singleton.1 hc]
    rfl
  · intro c hc
    rcases List.mem_append.1 hc with hc | hc
    · rw [List.mem_singleton.1 hc]
      rfl
    · exact hdigits c hc
  · exact hdigits

theorem dumpInteger_ne_nil (x : Int) : dumpInteger x ≠ [] := by
  intro h
  have hvalue := intValue_dumpInteger x
  rw [h] at hvalue
  rw [← hvalue] at h
  exact absurd h (by decide)

/-- A number ends where its digits end. -/
theorem reads_dumpInteger (x : Int) :
    Coding.Reads dumpInteger (fun _ => True) (fun r => ∀ c ∈ r.head?, isNumberByte c = false) x :=
  Coding.reads_of_token (fun x _ => dumpInteger_isNumberByte x)
    (fun x y _ _ h => by rw [← intValue_dumpInteger x, h, intValue_dumpInteger]) trivial

/-! ## Values that can be read back -/

/-- There are no floats in the value, and its strings and keys are UTF-8. -/
inductive Plain : Json → Prop where
  | null : Plain .null
  | boolean (value : Bool) : Plain (.boolean value)
  | number (value : Int) : Plain (.number value)
  | string {value : Bytes} (hvalue : Coding.Utf8 value) : Plain (.string value)
  | array {elements : List Json} (h : ∀ element ∈ elements, Plain element) :
      Plain (.array elements)
  | object {members : List (Bytes × Json)} (hkeys : ∀ member ∈ members, Coding.Utf8 member.1)
      (hvalues : ∀ member ∈ members, Plain member.2) : Plain (.object members)

/-- What is written when nothing is thrown. -/
def text (json : Json) : Bytes := (dump dumpFloat json).toOption.getD []

def memberText (member : Bytes × Json) : Bytes :=
  ascii "\"" ++ escaped member.1 ++ ascii "\":" ++ text dumpFloat member.2

variable {dumpFloat} {json : Json} {elements : List Json} {members : List (Bytes × Json)}

theorem text_eq {t : Bytes} (h : dump dumpFloat json = .ok t) : text dumpFloat json = t := by
  rw [text, h]
  rfl

theorem dumpElements_eq
    (h : ∀ element ∈ elements, dump dumpFloat element = .ok (text dumpFloat element)) :
    dumpElements dumpFloat elements =
      .ok (Coding.separated 0x2C (text dumpFloat) elements) := by
  induction elements with
  | nil => rfl
  | cons element rest ih =>
    have hrest := ih fun e he => h e (List.mem_cons_of_mem _ he)
    rw [dumpElements, h element (List.mem_cons_self ..), hrest]
    cases rest with
    | nil => simp [bind, Except.bind, pure, Except.pure]
    | cons other rest => simp [bind, Except.bind, pure, Except.pure, ascii]

theorem dumpMembers_eq (hkeys : ∀ member ∈ members, Coding.Utf8 member.1)
    (h : ∀ member ∈ members, dump dumpFloat member.2 = .ok (text dumpFloat member.2)) :
    dumpMembers dumpFloat members =
      .ok (Coding.separated 0x2C (memberText dumpFloat) members) := by
  induction members with
  | nil => rfl
  | cons member rest ih =>
    obtain ⟨key, value⟩ := member
    have hrest := ih (fun m hm => hkeys m (List.mem_cons_of_mem _ hm))
      fun m hm => h m (List.mem_cons_of_mem _ hm)
    have hvalue := h (key, value) (List.mem_cons_self ..)
    rw [dumpMembers, dumpEscaped_eq (hkeys (key, value) (List.mem_cons_self ..)), hvalue, hrest]
    cases rest with
    | nil => simp [bind, Except.bind, pure, Except.pure, memberText]
    | cons other rest => simp [bind, Except.bind, pure, Except.pure, memberText, ascii]

/-- Nothing is thrown for a value whose strings are UTF-8. -/
theorem Plain.dump_eq (h : Plain json) : dump dumpFloat json = .ok (text dumpFloat json) := by
  have hok : ∃ t, dump dumpFloat json = .ok t := by
    induction h with
    | null => exact ⟨_, rfl⟩
    | boolean value => exact ⟨_, rfl⟩
    | number value => exact ⟨_, rfl⟩
    | string hvalue =>
      rw [dump, dumpEscaped_eq hvalue]
      exact ⟨_, rfl⟩
    | array _ ih =>
      rw [dump, dumpElements_eq fun e he => by
        obtain ⟨t, ht⟩ := ih e he
        rw [text_eq ht, ht]]
      exact ⟨_, rfl⟩
    | object hkeys _ ih =>
      rw [dump, dumpMembers_eq hkeys fun m hm => by
        obtain ⟨t, ht⟩ := ih m hm
        rw [text_eq ht, ht]]
      exact ⟨_, rfl⟩
  obtain ⟨t, ht⟩ := hok
  rw [text_eq ht, ht]

theorem text_string {value : Bytes} (h : Coding.Utf8 value) :
    text dumpFloat (.string value) = 0x22 :: (escaped value ++ [0x22]) := by
  apply text_eq
  rw [dump, dumpEscaped_eq h]
  rfl

theorem text_array (h : ∀ element ∈ elements, Plain element) :
    text dumpFloat (.array elements) =
      0x5B :: (Coding.separated 0x2C (text dumpFloat) elements ++ [0x5D]) := by
  apply text_eq
  rw [dump, dumpElements_eq fun e he => (h e he).dump_eq]
  rfl

theorem text_object (hkeys : ∀ member ∈ members, Coding.Utf8 member.1)
    (hvalues : ∀ member ∈ members, Plain member.2) :
    text dumpFloat (.object members) =
      0x7B :: (Coding.separated 0x2C (memberText dumpFloat) members ++ [0x7D]) := by
  apply text_eq
  rw [dump, dumpMembers_eq hkeys fun m hm => (hvalues m hm).dump_eq]
  rfl

/-! ## What a text begins with -/

inductive Kind where
  | null
  | boolean
  | number
  | string
  | array
  | object
deriving DecidableEq

/-- The kind of value that a byte begins. -/
def kindOf (c : UInt8) : Kind :=
  if c = 0x6E then .null
  else if c = 0x74 ∨ c = 0x66 then .boolean
  else if c = 0x22 then .string
  else if c = 0x5B then .array
  else if c = 0x7B then .object
  else .number

def kind : Json → Kind
  | .null => .null
  | .boolean _ => .boolean
  | .number _ | .float _ => .number
  | .string _ => .string
  | .array _ => .array
  | .object _ => .object

theorem kindOf_numberByte {c : UInt8} (h : isNumberByte c = true) : kindOf c = .number := by
  have hall : ∀ n < 256, isNumberByte (UInt8.ofNat n) = true →
      kindOf (UInt8.ofNat n) = .number := by decide +kernel
  have hc := hall c.toNat c.toNat_lt
  rw [UInt8.ofNat_toNat] at hc
  exact hc h

/-- The first byte tells the kind, and closes no array. -/
theorem Plain.exists_head (h : Plain json) : ∃ c rest, text dumpFloat json = c :: rest ∧
    kindOf c = json.kind ∧ c ≠ 0x5D := by
  cases h with
  | null => exact ⟨0x6E, _, rfl, rfl, by decide⟩
  | boolean value =>
    cases value with
    | true => exact ⟨0x74, _, rfl, rfl, by decide⟩
    | false => exact ⟨0x66, _, rfl, rfl, by decide⟩
  | number value =>
    obtain ⟨c, rest, hrest⟩ := List.exists_cons_of_ne_nil (dumpInteger_ne_nil value)
    have hc : isNumberByte c = true :=
      dumpInteger_isNumberByte value c (hrest ▸ List.mem_cons_self ..)
    refine ⟨c, rest, hrest, kindOf_numberByte hc, ?_⟩
    rintro rfl
    exact absurd hc (by decide)
  | string hvalue => exact ⟨0x22, _, text_string hvalue, rfl, by decide⟩
  | array h => exact ⟨0x5B, _, text_array h, rfl, by decide⟩
  | object hkeys hvalues => exact ⟨0x7B, _, text_object hkeys hvalues, rfl, by decide⟩

/-! ## Reading a text back -/

/-- What may stand behind a value: no part of a number. -/
def Follows (r : Bytes) : Prop := ∀ c ∈ r.head?, isNumberByte c = false

theorem follows_of_ne {c : UInt8} (h : isNumberByte c = false) (r : Bytes) : Follows (c :: r) := by
  intro c' hc'
  rw [← Option.some.inj hc']
  exact h

theorem reads_boolean (value : Bool) :
    Coding.Reads (fun value : Bool => text dumpFloat (.boolean value)) (fun _ => True)
      (fun _ => True) value := by
  intro other r r' _ _ _ heq
  cases value <;> cases other <;>
    simp [text, dump, ascii, Except.toOption] at heq ⊢ <;> exact heq

/-- A member of an object: a key, a colon and a value. -/
theorem reads_memberText {member : Bytes × Json}
    (hvalue : Coding.Reads (text dumpFloat) Plain Follows member.2) :
    Coding.Reads (memberText dumpFloat) (fun m => Plain m.2) Follows member := by
  intro other r r' hother hr hr' heq
  have hsplit : ∀ (m : Bytes × Json) (r : Bytes), memberText dumpFloat m ++ r =
      0x22 :: (escaped m.1 ++ [0x22] ++ 0x3A :: (text dumpFloat m.2 ++ r)) := by
    intro m r
    simp [memberText, ascii]
  rw [hsplit, hsplit] at heq
  obtain ⟨hkey, hrest⟩ := reads_escaped member.1 other.1 _ _ trivial trivial trivial
    (List.cons.inj heq).2
  obtain ⟨hsame, hr⟩ := hvalue other.2 r r' hother hr hr' (List.cons.inj hrest).2
  exact ⟨Prod.ext hkey hsame, hr⟩

theorem Plain.append_ne (h : Plain json) (r r' : Bytes) :
    text dumpFloat json ++ r ≠ 0x5D :: r' := by
  intro heq
  obtain ⟨c, rest, htext, -, hc⟩ := @Plain.exists_head dumpFloat _ h
  rw [htext] at heq
  exact hc (List.cons.inj heq).1

theorem memberText_append_ne (member : Bytes × Json) (r r' : Bytes) :
    memberText dumpFloat member ++ r ≠ 0x7D :: r' := by
  intro heq
  exact absurd (List.cons.inj heq).1 (by decide)

theorem Plain.kind_eq {other : Json} (h : Plain json) (hother : Plain other) {r r' : Bytes}
    (heq : text dumpFloat json ++ r = text dumpFloat other ++ r') : json.kind = other.kind := by
  obtain ⟨c, rest, htext, hkind, -⟩ := @Plain.exists_head dumpFloat _ h
  obtain ⟨c', rest', htext', hkind', -⟩ := @Plain.exists_head dumpFloat _ hother
  rw [htext, htext'] at heq
  rw [← hkind, ← hkind', (List.cons.inj heq).1]

/-- The text of a value is the text of no other, whatever follows. -/
theorem Plain.reads (h : Plain json) :
    Coding.Reads (text dumpFloat) Plain Follows json := by
  induction h with
  | null =>
    intro other r r' hother _ _ heq
    have hkind := Plain.null.kind_eq hother heq
    cases hother with
    | null => exact ⟨rfl, List.append_cancel_left heq⟩
    | _ => cases hkind
  | boolean value =>
    intro other r r' hother _ _ heq
    have hkind := (Plain.boolean value).kind_eq hother heq
    cases hother with
    | boolean value' =>
      obtain ⟨rfl, hr⟩ := reads_boolean value value' r r' trivial trivial trivial heq
      exact ⟨rfl, hr⟩
    | _ => cases hkind
  | number value =>
    intro other r r' hother hr hr' heq
    have hkind := (Plain.number value).kind_eq hother heq
    cases hother with
    | number value' =>
      obtain ⟨rfl, hr⟩ := reads_dumpInteger value value' r r' trivial hr hr' heq
      exact ⟨rfl, hr⟩
    | _ => cases hkind
  | string hvalue =>
    intro other r r' hother _ _ heq
    have hkind := (Plain.string hvalue).kind_eq hother heq
    cases hother with
    | string hvalue' =>
      rw [text_string hvalue, text_string hvalue'] at heq
      obtain ⟨rfl, hr⟩ := reads_escaped _ _ r r' trivial trivial trivial (List.cons.inj heq).2
      exact ⟨rfl, hr⟩
    | _ => cases hkind
  | array h ih =>
    intro other r r' hother _ _ heq
    have hkind := (Plain.array h).kind_eq hother heq
    cases hother with
    | array h' =>
      rw [text_array h, text_array h'] at heq
      obtain ⟨rfl, hr⟩ := Coding.reads_separated (by decide) ih
        (follows_of_ne (by decide)) (follows_of_ne (by decide)) (fun _ he => he.append_ne) h
        _ r r' h' trivial trivial (List.cons.inj heq).2
      exact ⟨rfl, hr⟩
    | _ => cases hkind
  | object hkeys hvalues ih =>
    intro other r r' hother _ _ heq
    have hkind := (Plain.object hkeys hvalues).kind_eq hother heq
    cases hother with
    | object hkeys' hvalues' =>
      rw [text_object hkeys hvalues, text_object hkeys' hvalues'] at heq
      obtain ⟨rfl, hr⟩ := Coding.reads_separated (by decide)
        (fun member hm => reads_memberText (ih member hm)) (follows_of_ne (by decide))
        (follows_of_ne (by decide)) (fun member _ => memberText_append_ne member) hvalues
        _ r r' hvalues' trivial trivial (List.cons.inj heq).2
      exact ⟨rfl, hr⟩
    | _ => cases hkind

/-- Different values have different texts. -/
theorem text_injective {other : Json} (h : Plain json) (hother : Plain other)
    (heq : text dumpFloat json = text dumpFloat other) : json = other :=
  h.reads.eq_of_eq hother (fun _ hc => by cases hc) heq

/-! ## One line -/

theorem notMem_separated {α : Type} {encode : α → Bytes} {c separator : UInt8} {l : List α}
    (h : ∀ a ∈ l, c ∉ encode a) (hne : c ≠ separator) :
    c ∉ Coding.separated separator encode l := by
  cases l with
  | nil => exact List.not_mem_nil
  | cons a l =>
    rw [Coding.separated, List.mem_append, List.mem_flatMap]
    rintro (hc | ⟨b, hb, hc⟩)
    · exact h a (List.mem_cons_self ..) hc
    · rcases List.mem_cons.1 hc with hc | hc
      · exact hne hc
      · exact h b (List.mem_cons_of_mem _ hb) hc

/-- No text contains a newline. -/
theorem newline_notMem_text (h : Plain json) : 0x0A ∉ text dumpFloat json := by
  induction h with
  | null => exact (by decide : (0x0A : UInt8) ∉ ascii "null")
  | boolean value =>
    cases value with
    | true => exact (by decide : (0x0A : UInt8) ∉ ascii "true")
    | false => exact (by decide : (0x0A : UInt8) ∉ ascii "false")
  | number value =>
    intro hc
    exact absurd (dumpInteger_isNumberByte value _ hc) (by decide)
  | string hvalue =>
    rw [text_string hvalue]
    simp [newline_notMem_escaped]
  | array h ih =>
    rw [text_array h]
    simp [notMem_separated ih]
  | @object members hkeys hvalues ih =>
    rw [text_object hkeys hvalues]
    have hmembers : ∀ member ∈ members, 0x0A ∉ memberText dumpFloat member := by
      intro member hm
      have hvalue := ih member hm
      simp [memberText, ascii, newline_notMem_escaped, hvalue]
    simp [notMem_separated hmembers]

end Json
end SamuraiKirby
