/-
What the library writes, it reads.

`parse_text` takes a value without floats through `dump` and `parse` and gets it back.
The parser is followed through the text token by token: a value in front of a comma or
a closing bracket is read to its end and put where the parser stands.
-/
import SamuraiKirby.Network.Parser

namespace SamuraiKirby
namespace Json

variable {strtod : Bytes → Option Rat} {text' rest : Bytes} {current : UInt8} {token : Token}
  {json : Json} {stack : List Frame} {parsing : Parsing}

/-! ## The parser on the rest of a text -/

/-- `parse` from some place on. -/
def parseFrom (strtod : Bytes → Option Rat) (parsing : Parsing) (text : Bytes) : Option Json := do
  let (ts, _) ← Coding.scanAll (scan strtod) text
  let parsing' ← ts.foldlM Parsing.step parsing
  parsing'.result?

theorem parse_eq (h : skipBom text' = some text') :
    parse strtod text' = parseFrom strtod (.value []) text' := by
  unfold parse tokens parseFrom
  simp only [h, Option.bind_eq_bind, Option.bind_some, Option.bind_assoc]
  rfl

theorem parseFrom_token (h : scan strtod text' = some (some token, rest)) :
    parseFrom strtod parsing text' =
      (parsing.step token).bind fun parsing' => parseFrom strtod parsing' rest := by
  unfold parseFrom
  rw [Coding.scanAll_item shrinks_scan h]
  cases Coding.scanAll (scan strtod) rest with
  | none => cases parsing.step token <;> rfl
  | some found =>
    obtain ⟨ts, left⟩ := found
    show ((token :: ts).foldlM Parsing.step parsing).bind _ = _
    rw [List.foldlM_cons, Option.bind_eq_bind, Option.bind_assoc]
    rfl

theorem parseFrom_end (json : Json) : parseFrom strtod (.finished json) [] = some json := rfl

/-! ## Tokens of a text -/

theorem scan_of_first (hspace : isWhitespace current = false) (hzero : current ≠ 0x00) :
    scan strtod (current :: rest) =
      (scanToken strtod current rest).map fun r => (some r.1, r.2) := by
  have hskip : skipWhitespace (current :: rest) = current :: rest :=
    List.dropWhile_cons_of_neg (by rw [hspace]; exact Bool.false_ne_true)
  unfold scan
  rw [hskip]
  exact if_neg hzero

theorem scan_structural (current : UInt8) (h : structural? current = some token)
    (hspace : isWhitespace current = false) (hzero : current ≠ 0x00) :
    scan strtod (current :: rest) = some (some token, rest) := by
  rw [scan_of_first hspace hzero, scanToken, h]
  rfl

theorem nextByteInRange_append {ranges : List (UInt8 × UInt8)} {bytes : Bytes}
    (h : Coding.Utf8.Matches ranges bytes) (rest : Bytes) :
    nextByteInRange ranges (bytes ++ rest) = some (bytes, rest) := by
  induction h with
  | nil => rfl
  | cons hrange _ ih =>
    rw [List.cons_append, nextByteInRange, if_pos hrange, ih]
    rfl

/-- The first byte of a code point beyond ASCII tells its form. -/
theorem followingRanges_of_form {form : List (UInt8 × UInt8)}
    (hform : form ∈ Coding.Utf8.forms.tail)
    (h : ∀ range ∈ form.head?, range.1 ≤ current ∧ current ≤ range.2) :
    followingRanges current = some form.tail := by
  simp only [Coding.Utf8.forms, List.tail_cons, List.mem_cons, List.not_mem_nil, or_false] at hform
  unfold followingRanges
  simp only [UInt8.le_iff_toNat_le, ← UInt8.toNat_inj] at h ⊢
  rcases hform with rfl | rfl | rfl | rfl | rfl | rfl | rfl | rfl
  all_goals
    have hrange := h _ rfl
    simp only [UInt8.reduceToNat] at hrange ⊢
    split_ifs <;> first | rfl | omega

/-- A code point beyond ASCII is read as it was copied. -/
theorem scanCharacter_of_form {form : List (UInt8 × UInt8)} {bytes : Bytes}
    (hform : form ∈ Coding.Utf8.forms.tail) (hbytes : Coding.Utf8.Matches form bytes)
    (rest : Bytes) : scanCharacter (bytes ++ rest) = some (some bytes, rest) := by
  have hhigh := forms_not_ascii form hform
  cases hbytes with
  | nil => exact absurd hform (by decide)
  | @cons range byte ranges bytes hrange hfollowing =>
    have hlt : 0x7F < byte :=
      UInt8.lt_of_lt_of_le (hhigh range (List.mem_cons_self ..)) hrange.1
    have hfollow : followingRanges byte = some ranges :=
      followingRanges_of_form hform fun r hr => Option.some.inj hr ▸ hrange
    have hne : ∀ b : UInt8, b ≤ 0x7F → byte ≠ b := by
      rintro b hb rfl
      exact absurd hb (UInt8.not_le.2 hlt)
    have hcontrol : ¬ byte ≤ 0x1F := fun hle =>
      absurd (UInt8.le_trans hle (by decide)) (UInt8.not_le.2 hlt)
    rw [List.cons_append, scanCharacter, if_neg (hne 0x22 (by decide)),
      if_neg (hne 0x5C (by decide)), if_neg hcontrol, if_neg (UInt8.not_le.2 hlt), hfollow]
    simp only [Option.bind_eq_bind, Option.bind_some, nextByteInRange_append hfollowing]
    rfl

theorem hexValue_hexDigit : ∀ n < 16, hexValue (hexDigit n) = some n := by decide

/-- Four digits are read as the number they were written for. -/
theorem getCodepoint_hexDigits {n : Nat} (h : n < 0x10000) (rest : Bytes) :
    getCodepoint (hexDigit (n / 4096) :: hexDigit (n / 256 % 16) :: hexDigit (n / 16 % 16) ::
      hexDigit (n % 16) :: rest) = some (n, rest) := by
  have hvalue : n / 4096 * 0x1000 + n / 256 % 16 * 0x100 + n / 16 % 16 * 0x10 + n % 16 = n := by
    omega
  simp only [getCodepoint, hexValue_hexDigit _ (show n / 4096 < 16 by omega),
    hexValue_hexDigit _ (Nat.mod_lt _ (show 0 < 16 by decide)), Option.bind_eq_bind,
    Option.bind_some, hvalue]
  rfl

/-- An ASCII character is read from its word. -/
theorem scanCharacter_of_ascii {byte : UInt8} (h : byte ≤ 0x7F) (rest : Bytes) :
    scanCharacter (escapeByte byte ++ rest) = some (some [byte], rest) := by
  have hword : escapeByte byte = escape byte.toNat byte := if_pos h
  have heq : ∀ b : UInt8, byte.toNat = b.toNat → byte = b := fun _ => UInt8.toNat_inj.1
  rw [hword]
  unfold escape
  split_ifs with h₁ h₂ h₃ h₄ h₅ hquote hsolidus hcontrol
  · rw [heq 0x08 h₁]
    rfl
  · rw [heq 0x09 h₂]
    rfl
  · rw [heq 0x0A h₃]
    rfl
  · rw [heq 0x0C h₄]
    rfl
  · rw [heq 0x0D h₅]
    rfl
  · rw [heq 0x22 hquote]
    rfl
  · rw [heq 0x5C hsolidus]
    rfl
  · have hunicode : scanUnicode (hexDigit (byte.toNat / 4096) :: hexDigit (byte.toNat / 256 % 16) ::
        hexDigit (byte.toNat / 16 % 16) :: hexDigit (byte.toNat % 16) :: rest) =
          some ([byte], rest) := by
      rw [scanUnicode, getCodepoint_hexDigits (by omega)]
      simp only [Option.bind_eq_bind, Option.bind_some]
      rw [if_neg (by omega), if_neg (by omega), codepointBytes, if_pos (by omega),
        UInt8.ofNat_toNat]
      rfl
    exact congrArg (Option.map fun r => (some r.1, r.2)) hunicode
  · have hne : ∀ b : UInt8, byte.toNat ≠ b.toNat → byte ≠ b := fun _ => mt UInt8.toNat_inj.2
    have hcopied : ¬ byte ≤ 0x1F := fun hle => hcontrol (UInt8.le_iff_toNat_le.1 hle)
    rw [List.singleton_append, scanCharacter, if_neg (hne 0x22 hquote),
      if_neg (hne 0x5C hsolidus), if_neg hcopied, if_pos h]

/-- The string in front of a quotation mark is read. -/
theorem scanString_escaped {value : Bytes} (h : Coding.Utf8 value) (rest : Bytes) :
    scanString (escaped value ++ 0x22 :: rest) = some (value, rest) := by
  have hwords : ∃ words, words.flatten = value ∧
      Coding.scanAll scanCharacter (escaped value ++ 0x22 :: rest) = some (words, rest) := by
    induction h with
    | nil => exact ⟨[], rfl, Coding.scanAll_end rfl⟩
    | @codePoint form bytes value hform hbytes _ ih =>
      obtain ⟨words, hflatten, hscan⟩ := ih
      have hword : scanCharacter (escaped bytes ++ (escaped value ++ 0x22 :: rest)) =
          some (some bytes, escaped value ++ 0x22 :: rest) := by
        rcases List.mem_cons.1 hform with rfl | htail
        · cases hbytes with
          | @cons _ byte _ _ hrange hnil =>
            cases hnil
            rw [escaped, List.flatMap_singleton]
            exact scanCharacter_of_ascii hrange.2 _
        · rw [escaped_of_form (forms_not_ascii form htail) hbytes]
          exact scanCharacter_of_form htail hbytes _
      refine ⟨bytes :: words, by rw [List.flatten_cons, hflatten], ?_⟩
      rw [escaped, List.flatMap_append, ← escaped, ← escaped, List.append_assoc,
        Coding.scanAll_item shrinks_scanCharacter hword, hscan]
      rfl
  obtain ⟨words, hflatten, hscan⟩ := hwords
  rw [scanString, hscan, ← hflatten]
  rfl

theorem scan_string {value : Bytes} (h : Coding.Utf8 value) (rest : Bytes) :
    scan strtod (0x22 :: (escaped value ++ 0x22 :: rest)) =
      some (some (.valueString value), rest) := by
  rw [scan_of_first (by decide) (by decide)]
  show ((scanString _).map fun r => (Token.valueString r.1, r.2)).map _ = _
  rw [scanString_escaped h]
  rfl

/-! ## Numbers -/

/-- What comes behind a value: nothing, a comma or a closing bracket. -/
def Closes (rest : Bytes) : Prop := ∀ c ∈ rest.head?, c ∈ [0x2C, 0x5D, 0x7D]

theorem closes_cons {c : UInt8} (h : c ∈ [0x2C, 0x5D, 0x7D]) (rest : Bytes) :
    Closes (c :: rest) := by
  rintro c' hc'
  cases hc'
  exact h

theorem scanNumberFrom_closes {state : NumberState} (hstate : state = .zero ∨ state = .any1)
    (type : NumberType) (hrest : Closes rest) :
    scanNumberFrom state type rest = some ([], type, rest) := by
  have hdone : state.done = true := by rcases hstate with rfl | rfl <;> rfl
  cases rest with
  | nil => rw [scanNumberFrom, if_pos hdone]
  | cons c rest =>
    have hnext : state.next c = none := by
      have hc := hrest c rfl
      simp only [List.mem_cons, List.not_mem_nil, or_false] at hc
      rcases hstate with rfl | rfl <;> rcases hc with rfl | rfl | rfl <;> rfl
    simp only [scanNumberFrom, hnext, if_pos hdone]

/-- The digits of a number are read to the last one. -/
theorem scanNumberFrom_digits {digits : Bytes} (h : ∀ c ∈ digits, isDigit c = true)
    (type : NumberType) (hrest : Closes rest) :
    scanNumberFrom .any1 type (digits ++ rest) = some (digits, type, rest) := by
  induction digits with
  | nil => exact scanNumberFrom_closes (Or.inr rfl) type hrest
  | cons c digits ih =>
    have hnext : NumberState.any1.next c = some .any1 := by
      rw [NumberState.next, if_pos (h c (List.mem_cons_self ..))]
    simp only [List.cons_append, scanNumberFrom, hnext, NumberState.type,
      ih fun d hd => h d (List.mem_cons_of_mem _ hd), Option.map_some]

/-- No number is written with a zero in front. -/
theorem dumpDigits_head {fuel n : Nat} (hpos : 0 < n) (hfuel : n ≤ fuel) :
    ∃ c digits, dumpDigits fuel n = c :: digits ∧ c ≠ 0x30 := by
  have hdigit : ∀ k < 10, k ≠ 0 → digit k ≠ 0x30 := by decide
  induction fuel generalizing n with
  | zero => omega
  | succ fuel ih =>
    rw [dumpDigits]
    split_ifs with h₁ h₂
    · obtain ⟨c, digits, hdigits, hc⟩ := ih (by omega : 0 < n / 100) (by omega)
      rw [hdigits]
      exact ⟨c, _, rfl, hc⟩
    · exact ⟨_, _, rfl, hdigit (n / 10) (by omega) (by omega)⟩
    · exact ⟨_, _, rfl, hdigit n (by omega) (by omega)⟩

theorem numberByte_cases (h : isNumberByte current = true) :
    current = 0x2D ∨ ∃ n < 10, current = digit n := by
  simp only [isNumberByte, isDigit, Bool.or_eq_true, beq_iff_eq, Bool.and_eq_true,
    decide_eq_true_eq, UInt8.le_iff_toNat_le] at h
  refine h.imp_right fun hdigit => ?_
  have hlow : 0x30 ≤ current.toNat := hdigit.1
  have hhigh : current.toNat ≤ 0x39 := hdigit.2
  refine ⟨current.toNat - 0x30, by omega, ?_⟩
  rw [digit, Nat.add_sub_cancel' hlow, UInt8.ofNat_toNat]

/-- No number begins with the first byte of any other token. -/
theorem numberByte_spec (h : isNumberByte current = true) :
    isWhitespace current = false ∧ current ≠ 0x00 ∧ structural? current = none ∧
      current ≠ 0x74 ∧ current ≠ 0x66 ∧ current ≠ 0x6E ∧ current ≠ 0x22 := by
  have hdigits : ∀ n < 10, isWhitespace (digit n) = false ∧ digit n ≠ 0x00 ∧
      structural? (digit n) = none ∧ digit n ≠ 0x74 ∧ digit n ≠ 0x66 ∧ digit n ≠ 0x6E ∧
        digit n ≠ 0x22 := by decide
  rcases numberByte_cases h with rfl | ⟨n, hn, rfl⟩
  · decide
  · exact hdigits n hn

theorem scan_number (h : isNumberByte current = true) :
    scan strtod (current :: rest) =
      (scanNumber strtod current rest).map fun r => (some r.1, r.2) := by
  obtain ⟨hspace, hzero, hstructural, ht, hf, hn, hquote⟩ := numberByte_spec h
  rw [scan_of_first hspace hzero, scanToken, hstructural]
  simp only [if_neg ht, if_neg hf, if_neg hn, if_neg hquote, if_pos h]

/-! ## Values -/

/-- The first token of a value, and what the parser does with it: the value is read to its end
and handled. -/
def ReadsValue (strtod : Bytes → Option Rat) (json : Json) (text rest : Bytes) : Prop :=
  ∃ token left, scan strtod text = some (some token, left) ∧ token ≠ .endArray ∧
    ∀ stack, (startValue stack token).bind (fun parsing => parseFrom strtod parsing left) =
      parseFrom strtod (handleValue json stack) rest

theorem ReadsValue.of_token (hscan : scan strtod text' = some (some token, rest))
    (htoken : ∀ stack, startValue stack token = some (handleValue json stack)) :
    ReadsValue strtod json text' rest := by
  refine ⟨token, rest, hscan, ?_, fun stack => by rw [htoken]; rfl⟩
  rintro rfl
  cases htoken []

theorem ReadsValue.value (h : ReadsValue strtod json text' rest) (stack : List Frame) :
    parseFrom strtod (.value stack) text' = parseFrom strtod (handleValue json stack) rest := by
  obtain ⟨token, left, hscan, -, hstart⟩ := h
  rw [parseFrom_token hscan, ← hstart]
  rfl

theorem ReadsValue.arrayStart (h : ReadsValue strtod json text' rest) (stack : List Frame) :
    parseFrom strtod (.arrayStart stack) text' =
      parseFrom strtod (.arrayEvaluation [json] stack) rest := by
  obtain ⟨token, left, hscan, hne, hstart⟩ := h
  have hstep : Parsing.step (.arrayStart stack) token = startValue (.array [] :: stack) token := by
    cases token with
    | endArray => exact absurd rfl hne
    | _ => rfl
  rw [parseFrom_token hscan, hstep, hstart]
  rfl

theorem readsValue_number {x : Int} (hlow : -2 ^ 63 ≤ x) (hhigh : x < 2 ^ 64)
    (hrest : Closes rest) : ReadsValue strtod (.number x) (dumpInteger x ++ rest) rest := by
  have hvalue := intValue_dumpInteger x
  have hdigits := dumpDigits_isDigit x.natAbs x.natAbs
  have hnatAbs := digitsValue_dumpDigits (Nat.le_refl x.natAbs)
  have hnumber : ∀ c, isDigit c = true → isNumberByte c = true := fun c hc => by
    rw [isNumberByte, hc, Bool.or_true]
  unfold dumpInteger at hvalue ⊢
  split_ifs at hvalue ⊢ with hzero hneg
  · have hscan : scan strtod (0x30 :: rest) = some (some (.valueUnsigned 0), rest) := by
      rw [scan_number (by decide), scanNumber]
      simp only [if_neg (show (0x30 : UInt8) ≠ 0x2D by decide), if_true,
        scanNumberFrom_closes (Or.inl rfl) _ hrest]
      rfl
    exact .of_token hscan fun stack => by rw [hzero]; rfl
  · -- the first digit behind the sign leads on to the others
    obtain ⟨c, digits, heq, hc⟩ := dumpDigits_head (by omega : 0 < x.natAbs) (Nat.le_refl _)
    rw [heq] at hdigits hvalue ⊢
    have hfirst : NumberState.minus.next c = some .any1 := by
      rw [NumberState.next, if_neg hc, if_pos (hdigits c (List.mem_cons_self ..))]
    have hscan : scan strtod (0x2D :: c :: (digits ++ rest)) =
        some (some (.valueInteger x), rest) := by
      rw [scan_number (by decide), scanNumber]
      simp only [if_true, scanNumberFrom, hfirst, NumberState.type, Option.map_some,
        scanNumberFrom_digits (fun d hd => hdigits d (List.mem_cons_of_mem _ hd)) _ hrest]
      have hint : intValue (0x2D :: c :: digits) = x := hvalue
      rw [numberToken, hint, if_pos ⟨hlow, by omega⟩]
    exact .of_token hscan fun stack => rfl
  · obtain ⟨c, digits, heq, hc⟩ := dumpDigits_head (by omega : 0 < x.natAbs) (Nat.le_refl _)
    rw [heq] at hdigits hnatAbs ⊢
    have hsign : c ≠ 0x2D := by
      rintro rfl
      exact absurd (hdigits _ (List.mem_cons_self ..)) (by decide)
    have hscan : scan strtod (c :: (digits ++ rest)) =
        some (some (.valueUnsigned x.natAbs), rest) := by
      rw [scan_number (hnumber c (hdigits c (List.mem_cons_self ..))), scanNumber]
      simp only [if_neg hsign, if_neg hc, NumberState.type, Option.map_some,
        scanNumberFrom_digits (fun d hd => hdigits d (List.mem_cons_of_mem _ hd)) _ hrest]
      rw [numberToken, hnatAbs, if_pos (by omega)]
    refine .of_token hscan fun stack => ?_
    show some (handleValue (.number (x.natAbs : Int)) stack) = _
    rw [show (x.natAbs : Int) = x by omega]

/-! ## Arrays and objects -/

variable {dumpFloat : Rat → Bytes} {elements : List Json} {members : List (Bytes × Json)}

/-- Elements are read in front of a comma or the closing bracket. -/
theorem closes_separated {α : Type} (encode : α → Bytes) (stop : UInt8)
    (hstop : stop ∈ [0x2C, 0x5D, 0x7D]) (l : List α) (rest : Bytes) :
    Closes ((l.flatMap fun a => 0x2C :: encode a) ++ stop :: rest) :=
  Coding.follows_separated (closes_cons (by decide)) (closes_cons hstop) l rest

/-- The elements behind the first one. -/
theorem parseFrom_elements {l : List Json}
    (h : ∀ element ∈ l, ∀ rest, Closes rest →
      ReadsValue strtod element (text dumpFloat element ++ rest) rest) (rest : Bytes) :
    parseFrom strtod (.arrayEvaluation elements stack)
        ((l.flatMap fun element => 0x2C :: text dumpFloat element) ++ 0x5D :: rest) =
      parseFrom strtod (handleValue (.array (elements ++ l)) stack) rest := by
  induction l generalizing elements with
  | nil =>
    rw [List.append_nil]
    exact parseFrom_token (scan_structural 0x5D rfl rfl (by decide))
  | cons element l ih =>
    have hvalue := h element (List.mem_cons_self ..) _
      (closes_separated (text dumpFloat) 0x5D (by decide) l rest)
    rw [List.flatMap_cons, List.append_assoc, List.cons_append,
      parseFrom_token (scan_structural 0x2C rfl rfl (by decide))]
    show parseFrom strtod (.value (.array elements :: stack)) _ = _
    rw [hvalue.value]
    show parseFrom strtod (.arrayEvaluation (elements ++ [element]) stack) _ = _
    rw [ih fun e he => h e (List.mem_cons_of_mem _ he), List.append_assoc, List.singleton_append]

theorem readsValue_array
    (h : ∀ element ∈ elements, ∀ rest, Closes rest →
      ReadsValue strtod element (text dumpFloat element ++ rest) rest) (rest : Bytes) :
    ReadsValue strtod (.array elements)
      (0x5B :: (Coding.separated 0x2C (text dumpFloat) elements ++ 0x5D :: rest)) rest := by
  refine ⟨.beginArray, _, scan_structural 0x5B rfl rfl (by decide), nofun, fun stack => ?_⟩
  show parseFrom strtod (.arrayStart stack) _ = _
  cases elements with
  | nil => exact parseFrom_token (scan_structural 0x5D rfl rfl (by decide))
  | cons element l =>
    have hvalue := h element (List.mem_cons_self ..) _
      (closes_separated (text dumpFloat) 0x5D (by decide) l rest)
    rw [Coding.separated, List.append_assoc, hvalue.arrayStart,
      parseFrom_elements fun e he => h e (List.mem_cons_of_mem _ he), List.singleton_append]

/-- A key greater than those of an object is put at its end. -/
theorem assign_last {key : Bytes} {value : Json} (h : ∀ member ∈ members, member.1 < key) :
    assign key value members = members ++ [(key, value)] := by
  induction members with
  | nil => rfl
  | cons member rest ih =>
    have hlt := h member (List.mem_cons_self ..)
    rw [assign, if_neg (List.lt_asymm hlt), if_neg, ih fun m hm => h m (List.mem_cons_of_mem _ hm),
      List.cons_append]
    rintro rfl
    exact List.lt_irrefl _ hlt

/-- A member is read from its key on. -/
theorem parseFrom_member {member : Bytes × Json}
    (hstep : parsing.step (.valueString member.1) =
      some (.objectSeparator members member.1 stack)) (hkey : Coding.Utf8 member.1)
    (hvalue : ReadsValue strtod member.2 (text dumpFloat member.2 ++ rest) rest) :
    parseFrom strtod parsing (memberText dumpFloat member ++ rest) =
      parseFrom strtod (.objectEvaluation (assign member.1 member.2 members) stack) rest := by
  have htext : memberText dumpFloat member ++ rest =
      0x22 :: (escaped member.1 ++ 0x22 :: 0x3A :: (text dumpFloat member.2 ++ rest)) := by
    simp [memberText, ascii]
  rw [htext, parseFrom_token (scan_string hkey _), hstep, Option.bind_some,
    parseFrom_token (scan_structural 0x3A rfl rfl (by decide))]
  show parseFrom strtod (.value (.object members member.1 :: stack)) _ = _
  rw [hvalue.value]
  rfl

/-- The members behind the first one, whose keys are in order. -/
theorem parseFrom_members {l : List (Bytes × Json)} (hkeys : ∀ member ∈ l, Coding.Utf8 member.1)
    (hsorted : ((members ++ l).map Prod.fst).Pairwise (· < ·))
    (h : ∀ member ∈ l, ∀ rest, Closes rest →
      ReadsValue strtod member.2 (text dumpFloat member.2 ++ rest) rest) (rest : Bytes) :
    parseFrom strtod (.objectEvaluation members stack)
        ((l.flatMap fun member => 0x2C :: memberText dumpFloat member) ++ 0x7D :: rest) =
      parseFrom strtod (handleValue (.object (members ++ l)) stack) rest := by
  induction l generalizing members with
  | nil =>
    rw [List.append_nil]
    exact parseFrom_token (scan_structural 0x7D rfl rfl (by decide))
  | cons member l ih =>
    have hlast : ∀ other ∈ members, other.1 < member.1 := by
      intro other hother
      rw [List.map_append, List.pairwise_append] at hsorted
      exact hsorted.2.2 _ (List.mem_map_of_mem hother) _ (List.mem_cons_self ..)
    have hvalue := h member (List.mem_cons_self ..) _
      (closes_separated (memberText dumpFloat) 0x7D (by decide) l rest)
    rw [List.append_cons] at hsorted
    rw [List.flatMap_cons, List.append_assoc, List.cons_append,
      parseFrom_token (scan_structural 0x2C rfl rfl (by decide))]
    show parseFrom strtod (.objectKey members stack) _ = _
    rw [parseFrom_member rfl (hkeys member (List.mem_cons_self ..)) hvalue, assign_last hlast,
      ih (fun m hm => hkeys m (List.mem_cons_of_mem _ hm)) hsorted
        fun m hm => h m (List.mem_cons_of_mem _ hm),
      List.append_assoc, List.singleton_append]

theorem readsValue_object (hkeys : ∀ member ∈ members, Coding.Utf8 member.1)
    (hsorted : (members.map Prod.fst).Pairwise (· < ·))
    (h : ∀ member ∈ members, ∀ rest, Closes rest →
      ReadsValue strtod member.2 (text dumpFloat member.2 ++ rest) rest) (rest : Bytes) :
    ReadsValue strtod (.object members)
      (0x7B :: (Coding.separated 0x2C (memberText dumpFloat) members ++ 0x7D :: rest)) rest := by
  refine ⟨.beginObject, _, scan_structural 0x7B rfl rfl (by decide), nofun, fun stack => ?_⟩
  show parseFrom strtod (.objectStart stack) _ = _
  cases members with
  | nil => exact parseFrom_token (scan_structural 0x7D rfl rfl (by decide))
  | cons member l =>
    have hvalue := h member (List.mem_cons_self ..) _
      (closes_separated (memberText dumpFloat) 0x7D (by decide) l rest)
    rw [Coding.separated, List.append_assoc,
      parseFrom_member rfl (hkeys member (List.mem_cons_self ..)) hvalue]
    exact parseFrom_members (fun m hm => hkeys m (List.mem_cons_of_mem _ hm)) hsorted
      (fun m hm => h m (List.mem_cons_of_mem _ hm)) rest

/-! ## Texts -/

/-- A value is read from its text, whatever closes it. -/
theorem Plain.readsValue (h : Plain json) (hwf : json.WellFormed) :
    ∀ rest, Closes rest → ReadsValue strtod json (text dumpFloat json ++ rest) rest := by
  induction h with
  | null =>
    intro rest _
    have hscan : scan strtod (text dumpFloat .null ++ rest) = some (some .literalNull, rest) := rfl
    exact .of_token hscan fun _ => rfl
  | boolean value =>
    intro rest _
    cases value with
    | true =>
      have hscan : scan strtod (text dumpFloat (.boolean true) ++ rest) =
          some (some .literalTrue, rest) := rfl
      exact .of_token hscan fun _ => rfl
    | false =>
      have hscan : scan strtod (text dumpFloat (.boolean false) ++ rest) =
          some (some .literalFalse, rest) := rfl
      exact .of_token hscan fun _ => rfl
  | number value =>
    cases hwf with
    | number hlow hhigh => exact fun rest hrest => readsValue_number hlow hhigh hrest
  | string hvalue =>
    intro rest _
    rw [text_string hvalue, List.cons_append, List.append_assoc]
    exact .of_token (scan_string hvalue rest) fun _ => rfl
  | array h ih =>
    cases hwf with
    | array helements =>
      intro rest _
      rw [text_array h, List.cons_append, List.append_assoc]
      exact readsValue_array (fun element hmem => ih element hmem (helements element hmem)) rest
  | object hkeys hvalues ih =>
    cases hwf with
    | object _ hsorted hmembers =>
      intro rest _
      rw [text_object hkeys hvalues, List.cons_append, List.append_assoc]
      exact readsValue_object hkeys hsorted
        (fun member hmem => ih member hmem (hmembers member hmem)) rest

theorem skipBom_of_scan {found : Option Token × Bytes} (h : scan strtod text' = some found) :
    skipBom text' = some text' := by
  unfold skipBom
  split
  · cases h
  · rfl

/-- A well-formed value without floats is parsed from its own text. -/
theorem parse_text (h : Plain json) (hwf : json.WellFormed) :
    parse strtod (text dumpFloat json) = some json := by
  have hreads := @Plain.readsValue strtod json dumpFloat h hwf [] nofun
  rw [List.append_nil] at hreads
  obtain ⟨token, left, hscan, -⟩ := id hreads
  rw [parse_eq (skipBom_of_scan hscan), hreads.value]
  exact parseFrom_end json

/-- The values without floats that come back from their texts are the well-formed ones. -/
theorem parse_text_iff (h : Plain json) :
    parse strtod (text dumpFloat json) = some json ↔ json.WellFormed :=
  ⟨wellFormed_of_parse, parse_text h⟩

theorem parse_text_iff_members :
    parse (fun _ => none) (text (fun _ => []) (.object [(ascii "a", .null), (ascii "b", .null)])) =
      some (.object [(ascii "a", .null), (ascii "b", .null)]) := by
  have hkeys : ∀ member ∈ [(ascii "a", Json.null), (ascii "b", Json.null)],
      Coding.Utf8 member.1 := by
    intro member hmem
    refine Coding.Utf8.of_ascii fun b hb => ?_
    simp only [List.mem_cons, List.not_mem_nil, or_false] at hmem
    rcases hmem with rfl | rfl <;> rw [List.mem_singleton.1 hb] <;> decide
  have hnull : ∀ member ∈ [(ascii "a", Json.null), (ascii "b", Json.null)], member.2 = .null := by
    simp
  exact (parse_text_iff (.object hkeys fun member hmem => hnull member hmem ▸ .null)).2
    (.object hkeys (by decide) fun member hmem => hnull member hmem ▸ .null)

end Json
end SamuraiKirby
