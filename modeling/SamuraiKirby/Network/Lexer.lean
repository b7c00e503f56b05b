/-
How the library scans a text into tokens.

`scan` is `lexer::scan`: it skips white space and takes one token off the front of
what is left.  A zero byte is the end of the input, like the end of the text.  What
is scanned does not depend on the parser, so the tokens of a text are scanned first
(`tokens`).  No token is scanned from a text with an error before its end.

`strtod` is the library function of C: it gives the exact value of the double that
is nearest to a decimal number, if that is finite.
-/
import Mathlib.Algebra.Ring.Int.Defs
import Mathlib.Algebra.Ring.Nat
import SamuraiKirby.Coding.Scanning
import SamuraiKirby.Network.Dump

namespace SamuraiKirby
namespace Json

/-- The tokens that have a value or a meaning for the parser.  A float is missing its value when
the double is not finite. -/
inductive Token where
  | literalTrue
  | literalFalse
  | literalNull
  | valueString (value : Bytes)
  | valueUnsigned (value : Nat)
  | valueInteger (value : Int)
  | valueFloat (value : Option Rat)
  | beginArray
  | beginObject
  | endArray
  | endObject
  | nameSeparator
  | valueSeparator
deriving DecidableEq

/-! ## Strings -/

def hexValue (current : UInt8) : Option Nat :=
  if 0x30 ≤ current ∧ current ≤ 0x39 then some (current.toNat - 0x30)
  else if 0x41 ≤ current ∧ current ≤ 0x46 then some (current.toNat - 0x37)
  else if 0x61 ≤ current ∧ current ≤ 0x66 then some (current.toNat - 0x57)
  else none

/-- `get_codepoint`, which reads the four digits behind `\u`. -/
def getCodepoint : Bytes → Option (Nat × Bytes)
  | c₁ :: c₂ :: c₃ :: c₄ :: rest => do
    let d₁ ← hexValue c₁
    let d₂ ← hexValue c₂
    let d₃ ← hexValue c₃
    let d₄ ← hexValue c₄
    return (d₁ * 0x1000 + d₂ * 0x100 + d₃ * 0x10 + d₄, rest)
  | _ => none

/-- The translation of a code point into bytes. -/
def codepointBytes (codepoint : Nat) : Bytes :=
  if codepoint < 0x80 then [UInt8.ofNat codepoint]
  else if codepoint ≤ 0x7FF then
    [UInt8.ofNat (0xC0 ||| (codepoint >>> 6)), UInt8.ofNat (0x80 ||| (codepoint &&& 0x3F))]
  else if codepoint ≤ 0xFFFF then
    [UInt8.ofNat (0xE0 ||| (codepoint >>> 12)),
      UInt8.ofNat (0x80 ||| ((codepoint >>> 6) &&& 0x3F)),
      UInt8.ofNat (0x80 ||| (codepoint &&& 0x3F))]
  else
    [UInt8.ofNat (0xF0 ||| (codepoint >>> 18)),
      UInt8.ofNat (0x80 ||| ((codepoint >>> 12) &&& 0x3F)),
      UInt8.ofNat (0x80 ||| ((codepoint >>> 6) &&& 0x3F)),
      UInt8.ofNat (0x80 ||| (codepoint &&& 0x3F))]

/-- A high surrogate takes a low one with it. -/
def scanUnicode (text : Bytes) : Option (Bytes × Bytes) := do
  let (codepoint1, rest) ← getCodepoint text
  if 0xD800 ≤ codepoint1 ∧ codepoint1 ≤ 0xDBFF then
    match rest with
    | 0x5C :: 0x75 :: rest =>
      let (codepoint2, rest) ← getCodepoint rest
      if 0xDC00 ≤ codepoint2 ∧ codepoint2 ≤ 0xDFFF then
        return (codepointBytes ((codepoint1 <<< 10) + codepoint2 - 0x35FDC00), rest)
      else none
    | _ => none
  else if 0xDC00 ≤ codepoint1 ∧ codepoint1 ≤ 0xDFFF then none
  else return (codepointBytes codepoint1, rest)

/-- What is added for an escape, behind the reverse solidus. -/
def scanEscape : Bytes → Option (Bytes × Bytes)
  | [] => none
  | current :: rest =>
    if current = 0x22 then some ([0x22], rest)
    else if current = 0x5C then some ([0x5C], rest)
    else if current = 0x2F then some ([0x2F], rest)
    else if current = 0x62 then some ([0x08], rest)
    else if current = 0x66 then some ([0x0C], rest)
    else if current = 0x6E then some ([0x0A], rest)
    else if current = 0x72 then some ([0x0D], rest)
    else if current = 0x74 then some ([0x09], rest)
    else if current = 0x75 then scanUnicode rest
    else none

/-- `next_byte_in_range`, without the byte before the ranges. -/
def nextByteInRange : List (UInt8 × UInt8) → Bytes → Option (Bytes × Bytes)
  | [], text => some ([], text)
  | _ :: _, [] => none
  | range :: ranges, current :: rest =>
    if range.1 ≤ current ∧ current ≤ range.2 then
      (nextByteInRange ranges rest).map fun r => (current :: r.1, r.2)
    else none

/-- The ranges of the bytes behind the first of a code point beyond ASCII. -/
def followingRanges (current : UInt8) : Option (List (UInt8 × UInt8)) :=
  if 0xC2 ≤ current ∧ current ≤ 0xDF then some [(0x80, 0xBF)]
  else if current = 0xE0 then some [(0xA0, 0xBF), (0x80, 0xBF)]
  else if 0xE1 ≤ current ∧ current ≤ 0xEC ∨ 0xEE ≤ current ∧ current ≤ 0xEF then
    some [(0x80, 0xBF), (0x80, 0xBF)]
  else if current = 0xED then some [(0x80, 0x9F), (0x80, 0xBF)]
  else if current = 0xF0 then some [(0x90, 0xBF), (0x80, 0xBF), (0x80, 0xBF)]
  else if 0xF1 ≤ current ∧ current ≤ 0xF3 then some [(0x80, 0xBF), (0x80, 0xBF), (0x80, 0xBF)]
  else if current = 0xF4 then some [(0x80, 0x8F), (0x80, 0xBF), (0x80, 0xBF)]
  else none

/-- The body of the loop of `scan_string`: what is added, unless it is the closing quotation
mark. -/
def scanCharacter : Bytes → Option (Option Bytes × Bytes)
  | [] => none
  | current :: rest =>
    if current = 0x22 then some (none, rest)
    else if current = 0x5C then (scanEscape rest).map fun r => (some r.1, r.2)
    else if current ≤ 0x1F then none
    else if current ≤ 0x7F then some (some [current], rest)
    else do
      let ranges ← followingRanges current
      let (following, rest) ← nextByteInRange ranges rest
      return (some (current :: following), rest)

/-- `scan_string`, behind the opening quotation mark. -/
def scanString (text : Bytes) : Option (Bytes × Bytes) :=
  (Coding.scanAll scanCharacter text).map fun r => (r.1.flatten, r.2)

/-! ## Numbers -/

inductive NumberType where
  | valueUnsigned
  | valueInteger
  | valueFloat
deriving DecidableEq

/-- The labels of `scan_number`. -/
inductive NumberState where
  | minus
  | zero
  | any1
  | decimal1
  | decimal2
  | exponent
  | sign
  | any2
deriving DecidableEq

/-- The label a byte leads to; for any other byte the number is done or in error. -/
def NumberState.next : NumberState → UInt8 → Option NumberState
  | .minus, current =>
    if current = 0x30 then some .zero else if isDigit current then some .any1 else none
  | .zero, current =>
    if current = 0x2E then some .decimal1
    else if current = 0x65 ∨ current = 0x45 then some .exponent
    else none
  | .any1, current =>
    if isDigit current then some .any1
    else if current = 0x2E then some .decimal1
    else if current = 0x65 ∨ current = 0x45 then some .exponent
    else none
  | .decimal1, current => if isDigit current then some .decimal2 else none
  | .decimal2, current =>
    if isDigit current then some .decimal2
    else if current = 0x65 ∨ current = 0x45 then some .exponent
    else none
  | .exponent, current =>
    if current = 0x2B ∨ current = 0x2D then some .sign
    else if isDigit current then some .any2
    else none
  | .sign, current => if isDigit current then some .any2 else none
  | .any2, current => if isDigit current then some .any2 else none

/-- Where `scan_number` goes to `scan_number_done` for any other byte. -/
def NumberState.done : NumberState → Bool
  | .zero | .any1 | .decimal2 | .any2 => true
  | _ => false

/-- `number_type` behind a label. -/
def NumberState.type (type : NumberType) : NumberState → NumberType
  | .minus => .valueInteger
  | .decimal1 | .exponent => .valueFloat
  | _ => type

/-- `scan_number` from a label on: what is added to the buffer, and the type.  The byte behind the
number is read again. -/
def scanNumberFrom (state : NumberState) (type : NumberType) :
    Bytes → Option (Bytes × NumberType × Bytes)
  | [] => if state.done then some ([], type, []) else none
  | current :: rest =>
    match state.next current with
    | some state' => (scanNumberFrom state' (state'.type type) rest).map fun r =>
      (current :: r.1, r.2)
    | none => if state.done then some ([], type, current :: rest) else none

variable (strtod : Bytes → Option Rat)

/-- The conversion of the buffer: integers that are out of range become floats. -/
def numberToken (type : NumberType) (tokenBuffer : Bytes) : Token :=
  match type with
  | .valueUnsigned =>
    if digitsValue tokenBuffer < 2 ^ 64 then .valueUnsigned (digitsValue tokenBuffer)
    else .valueFloat (strtod tokenBuffer)
  | .valueInteger =>
    if -2 ^ 63 ≤ intValue tokenBuffer ∧ intValue tokenBuffer < 2 ^ 63 then
      .valueInteger (intValue tokenBuffer)
    else .valueFloat (strtod tokenBuffer)
  | .valueFloat => .valueFloat (strtod tokenBuffer)

/-- `scan_number` for a text that begins with a minus sign or a digit. -/
def scanNumber (current : UInt8) (rest : Bytes) : Option (Token × Bytes) :=
  let state : NumberState :=
    if current = 0x2D then .minus else if current = 0x30 then .zero else .any1
  (scanNumberFrom state (state.type .valueUnsigned) rest).map fun r =>
    (numberToken strtod r.2.1 (current :: r.1), r.2.2)

/-! ## Tokens -/

/-- `scan_literal`, behind the first byte. -/
def scanLiteral (literal : Bytes) (token : Token) (rest : Bytes) : Option (Token × Bytes) :=
  if literal.isPrefixOf rest then some (token, rest.drop literal.length) else none

def isWhitespace (current : UInt8) : Bool :=
  current = 0x20 || current = 0x09 || current = 0x0A || current = 0x0D

def skipWhitespace (text : Bytes) : Bytes := text.dropWhile isWhitespace

/-- The structural characters. -/
def structural? (current : UInt8) : Option Token :=
  if current = 0x5B then some .beginArray
  else if current = 0x5D then some .endArray
  else if current = 0x7B then some .beginObject
  else if current = 0x7D then some .endObject
  else if current = 0x3A then some .nameSeparator
  else if current = 0x2C then some .valueSeparator
  else none

/-- The switch of `scan`. -/
def scanToken (current : UInt8) (rest : Bytes) : Option (Token × Bytes) :=
  match structural? current with
  | some token => some (token, rest)
  | none =>
    if current = 0x74 then scanLiteral (ascii "rue") .literalTrue rest
    else if current = 0x66 then scanLiteral (ascii "alse") .literalFalse rest
    else if current = 0x6E then scanLiteral (ascii "ull") .literalNull rest
    else if current = 0x22 then (scanString rest).map fun r => (.valueString r.1, r.2)
    else if isNumberByte current then scanNumber strtod current rest
    else none

/-- `scan`, behind the byte order mark.  There is no token at the end of the input. -/
def scan (text : Bytes) : Option (Option Token × Bytes) :=
  match skipWhitespace text with
  | [] => some (none, [])
  | current :: rest =>
    if current = 0x00 then some (none, rest)
    else (scanToken strtod current rest).map fun r => (some r.1, r.2)

/-- A byte order mark is skipped, if it is one. -/
def skipBom : Bytes → Option Bytes
  | 0xEF :: rest => if [0xBB, 0xBF].isPrefixOf rest then some (rest.drop 2) else none
  | text => some text

/-- The tokens of a text up to the end of the input. -/
def tokens (text : Bytes) : Option (List Token) := do
  let text ← skipBom text
  let (tokens, _) ← Coding.scanAll (scan strtod) text
  return tokens

/-! ## What is scanned is UTF-8 -/

variable {text rest : Bytes} {current : UInt8} {codepoint : Nat} {added : Bytes}

theorem hexValue_lt {digit : Nat} (h : hexValue current = some digit) : digit < 16 := by
  unfold hexValue at h
  have hlt := current.toNat_lt
  split_ifs at h with h₁ h₂ h₃
  all_goals
    have hvalue := Option.some.inj h
    simp only [UInt8.le_iff_toNat_le] at *
    simp at *
    omega

theorem getCodepoint_spec (h : getCodepoint text = some (codepoint, rest)) :
    codepoint < 0x10000 ∧ rest.length < text.length := by
  unfold getCodepoint at h
  split at h
  · next c₁ c₂ c₃ c₄ left =>
    simp only [Option.bind_eq_bind, Option.bind_eq_some_iff] at h
    obtain ⟨d₁, h₁, d₂, h₂, d₃, h₃, d₄, h₄, h⟩ := h
    have hd₁ := hexValue_lt h₁
    have hd₂ := hexValue_lt h₂
    have hd₃ := hexValue_lt h₃
    have hd₄ := hexValue_lt h₄
    cases h
    simp only [List.length_cons]
    omega
  · cases h

/-- The bits of a code point do not overlap the mark in front of them. -/
theorem marked_toNat : (∀ k < 64, (UInt8.ofNat (0x80 ||| k)).toNat = 0x80 + k) ∧
    (∀ k < 32, (UInt8.ofNat (0xC0 ||| k)).toNat = 0xC0 + k) ∧
    (∀ k < 16, (UInt8.ofNat (0xE0 ||| k)).toNat = 0xE0 + k) ∧
    ∀ k < 8, (UInt8.ofNat (0xF0 ||| k)).toNat = 0xF0 + k := by decide +kernel

theorem following_toNat (n : Nat) :
    (UInt8.ofNat (0x80 ||| (n &&& 0x3F))).toNat = 0x80 + n % 64 := by
  rw [show n &&& 0x3F = n % 64 from Nat.and_two_pow_sub_one_eq_mod n 6]
  exact marked_toNat.1 _ (Nat.mod_lt n (by decide))

theorem in_range {byte : UInt8} {n : Nat} (hbyte : byte.toNat = n) (lo hi : Nat) (hhi : hi < 256)
    (hle : lo ≤ n) (hge : n ≤ hi) : UInt8.ofNat lo ≤ byte ∧ byte ≤ UInt8.ofNat hi := by
  have hlo : lo < UInt8.size := Nat.lt_of_le_of_lt (hle.trans hge) hhi
  rw [UInt8.le_iff_toNat_le, UInt8.le_iff_toNat_le, hbyte, UInt8.toNat_ofNat_of_lt' hlo,
    UInt8.toNat_ofNat_of_lt' hhi]
  exact ⟨hle, hge⟩

/-- A code point that is no surrogate is translated into UTF-8. -/
theorem utf8_codepointBytes (hlow : codepoint < 0xD800 ∨ 0xDFFF < codepoint)
    (hhigh : codepoint ≤ 0x10FFFF) : Coding.Utf8 (codepointBytes codepoint) := by
  have hlast : ∀ n, UInt8.ofNat 0x80 ≤ UInt8.ofNat (0x80 ||| (n &&& 0x3F)) ∧
      UInt8.ofNat (0x80 ||| (n &&& 0x3F)) ≤ UInt8.ofNat 0xBF := fun n =>
    in_range (following_toNat n) 0x80 0xBF (by decide) (by omega) (by omega)
  unfold codepointBytes
  simp only [Nat.shiftRight_eq_div_pow]
  split_ifs with h₁ h₂ h₃
  · refine Coding.Utf8.of_ascii fun b hb => ?_
    have htoNat : (UInt8.ofNat codepoint).toNat = codepoint := by
      rw [UInt8.toNat_ofNat']
      omega
    rw [List.mem_singleton.1 hb]
    exact (in_range htoNat 0 0x7F (by decide) (by omega) (by omega)).2
  · have hfirst := marked_toNat.2.1 (codepoint / 2 ^ 6) (by omega)
    exact Coding.Utf8.of_form [(0xC2, 0xDF), (0x80, 0xBF)] (by decide)
      (.cons (in_range hfirst 0xC2 0xDF (by decide) (by omega) (by omega))
        (.cons (hlast _) .nil))
  · have hfirst := marked_toNat.2.2.1 (codepoint / 2 ^ 12) (by omega)
    have hsecond := following_toNat (codepoint / 2 ^ 6)
    rcases Nat.lt_or_ge codepoint 0x1000 with hlt | hge
    · exact Coding.Utf8.of_form [(0xE0, 0xE0), (0xA0, 0xBF), (0x80, 0xBF)] (by decide)
        (.cons (in_range hfirst 0xE0 0xE0 (by decide) (by omega) (by omega))
          (.cons (in_range hsecond 0xA0 0xBF (by decide) (by omega) (by omega))
            (.cons (hlast _) .nil)))
    rcases Nat.lt_or_ge codepoint 0xD000 with hlt | hge
    · exact Coding.Utf8.of_form [(0xE1, 0xEC), (0x80, 0xBF), (0x80, 0xBF)] (by decide)
        (.cons (in_range hfirst 0xE1 0xEC (by decide) (by omega) (by omega))
          (.cons (hlast _) (.cons (hlast _) .nil)))
    rcases Nat.lt_or_ge codepoint 0xE000 with hlt | hge
    · exact Coding.Utf8.of_form [(0xED, 0xED), (0x80, 0x9F), (0x80, 0xBF)] (by decide)
        (.cons (in_range hfirst 0xED 0xED (by decide) (by omega) (by omega))
          (.cons (in_range hsecond 0x80 0x9F (by decide) (by omega) (by omega))
            (.cons (hlast _) .nil)))
    · exact Coding.Utf8.of_form [(0xEE, 0xEF), (0x80, 0xBF), (0x80, 0xBF)] (by decide)
        (.cons (in_range hfirst 0xEE 0xEF (by decide) (by omega) (by omega))
          (.cons (hlast _) (.cons (hlast _) .nil)))
  · have hfirst := marked_toNat.2.2.2 (codepoint / 2 ^ 18) (by omega)
    have hsecond := following_toNat (codepoint / 2 ^ 12)
    rcases Nat.lt_or_ge codepoint 0x40000 with hlt | hge
    · exact Coding.Utf8.of_form
        [(0xF0, 0xF0), (0x90, 0xBF), (0x80, 0xBF), (0x80, 0xBF)] (by decide)
        (.cons (in_range hfirst 0xF0 0xF0 (by decide) (by omega) (by omega))
          (.cons (in_range hsecond 0x90 0xBF (by decide) (by omega) (by omega))
            (.cons (hlast _) (.cons (hlast _) .nil))))
    rcases Nat.lt_or_ge codepoint 0x100000 with hlt | hge
    · exact Coding.Utf8.of_form
        [(0xF1, 0xF3), (0x80, 0xBF), (0x80, 0xBF), (0x80, 0xBF)] (by decide)
        (.cons (in_range hfirst 0xF1 0xF3 (by decide) (by omega) (by omega))
          (.cons (hlast _) (.cons (hlast _) (.cons (hlast _) .nil))))
    · exact Coding.Utf8.of_form
        [(0xF4, 0xF4), (0x80, 0x8F), (0x80, 0xBF), (0x80, 0xBF)] (by decide)
        (.cons (in_range hfirst 0xF4 0xF4 (by decide) (by omega) (by omega))
          (.cons (in_range hsecond 0x80 0x8F (by decide) (by omega) (by omega))
            (.cons (hlast _) (.cons (hlast _) .nil))))

theorem scanUnicode_spec (h : scanUnicode text = some (added, rest)) :
    Coding.Utf8 added ∧ rest.length < text.length := by
  unfold scanUnicode at h
  simp only [Option.bind_eq_bind, Option.bind_eq_some_iff] at h
  obtain ⟨⟨codepoint1, left⟩, hfirst, h⟩ := h
  obtain ⟨hlt, hlength⟩ := getCodepoint_spec hfirst
  simp only at h
  split_ifs at h with hhigh hlow
  · split at h
    · next left' =>
      simp only [Option.bind_eq_some_iff] at h
      obtain ⟨⟨codepoint2, left''⟩, hsecond, h⟩ := h
      obtain ⟨-, hlength'⟩ := getCodepoint_spec hsecond
      split_ifs at h with hpair
      obtain ⟨rfl, rfl⟩ := Prod.mk.inj (Option.some.inj h)
      have hshift : codepoint1 <<< 10 = codepoint1 * 1024 := Nat.shiftLeft_eq codepoint1 10
      simp only [List.length_cons] at hlength
      simp only [hshift]
      exact ⟨utf8_codepointBytes (by omega) (by omega), by omega⟩
    · cases h
  · cases h
    exact ⟨utf8_codepointBytes (by omega) (by omega), hlength⟩

theorem scanEscape_spec (h : scanEscape text = some (added, rest)) :
    Coding.Utf8 added ∧ rest.length < text.length := by
  have hascii : ∀ b : UInt8, b ≤ 0x7F → Coding.Utf8 [b] := fun b hb =>
    Coding.Utf8.of_ascii fun c hc => by rwa [List.mem_singleton.1 hc]
  cases text with
  | nil => cases h
  | cons current left =>
    have hlength : left.length < (current :: left).length := Nat.lt_succ_self _
    simp only [scanEscape] at h
    split_ifs at h with h₁ h₂ h₃ h₄ h₅ h₆ h₇ h₈ h₉
    iterate 8
      · cases h
        exact ⟨hascii _ (by decide), hlength⟩
    · exact ⟨(scanUnicode_spec h).1, (scanUnicode_spec h).2.trans hlength⟩

theorem nextByteInRange_spec {ranges : List (UInt8 × UInt8)}
    (h : nextByteInRange ranges text = some (added, rest)) :
    Coding.Utf8.Matches ranges added ∧ rest.length ≤ text.length := by
  induction ranges generalizing text added with
  | nil =>
    cases h
    exact ⟨.nil, Nat.le_refl _⟩
  | cons range ranges ih =>
    cases text with
    | nil => cases h
    | cons current left =>
      unfold nextByteInRange at h
      split_ifs at h with hrange
      obtain ⟨⟨others, left'⟩, hothers, heq⟩ := Option.map_eq_some_iff.1 h
      cases heq
      obtain ⟨hmatches, hlength⟩ := ih hothers
      exact ⟨.cons hrange hmatches, hlength.trans (Nat.le_succ _)⟩

theorem followingRanges_spec {ranges : List (UInt8 × UInt8)}
    (h : followingRanges current = some ranges) :
    ∃ lo hi, (lo, hi) :: ranges ∈ Coding.Utf8.forms ∧ lo ≤ current ∧ current ≤ hi := by
  have heq : ∀ {b : UInt8}, current = b → b ≤ current ∧ current ≤ b := by
    rintro b rfl
    exact ⟨UInt8.le_refl _, UInt8.le_refl _⟩
  unfold followingRanges at h
  split_ifs at h with h₁ h₂ h₃ h₄ h₅ h₆ h₇ <;> cases h
  · exact ⟨0xC2, 0xDF, by decide, h₁⟩
  · exact ⟨0xE0, 0xE0, by decide, heq h₂⟩
  · rcases h₃ with h₃ | h₃
    · exact ⟨0xE1, 0xEC, by decide, h₃⟩
    · exact ⟨0xEE, 0xEF, by decide, h₃⟩
  · exact ⟨0xED, 0xED, by decide, heq h₄⟩
  · exact ⟨0xF0, 0xF0, by decide, heq h₅⟩
  · exact ⟨0xF1, 0xF3, by decide, h₆⟩
  · exact ⟨0xF4, 0xF4, by decide, heq h₇⟩

theorem scanCharacter_spec {added? : Option Bytes} (h : scanCharacter text = some (added?, rest)) :
    (∀ added ∈ added?, Coding.Utf8 added) ∧ rest.length < text.length := by
  cases text with
  | nil => cases h
  | cons current left =>
    have hlength : left.length < (current :: left).length := Nat.lt_succ_self _
    simp only [scanCharacter] at h
    split_ifs at h with hquote hescape hcontrol hascii
    · cases h
      exact ⟨nofun, hlength⟩
    · obtain ⟨⟨added, left'⟩, hadded, heq⟩ := Option.map_eq_some_iff.1 h
      cases heq
      obtain ⟨hutf8, hlt⟩ := scanEscape_spec hadded
      exact ⟨fun _ hsome => Option.some.inj hsome ▸ hutf8, hlt.trans hlength⟩
    · cases h
      refine ⟨fun added hsome => ?_, hlength⟩
      rw [← Option.some.inj hsome]
      exact Coding.Utf8.of_ascii fun b hb => by rwa [List.mem_singleton.1 hb]
    · simp only [Option.bind_eq_bind, Option.bind_eq_some_iff] at h
      obtain ⟨ranges, hranges, ⟨following, left'⟩, hfollowing, heq⟩ := h
      cases heq
      obtain ⟨lo, hi, hform, hrange⟩ := followingRanges_spec hranges
      obtain ⟨hmatches, hle⟩ := nextByteInRange_spec hfollowing
      refine ⟨fun added hsome => ?_, Nat.lt_of_le_of_lt hle hlength⟩
      rw [← Option.some.inj hsome]
      exact Coding.Utf8.of_form _ hform (.cons hrange hmatches)

theorem shrinks_scanCharacter : Coding.Shrinks scanCharacter :=
  fun _ _ _ h => (scanCharacter_spec h).2

/-- No string is scanned that is not UTF-8. -/
theorem scanString_spec {value : Bytes} (h : scanString text = some (value, rest)) :
    Coding.Utf8 value ∧ rest.length < text.length := by
  obtain ⟨⟨words, left⟩, hwords, heq⟩ := Option.map_eq_some_iff.1 h
  cases heq
  refine ⟨Coding.Utf8.flatten ?_, ?_⟩
  · exact Coding.scanAll_forall (fun _ word _ hword => (scanCharacter_spec hword).1 word rfl) hwords
  · exact Coding.scanAll_length shrinks_scanCharacter
      (fun _ _ hend => (scanCharacter_spec hend).2) hwords

/-! ## What a token can be -/

/-- Strings are UTF-8 and integers fit 64 bits. -/
def Token.WellFormed : Token → Prop
  | .valueString value => Coding.Utf8 value
  | .valueUnsigned value => value < 2 ^ 64
  | .valueInteger value => -2 ^ 63 ≤ value ∧ value < 2 ^ 63
  | _ => True

theorem scanNumberFrom_length {state : NumberState} {type type' : NumberType} {buffer : Bytes}
    (h : scanNumberFrom state type text = some (buffer, type', rest)) :
    rest.length ≤ text.length := by
  induction text generalizing state type buffer with
  | nil =>
    unfold scanNumberFrom at h
    split_ifs at h
    cases h
    exact Nat.le_refl _
  | cons current left ih =>
    unfold scanNumberFrom at h
    split at h
    · obtain ⟨⟨others, type'', left'⟩, hothers, heq⟩ := Option.map_eq_some_iff.1 h
      cases heq
      exact (ih hothers).trans (Nat.le_succ _)
    · split_ifs at h
      cases h
      exact Nat.le_refl _

theorem numberToken_wellFormed (type : NumberType) (buffer : Bytes) :
    (numberToken strtod type buffer).WellFormed := by
  cases type with
  | valueUnsigned =>
    simp only [numberToken]
    split_ifs with h
    · exact h
    · trivial
  | valueInteger =>
    simp only [numberToken]
    split_ifs with h
    · exact h
    · trivial
  | valueFloat => trivial

variable {strtod} {token : Token}

theorem scanLiteral_spec {literal : Bytes} {token' : Token}
    (h : scanLiteral literal token' text = some (token, rest)) :
    token = token' ∧ rest.length ≤ text.length := by
  unfold scanLiteral at h
  split_ifs at h
  cases h
  exact ⟨rfl, (List.drop_sublist _ _).length_le⟩

theorem structural?_wellFormed (h : structural? current = some token) : token.WellFormed := by
  unfold structural? at h
  split_ifs at h
  all_goals
    cases h
    trivial

theorem scanToken_spec (h : scanToken strtod current text = some (token, rest)) :
    token.WellFormed ∧ rest.length ≤ text.length := by
  have hliteral : ∀ literal token', token'.WellFormed →
      scanLiteral literal token' text = some (token, rest) →
        token.WellFormed ∧ rest.length ≤ text.length := by
    intro literal token' hwf hscan
    obtain ⟨rfl, hlength⟩ := scanLiteral_spec hscan
    exact ⟨hwf, hlength⟩
  unfold scanToken at h
  split at h
  · next token' hstructural =>
    cases h
    exact ⟨structural?_wellFormed hstructural, Nat.le_refl _⟩
  · split_ifs at h
    · exact hliteral _ .literalTrue trivial h
    · exact hliteral _ .literalFalse trivial h
    · exact hliteral _ .literalNull trivial h
    · obtain ⟨⟨value, left⟩, hvalue, heq⟩ := Option.map_eq_some_iff.1 h
      cases heq
      exact ⟨(scanString_spec hvalue).1, (scanString_spec hvalue).2.le⟩
    · obtain ⟨⟨buffer, type, left⟩, hbuffer, heq⟩ := Option.map_eq_some_iff.1 h
      cases heq
      exact ⟨numberToken_wellFormed strtod _ _, scanNumberFrom_length hbuffer⟩

theorem scan_spec {token? : Option Token} (h : scan strtod text = some (token?, rest)) :
    (∀ token ∈ token?, token.WellFormed) ∧ (token? ≠ none → rest.length < text.length) := by
  have hskip : (skipWhitespace text).length ≤ text.length := (List.dropWhile_sublist _).length_le
  unfold scan at h
  split at h
  · cases h
    exact ⟨nofun, fun hne => absurd rfl hne⟩
  · next current left htext =>
    rw [htext, List.length_cons] at hskip
    split_ifs at h
    · cases h
      exact ⟨nofun, fun hne => absurd rfl hne⟩
    · obtain ⟨⟨token, left'⟩, htoken, heq⟩ := Option.map_eq_some_iff.1 h
      cases heq
      obtain ⟨hwf, hlength⟩ := scanToken_spec htoken
      exact ⟨fun _ hsome => Option.some.inj hsome ▸ hwf, fun _ => Nat.lt_of_le_of_lt hlength hskip⟩

theorem shrinks_scan : Coding.Shrinks (scan strtod) :=
  fun _ _ _ h => (scan_spec h).2 (by simp)

theorem tokens_wellFormed {ts : List Token} (h : tokens strtod text = some ts) :
    ∀ token ∈ ts, token.WellFormed := by
  unfold tokens at h
  simp only [Option.bind_eq_bind, Option.bind_eq_some_iff] at h
  obtain ⟨left, -, ⟨ts', left'⟩, hscan, heq⟩ := h
  cases heq
  exact Coding.scanAll_forall (fun _ token _ htoken => (scan_spec htoken).1 token rfl) hscan

end Json
end SamuraiKirby
