/-
How the library writes a string.

`dump_escaped` decodes UTF-8 with a table-driven automaton.  It escapes the
control characters, the quotation mark and the reverse solidus, copies all else,
and throws when the string is not UTF-8.

`arcs` reads the automaton off the table by ranges of bytes.  The code points of
UTF-8 are its paths, and none of more than one byte comes out as an ASCII
character, so a UTF-8 string is written as one word for each byte
(`dumpEscaped_eq`).  The words can be read back (`reads_escaped`).
-/
import SamuraiKirby.Coding.SelfDelimiting
import SamuraiKirby.Coding.Utf8
import SamuraiKirby.Network.Serializer
import Mathlib.Data.List.GetD

namespace SamuraiKirby

/-- `type_error` 316, the only exception that `dump` throws. -/
inductive DumpFailure where
  | invalidByte
  | incompleteString
deriving DecidableEq, Repr

namespace Json

/-- The classes of the bytes, and then the transitions, one row of 16 for each state. -/
def utf8d : List Nat :=
  [0, 0, 0, 0, 0, 0, 0, 0, 0, 0, 0, 0, 0, 0, 0, 0, 0, 0, 0, 0, 0, 0, 0, 0, 0, 0, 0, 0, 0, 0, 0, 0,
    0, 0, 0, 0, 0, 0, 0, 0, 0, 0, 0, 0, 0, 0, 0, 0, 0, 0, 0, 0, 0, 0, 0, 0, 0, 0, 0, 0, 0, 0, 0, 0,
    0, 0, 0, 0, 0, 0, 0, 0, 0, 0, 0, 0, 0, 0, 0, 0, 0, 0, 0, 0, 0, 0, 0, 0, 0, 0, 0, 0, 0, 0, 0, 0,
    0, 0, 0, 0, 0, 0, 0, 0, 0, 0, 0, 0, 0, 0, 0, 0, 0, 0, 0, 0, 0, 0, 0, 0, 0, 0, 0, 0, 0, 0, 0, 0,
    1, 1, 1, 1, 1, 1, 1, 1, 1, 1, 1, 1, 1, 1, 1, 1, 9, 9, 9, 9, 9, 9, 9, 9, 9, 9, 9, 9, 9, 9, 9, 9,
    7, 7, 7, 7, 7, 7, 7, 7, 7, 7, 7, 7, 7, 7, 7, 7, 7, 7, 7, 7, 7, 7, 7, 7, 7, 7, 7, 7, 7, 7, 7, 7,
    8, 8, 2, 2, 2, 2, 2, 2, 2, 2, 2, 2, 2, 2, 2, 2, 2, 2, 2, 2, 2, 2, 2, 2, 2, 2, 2, 2, 2, 2, 2, 2,
    0xA, 0x3, 0x3, 0x3, 0x3, 0x3, 0x3, 0x3, 0x3, 0x3, 0x3, 0x3, 0x3, 0x4, 0x3, 0x3,
    0xB, 0x6, 0x6, 0x6, 0x5, 0x8, 0x8, 0x8, 0x8, 0x8, 0x8, 0x8, 0x8, 0x8, 0x8, 0x8,
    0x0, 0x1, 0x2, 0x3, 0x5, 0x8, 0x7, 0x1, 0x1, 0x1, 0x4, 0x6, 0x1, 0x1, 0x1, 0x1,
    1, 1, 1, 1, 1, 1, 1, 1, 1, 1, 1, 1, 1, 1, 1, 1, 1, 0, 1, 1, 1, 1, 1, 0, 1, 0, 1, 1, 1, 1, 1, 1,
    1, 2, 1, 1, 1, 1, 1, 2, 1, 2, 1, 1, 1, 1, 1, 1, 1, 1, 1, 1, 1, 1, 1, 2, 1, 1, 1, 1, 1, 1, 1, 1,
    1, 2, 1, 1, 1, 1, 1, 1, 1, 2, 1, 1, 1, 1, 1, 1, 1, 1, 1, 1, 1, 1, 1, 3, 1, 3, 1, 1, 1, 1, 1, 1,
    1, 3, 1, 1, 1, 1, 1, 3, 1, 3, 1, 1, 1, 1, 1, 1, 1, 3, 1, 1, 1, 1, 1, 1, 1, 1, 1, 1, 1, 1, 1, 1]

/-- `UTF8_ACCEPT`, where the automaton starts and is after each code point. -/
def utf8Accept : Nat := 0

/-- `UTF8_REJECT` -/
def utf8Reject : Nat := 1

/-- The state and the code point after a byte.  At most three bytes follow the first of a code
point, so the shift does not overflow. -/
def decode (state codep : Nat) (byte : UInt8) : Nat × Nat :=
  let type := utf8d.getD byte.toNat utf8Reject
  let codep' :=
    if state ≠ utf8Accept then (byte.toNat &&& 0x3F) ||| (codep <<< 6)
    else (0xFF >>> type) &&& byte.toNat
  (utf8d.getD (256 + state * 16 + type) utf8Reject, codep')

def hexDigit (n : Nat) : UInt8 := UInt8.ofNat (if n < 10 then 0x30 + n else 0x57 + n)

/-- What is written for a code point whose last byte is given.  The bytes before the last have
been copied. -/
def escape (codepoint : Nat) (byte : UInt8) : Bytes :=
  if codepoint = 0x08 then ascii "\\b"
  else if codepoint = 0x09 then ascii "\\t"
  else if codepoint = 0x0A then ascii "\\n"
  else if codepoint = 0x0C then ascii "\\f"
  else if codepoint = 0x0D then ascii "\\r"
  else if codepoint = 0x22 then ascii "\\\""
  else if codepoint = 0x5C then ascii "\\\\"
  else if codepoint ≤ 0x1F then
    ascii "\\u" ++ [hexDigit (codepoint / 4096), hexDigit (codepoint / 256 % 16),
      hexDigit (codepoint / 16 % 16), hexDigit (codepoint % 16)]
  else [byte]

/-- `dump_escaped` from some byte on.  What it writes is lost if it throws. -/
def dumpEscapedFrom (state codepoint : Nat) : Bytes → Except DumpFailure Bytes
  | [] => if state = utf8Accept then .ok [] else .error .incompleteString
  | byte :: rest =>
    let (state', codepoint') := decode state codepoint byte
    if state' = utf8Accept then
      (escape codepoint' byte ++ ·) <$> dumpEscapedFrom state' codepoint' rest
    else if state' = utf8Reject then .error .invalidByte
    else (byte :: ·) <$> dumpEscapedFrom state' codepoint' rest

def dumpEscaped (s : Bytes) : Except DumpFailure Bytes := dumpEscapedFrom utf8Accept 0 s

/-! ## The automaton, by ranges of bytes -/

/-- The class of a byte, which is the first part of the table. -/
def byteClass (n : Nat) : Nat :=
  if n < 0x80 then 0 else if n < 0x90 then 1 else if n < 0xA0 then 9 else if n < 0xC0 then 7
  else if n < 0xC2 then 8 else if n < 0xE0 then 2 else if n = 0xE0 then 0xA
  else if n = 0xED then 4 else if n < 0xF0 then 3 else if n = 0xF0 then 0xB
  else if n < 0xF4 then 6 else if n = 0xF4 then 5 else 8

/-- The state after a byte of a class, which is the second part. -/
def nextState : Nat → Nat → Nat
  | 0, 0 => 0
  | 0, 2 => 2
  | 0, 3 => 3
  | 0, 4 => 5
  | 0, 5 => 8
  | 0, 6 => 7
  | 0, 0xA => 4
  | 0, 0xB => 6
  | 2, 1 | 2, 7 | 2, 9 => 0
  | 3, 1 | 3, 7 | 3, 9 | 4, 7 | 5, 1 | 5, 9 => 2
  | 6, 7 | 6, 9 | 7, 1 | 7, 7 | 7, 9 | 8, 1 => 3
  | _, _ => 1

theorem utf8d_eq : utf8d = (List.range 256).map byteClass ++
    (List.range 144).map fun i => nextState (i / 16) (i % 16) := by decide +kernel

theorem utf8d_byteClass (byte : UInt8) :
    utf8d.getD byte.toNat utf8Reject = byteClass byte.toNat := by
  have hlt := byte.toNat_lt
  rw [utf8d_eq, List.getD_append _ _ _ _ (by simpa using hlt)]
  simp [hlt]

theorem utf8d_nextState {state type : Nat} (hstate : state ≤ 8) (htype : type < 16) :
    utf8d.getD (256 + state * 16 + type) utf8Reject = nextState state type := by
  rw [utf8d_eq, List.getD_append_right _ _ _ _ (by simp; omega)]
  have hindex : 256 + state * 16 + type - 256 = state * 16 + type := by omega
  have hrow : (state * 16 + type) / 16 = state := by omega
  have hcolumn : (state * 16 + type) % 16 = type := by omega
  have hlt : state * 16 + type < 144 := by omega
  simp [hindex, hrow, hcolumn, hlt]

theorem byteClass_lt : ∀ n < 256, byteClass n < 16 := by decide +kernel

theorem decode_fst {state : Nat} (hstate : state ≤ 8) (codep : Nat) (byte : UInt8) :
    (decode state codep byte).1 = nextState state (byteClass byte.toNat) := by
  simp only [decode]
  rw [utf8d_byteClass, utf8d_nextState hstate (byteClass_lt _ byte.toNat_lt)]

/-- What the automaton does with the bytes of a range. -/
structure Arc where
  state : Nat
  lo : Nat
  hi : Nat
  next : Nat

/-- The arcs that code points of more than one byte take. -/
def arcs : List Arc :=
  [⟨0, 0xC2, 0xDF, 2⟩, ⟨0, 0xE0, 0xE0, 4⟩, ⟨0, 0xE1, 0xEC, 3⟩, ⟨0, 0xED, 0xED, 5⟩,
    ⟨0, 0xEE, 0xEF, 3⟩, ⟨0, 0xF0, 0xF0, 6⟩, ⟨0, 0xF1, 0xF3, 7⟩, ⟨0, 0xF4, 0xF4, 8⟩,
    ⟨2, 0x80, 0xBF, 0⟩, ⟨3, 0x80, 0xBF, 2⟩, ⟨4, 0xA0, 0xBF, 2⟩, ⟨5, 0x80, 0x9F, 2⟩,
    ⟨6, 0x90, 0xBF, 3⟩, ⟨7, 0x80, 0xBF, 3⟩, ⟨8, 0x80, 0x8F, 3⟩]

/-- The least value the code point has in a state, so that no code point of more than one byte
ends up among the ASCII characters. -/
def least : Nat → Nat
  | 0 => 0x80
  | 2 => 2
  | 3 | 5 | 7 | 8 => 1
  | _ => 0

theorem arc_state : ∀ arc ∈ arcs, arc.state ≤ 8 ∧ arc.next ≠ utf8Reject := by decide

theorem arc_next : ∀ arc ∈ arcs, ∀ k < arc.hi + 1 - arc.lo,
    nextState arc.state (byteClass (arc.lo + k)) = arc.next := by decide +kernel

theorem arc_least : ∀ arc ∈ arcs, ∀ k < arc.hi + 1 - arc.lo,
    if arc.state = 0 then least arc.next ≤ (0xFF >>> byteClass (arc.lo + k)) &&& (arc.lo + k)
    else least arc.next ≤ least arc.state * 64 ∨ least arc.next ≤ (arc.lo + k) &&& 0x3F := by
  decide +kernel

variable {arc : Arc} {byte : UInt8} {codep : Nat}

theorem decode_arc (harc : arc ∈ arcs) (hlo : arc.lo ≤ byte.toNat) (hhi : byte.toNat ≤ arc.hi)
    (codep : Nat) : (decode arc.state codep byte).1 = arc.next := by
  have hnext := arc_next arc harc (byte.toNat - arc.lo) (by omega)
  rw [Nat.add_sub_cancel' hlo] at hnext
  rw [decode_fst (arc_state arc harc).1, hnext]

theorem least_le_decode (harc : arc ∈ arcs) (hlo : arc.lo ≤ byte.toNat)
    (hhi : byte.toNat ≤ arc.hi) (hcodep : arc.state = 0 ∨ least arc.state ≤ codep) :
    least arc.next ≤ (decode arc.state codep byte).2 := by
  have hleast := arc_least arc harc (byte.toNat - arc.lo) (by omega)
  rw [Nat.add_sub_cancel' hlo] at hleast
  simp only [decode, utf8d_byteClass, utf8Accept]
  by_cases hstate : arc.state = 0
  · rw [if_pos hstate] at hleast
    rw [if_neg (not_not.2 hstate)]
    exact hleast
  · rw [if_neg hstate] at hleast
    rw [if_pos hstate]
    have hshift : least arc.state * 64 ≤ codep <<< 6 := by
      rw [Nat.shiftLeft_eq]
      exact Nat.mul_le_mul_right 64 (hcodep.resolve_left hstate)
    rcases hleast with hleast | hleast
    · exact (hleast.trans hshift).trans Nat.right_le_or
    · exact hleast.trans Nat.left_le_or

/-- Beyond ASCII nothing is escaped. -/
theorem escape_of_le (h : 0x80 ≤ codep) (byte : UInt8) : escape codep byte = [byte] := by
  unfold escape
  split_ifs <;> first | rfl | omega

theorem dumpEscapedFrom_accept (codep : Nat) (rest : Bytes) :
    dumpEscapedFrom utf8Accept codep rest = dumpEscapedFrom utf8Accept 0 rest := by
  cases rest <;> rfl

/-- Along an arc the byte is copied. -/
theorem dumpEscapedFrom_arc (harc : arc ∈ arcs) (hlo : arc.lo ≤ byte.toNat)
    (hhi : byte.toNat ≤ arc.hi) (hcodep : arc.state = 0 ∨ least arc.state ≤ codep) :
    ∃ codep', least arc.next ≤ codep' ∧ ∀ rest,
      dumpEscapedFrom arc.state codep (byte :: rest) =
        (byte :: ·) <$> dumpEscapedFrom arc.next codep' rest := by
  have hleast := least_le_decode harc hlo hhi hcodep
  refine ⟨_, hleast, fun rest => ?_⟩
  simp only [dumpEscapedFrom, decode_arc harc hlo hhi]
  by_cases hnext : arc.next = utf8Accept
  · rw [hnext] at hleast
    rw [if_pos hnext, escape_of_le hleast]
    rfl
  · rw [if_neg hnext, if_neg (arc_state arc harc).2]

/-- The ranges label a path of arcs back to the start. -/
def path : Nat → List (UInt8 × UInt8) → Bool
  | state, [] => state == 0
  | state, range :: ranges => arcs.any fun arc =>
    arc.state == state && arc.lo == range.1.toNat && arc.hi == range.2.toNat &&
      path arc.next ranges

theorem path_of_forms : ∀ form ∈ Coding.Utf8.forms.tail, path 0 form = true := by decide

theorem dumpEscapedFrom_path {state : Nat} {ranges : List (UInt8 × UInt8)} {bytes : Bytes}
    (hpath : path state ranges = true) (hbytes : Coding.Utf8.Matches ranges bytes)
    (hcodep : state = 0 ∨ least state ≤ codep) (rest : Bytes) :
    dumpEscapedFrom state codep (bytes ++ rest) =
      (bytes ++ ·) <$> dumpEscapedFrom utf8Accept 0 rest := by
  induction hbytes generalizing state codep with
  | nil =>
    rw [show state = utf8Accept from beq_iff_eq.1 hpath, List.nil_append, dumpEscapedFrom_accept]
    exact (id_map _).symm
  | @cons range byte ranges bytes hbyte _ ih =>
    obtain ⟨arc, harc, hmatch⟩ := List.any_eq_true.1 hpath
    simp only [Bool.and_eq_true, beq_iff_eq] at hmatch
    obtain ⟨⟨⟨rfl, hlo⟩, hhi⟩, hrest⟩ := hmatch
    have hbyteLo : arc.lo ≤ byte.toNat := hlo ▸ UInt8.le_iff_toNat_le.1 hbyte.1
    have hbyteHi : byte.toNat ≤ arc.hi := hhi ▸ UInt8.le_iff_toNat_le.1 hbyte.2
    obtain ⟨codep', hleast, hstep⟩ := dumpEscapedFrom_arc harc hbyteLo hbyteHi hcodep
    rw [List.cons_append, hstep, ih hrest (Or.inr hleast), ← comp_map]
    rfl

/-! ## One word for each byte -/

/-- What is written for a byte of a UTF-8 string. -/
def escapeByte (byte : UInt8) : Bytes :=
  if byte ≤ 0x7F then escape byte.toNat byte else [byte]

def escaped (s : Bytes) : Bytes := s.flatMap escapeByte

theorem dumpEscapedFrom_ascii {byte : UInt8} (h : byte ≤ 0x7F) (rest : Bytes) :
    dumpEscapedFrom utf8Accept 0 (byte :: rest) =
      (escapeByte byte ++ ·) <$> dumpEscapedFrom utf8Accept 0 rest := by
  have hlt : byte.toNat < 0x80 := by
    have hle := UInt8.le_iff_toNat_le.1 h
    exact Nat.lt_succ_of_le hle
  have hclass : byteClass byte.toNat = 0 := by rw [byteClass, if_pos hlt]
  have hstate : (decode utf8Accept 0 byte).1 = utf8Accept := by
    rw [decode_fst (by decide), hclass]
    rfl
  have hcodep : (decode utf8Accept 0 byte).2 = byte.toNat := by
    simp only [decode, utf8d_byteClass, hclass]
    show 0xFF &&& byte.toNat = byte.toNat
    rw [Nat.and_comm]
    exact Nat.and_two_pow_sub_one_of_lt_two_pow (n := 8) byte.toNat_lt
  simp only [dumpEscapedFrom, hstate, hcodep, if_true, escapeByte, if_pos h]
  rw [dumpEscapedFrom_accept]

theorem forms_not_ascii : ∀ form ∈ Coding.Utf8.forms.tail, ∀ range ∈ form, 0x7F < range.1 := by
  have hall : (Coding.Utf8.forms.tail.all fun form =>
    form.all fun range => 0x7F < range.1) = true := by decide
  simpa only [List.all_eq_true, decide_eq_true_eq] using hall

theorem escaped_of_form {form : List (UInt8 × UInt8)} {bytes : Bytes}
    (hform : ∀ range ∈ form, 0x7F < range.1) (hbytes : Coding.Utf8.Matches form bytes) :
    escaped bytes = bytes := by
  induction hbytes with
  | nil => rfl
  | @cons range byte form bytes hbyte _ ih =>
    have hlt : ¬ byte ≤ 0x7F :=
      UInt8.not_le.2 (UInt8.lt_of_lt_of_le (hform range (List.mem_cons_self ..)) hbyte.1)
    have htail := ih fun r hr => hform r (List.mem_cons_of_mem _ hr)
    rw [escaped] at htail ⊢
    rw [List.flatMap_cons, htail, escapeByte, if_neg hlt]
    rfl

/-- A UTF-8 string is written, byte by byte. -/
theorem dumpEscaped_eq {s : Bytes} (h : Coding.Utf8 s) : dumpEscaped s = .ok (escaped s) := by
  unfold dumpEscaped
  induction h with
  | nil => rfl
  | @codePoint form bytes rest hform hbytes _ ih =>
    rw [escaped, List.flatMap_append]
    rcases List.mem_cons.1 hform with rfl | htail
    · cases hbytes with
      | @cons _ byte _ _ hbyte hnil =>
        cases hnil
        rw [List.singleton_append, dumpEscapedFrom_ascii hbyte.2, ih, List.flatMap_singleton]
        rfl
    · have hpath : path utf8Accept form = true := path_of_forms form htail
      rw [dumpEscapedFrom_path hpath hbytes (Or.inl rfl), ih]
      have hcopy := escaped_of_form (forms_not_ascii form htail) hbytes
      rw [escaped] at hcopy
      rw [hcopy]
      rfl

/-- The byte a word stands for. -/
def unescape : Bytes → Nat
  | [byte] => byte.toNat
  | [_, letter] =>
    if letter = 0x62 then 0x08 else if letter = 0x74 then 0x09 else if letter = 0x6E then 0x0A
    else if letter = 0x66 then 0x0C else if letter = 0x72 then 0x0D else letter.toNat
  | [_, _, _, _, high, low] =>
    (high.toNat - 0x30) * 16 + (if low < 0x3A then low.toNat - 0x30 else low.toNat - 0x57)
  | _ => 0

/-- How long the word is that a text begins with. -/
def wordLength : Bytes → Nat
  | [] => 0
  | first :: rest => if first ≠ 0x5C then 1 else if rest.head? = some 0x75 then 6 else 2

theorem unescape_escapeByte : ∀ n < 256, unescape (escapeByte (UInt8.ofNat n)) = n := by
  decide +kernel

/-- A word of one byte is no reverse solidus; one of six begins as such; all others have two
bytes of which the second is no `u`. -/
theorem escapeByte_shape : ∀ n < 256, escapeByte (UInt8.ofNat n) ≠ [] ∧
    wordLength (escapeByte (UInt8.ofNat n)) = (escapeByte (UInt8.ofNat n)).length ∧
    (escapeByte (UInt8.ofNat n)).head? ≠ some 0x22 ∧ 0x0A ∉ escapeByte (UInt8.ofNat n) := by
  decide +kernel

theorem escapeByte_injective {byte byte' : UInt8} (h : escapeByte byte = escapeByte byte') :
    byte = byte' := by
  have hbyte := unescape_escapeByte byte.toNat byte.toNat_lt
  have hbyte' := unescape_escapeByte byte'.toNat byte'.toNat_lt
  rw [UInt8.ofNat_toNat] at hbyte hbyte'
  rw [h, hbyte'] at hbyte
  exact UInt8.toNat_inj.1 hbyte.symm

theorem escapeByte_spec (byte : UInt8) : escapeByte byte ≠ [] ∧
    wordLength (escapeByte byte) = (escapeByte byte).length ∧
    (escapeByte byte).head? ≠ some 0x22 ∧ 0x0A ∉ escapeByte byte := by
  have h := escapeByte_shape byte.toNat byte.toNat_lt
  rwa [UInt8.ofNat_toNat] at h

/-- What follows a word does not change what is read of its length. -/
theorem wordLength_append {word : Bytes} (hne : word ≠ [])
    (hlength : wordLength word = word.length) (rest : Bytes) :
    wordLength (word ++ rest) = word.length := by
  cases word with
  | nil => exact absurd rfl hne
  | cons first word =>
    rw [← hlength, List.cons_append, wordLength, wordLength]
    cases word with
    | nil =>
      by_cases hfirst : first ≠ 0x5C
      · rw [if_pos hfirst, if_pos hfirst]
      · rw [wordLength, if_neg hfirst] at hlength
        cases hlength
    | cons second word => rfl

theorem reads_escapeByte (byte : UInt8) :
    Coding.Reads escapeByte (fun _ => True) (fun _ => True) byte :=
  Coding.reads_of_length
    (fun a _ r _ => wordLength_append (escapeByte_spec a).1 (escapeByte_spec a).2.1 r)
    (fun _ _ _ _ h => escapeByte_injective h) trivial

/-- A quoted string, without the opening quotation mark, ends where it ends. -/
theorem reads_escaped (s : Bytes) :
    Coding.Reads (fun s => escaped s ++ [0x22]) (fun _ => True) (fun _ => True) s := by
  refine (Coding.reads_flatMap reads_escapeByte (fun a => (escapeByte_spec a).1)
    (fun a r h => ?_) s).mono (fun _ _ _ _ => trivial) fun _ h => h
  exact (escapeByte_spec a).2.2.1 (by rw [h]; rfl)

theorem newline_notMem_escaped (s : Bytes) : 0x0A ∉ escaped s := by
  intro h
  obtain ⟨byte, -, hbyte⟩ := List.mem_flatMap.1 h
  exact (escapeByte_spec byte).2.2.2 hbyte

end Json
end SamuraiKirby
