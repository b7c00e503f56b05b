/-
Well-formed UTF-8.

A code point is encoded in one to four bytes, and `forms` lists the ranges these
bytes come from.  The ranges of the second byte leave out what could be encoded
shorter, the surrogates, and what lies behind the last code point.
-/
import Mathlib.Data.List.Forall2

namespace Coding

/-- The ranges of the bytes of one code point. -/
def Utf8.forms : List (List (UInt8 × UInt8)) :=
  [[(0x00, 0x7F)],
    [(0xC2, 0xDF), (0x80, 0xBF)],
    [(0xE0, 0xE0), (0xA0, 0xBF), (0x80, 0xBF)],
    [(0xE1, 0xEC), (0x80, 0xBF), (0x80, 0xBF)],
    [(0xED, 0xED), (0x80, 0x9F), (0x80, 0xBF)],
    [(0xEE, 0xEF), (0x80, 0xBF), (0x80, 0xBF)],
    [(0xF0, 0xF0), (0x90, 0xBF), (0x80, 0xBF), (0x80, 0xBF)],
    [(0xF1, 0xF3), (0x80, 0xBF), (0x80, 0xBF), (0x80, 0xBF)],
    [(0xF4, 0xF4), (0x80, 0x8F), (0x80, 0xBF), (0x80, 0xBF)]]

/-- Each byte lies in the range at its place. -/
def Utf8.Matches (form : List (UInt8 × UInt8)) (bytes : List UInt8) : Prop :=
  List.Forall₂ (fun range byte => range.1 ≤ byte ∧ byte ≤ range.2) form bytes

/-- The bytes encode code points, one after the other. -/
inductive Utf8 : List UInt8 → Prop where
  | nil : Utf8 []
  | codePoint {form : List (UInt8 × UInt8)} {bytes rest : List UInt8} (hform : form ∈ Utf8.forms)
      (hbytes : Utf8.Matches form bytes) (hrest : Utf8 rest) : Utf8 (bytes ++ rest)

theorem Utf8.of_form (form : List (UInt8 × UInt8)) {bytes : List UInt8} (hform : form ∈ forms)
    (hbytes : Matches form bytes) : Utf8 bytes := by
  have h := Utf8.codePoint hform hbytes .nil
  rwa [List.append_nil] at h

theorem Utf8.append {l l' : List UInt8} (h : Utf8 l) (h' : Utf8 l') : Utf8 (l ++ l') := by
  induction h with
  | nil => exact h'
  | codePoint hform hbytes _ ih =>
    rw [List.append_assoc]
    exact .codePoint hform hbytes ih

theorem Utf8.flatten {ls : List (List UInt8)} (h : ∀ l ∈ ls, Utf8 l) : Utf8 ls.flatten := by
  induction ls with
  | nil => exact .nil
  | cons l ls ih =>
    exact (h l (List.mem_cons_self ..)).append (ih fun l' hl' => h l' (List.mem_cons_of_mem _ hl'))

/-- ASCII is UTF-8. -/
theorem Utf8.of_ascii {l : List UInt8} (h : ∀ b ∈ l, b ≤ 0x7F) : Utf8 l := by
  induction l with
  | nil => exact .nil
  | cons b l ih =>
    have hb : Matches [(0x00, 0x7F)] [b] :=
      .cons ⟨UInt8.zero_le, h b (List.mem_cons_self ..)⟩ .nil
    exact .codePoint (List.mem_cons_self ..) hb (ih fun c hc => h c (List.mem_cons_of_mem _ hc))

end Coding
