/-
Taking items off the front of a text.

A scanner looks at a text and fails, says that this was the end, or gives an item
and what is left.  `scanAll` repeats it up to the end.  The repetitions are bounded
by the length of the text, which is no restriction for a scanner that always leaves
less than it was given (`scanAll_item`).
-/
namespace Coding

universe u v w

variable {α : Type u} {β : Type v}

def scanFor (scan : List β → Option (Option α × List β)) :
    Nat → List β → Option (List α × List β)
  | 0, _ => none
  | fuel + 1, text =>
    match scan text with
    | none => none
    | some (none, rest) => some ([], rest)
    | some (some item, rest) => (scanFor scan fuel rest).map fun r => (item :: r.1, r.2)

/-- The items of a text, and what is behind its end. -/
def scanAll (scan : List β → Option (Option α × List β)) (text : List β) :
    Option (List α × List β) :=
  scanFor scan (text.length + 1) text

/-- What is left behind an item is shorter. -/
def Shrinks (scan : List β → Option (Option α × List β)) : Prop :=
  ∀ text item rest, scan text = some (some item, rest) → rest.length < text.length

variable {scan : List β → Option (Option α × List β)} {text rest : List β} {item : α}
  {items : List α}

/-- More repetitions than there is text change nothing. -/
theorem scanFor_eq (h : Shrinks scan) {fuel fuel' : Nat} (hfuel : text.length < fuel)
    (hfuel' : text.length < fuel') : scanFor scan fuel text = scanFor scan fuel' text := by
  induction fuel generalizing fuel' text with
  | zero => omega
  | succ fuel ih =>
    cases fuel' with
    | zero => omega
    | succ fuel' =>
      rw [scanFor, scanFor]
      cases hscan : scan text with
      | none => rfl
      | some found =>
        obtain ⟨item?, rest⟩ := found
        cases item? with
        | none => rfl
        | some item =>
          have hlt := h text item rest hscan
          simp only
          rw [@ih rest fuel' (by omega) (by omega)]

theorem scanAll_end (hscan : scan text = some (none, rest)) :
    scanAll scan text = some ([], rest) := by
  rw [scanAll, scanFor, hscan]

theorem scanAll_item (h : Shrinks scan) (hscan : scan text = some (some item, rest)) :
    scanAll scan text = (scanAll scan rest).map fun r => (item :: r.1, r.2) := by
  have hlt := h text item rest hscan
  rw [scanAll, scanFor, hscan, scanAll]
  simp only
  rw [scanFor_eq h hlt (Nat.lt_succ_self _)]

/-- The items of a text depend on the text only through what is scanned of it first. -/
theorem scanAll_congr (h : Shrinks scan) {text' : List β} (heq : scan text = scan text') :
    scanAll scan text = scanAll scan text' := by
  cases hscan : scan text' with
  | none =>
    have hnone : ∀ t, scan t = none → scanAll scan t = none := fun t ht => by
      rw [scanAll, scanFor, ht]
    rw [hnone _ (heq.trans hscan), hnone _ hscan]
  | some found =>
    obtain ⟨item?, rest⟩ := found
    cases item? with
    | none => rw [scanAll_end (heq.trans hscan), scanAll_end hscan]
    | some item => rw [scanAll_item h (heq.trans hscan), scanAll_item h hscan]

/-- What holds at the end of a text, and of a text with one more item in front, holds of every
text that is scanned. -/
theorem scanAll_induct {motive : List β → List α → List β → Prop}
    (hend : ∀ text rest, scan text = some (none, rest) → motive text [] rest)
    (hitem : ∀ text item left items rest, scan text = some (some item, left) →
      motive left items rest → motive text (item :: items) rest)
    (hscan : scanAll scan text = some (items, rest)) : motive text items rest := by
  unfold scanAll at hscan
  generalize text.length + 1 = fuel at hscan
  induction fuel generalizing text items with
  | zero => cases hscan
  | succ fuel ih =>
    rw [scanFor] at hscan
    cases hfirst : scan text with
    | none =>
      rw [hfirst] at hscan
      cases hscan
    | some found =>
      obtain ⟨item?, left⟩ := found
      rw [hfirst] at hscan
      cases item? with
      | none =>
        cases hscan
        exact hend text rest hfirst
      | some item =>
        obtain ⟨⟨others, end'⟩, hothers, heq⟩ := Option.map_eq_some_iff.1 hscan
        cases heq
        exact hitem text item left others _ hfirst (ih hothers)

/-- What holds of every item that is scanned holds of all of them. -/
theorem scanAll_forall {P : α → Prop}
    (hitem : ∀ text item rest, scan text = some (some item, rest) → P item)
    (hscan : scanAll scan text = some (items, rest)) : ∀ item ∈ items, P item := by
  refine @scanAll_induct _ _ _ _ _ _ (fun _ items _ => ∀ item ∈ items, P item) ?_ ?_ hscan
  · exact fun _ _ _ _ hmem => absurd hmem List.not_mem_nil
  · intro text item left items rest hfirst ih item' hmem
    rcases List.mem_cons.1 hmem with rfl | hmem
    · exact hitem text item' left hfirst
    · exact ih item' hmem

/-- What is left is shorter than the text, if the end takes something off as well. -/
theorem scanAll_length (h : Shrinks scan)
    (hend : ∀ text rest, scan text = some (none, rest) → rest.length < text.length)
    (hscan : scanAll scan text = some (items, rest)) : rest.length < text.length := by
  refine @scanAll_induct _ _ _ _ _ _ (fun text _ rest => rest.length < text.length) hend ?_ hscan
  intro text item left items rest hfirst ih
  exact Nat.lt_trans ih (h text item left hfirst)

/-- What may be put behind every text that is scanned may be put behind the whole. -/
theorem scanAll_append {more : List β} (h : Shrinks scan)
    (hend : ∀ text rest, scan text = some (none, rest) →
      ∃ rest', scan (text ++ more) = some (none, rest'))
    (hitem : ∀ text item rest, scan text = some (some item, rest) →
      scan (text ++ more) = some (some item, rest ++ more))
    (hscan : scanAll scan text = some (items, rest)) :
    ∃ rest', scanAll scan (text ++ more) = some (items, rest') := by
  refine @scanAll_induct _ _ _ _ _ _
    (fun text items _ => ∃ rest', scanAll scan (text ++ more) = some (items, rest')) ?_ ?_ hscan
  · intro text rest hfirst
    obtain ⟨rest', hrest'⟩ := hend text rest hfirst
    exact ⟨rest', scanAll_end hrest'⟩
  · rintro text item left items rest hfirst ⟨rest', ih⟩
    exact ⟨rest', by rw [scanAll_item h (hitem text item left hfirst), ih]; rfl⟩

/-! ## Words at the front of a text -/

/-- What is scanned is a word at the front of the text, whatever is behind it. -/
def TakesWords {γ : Type w} (scan : List β → Option (γ × List β)) (P : γ → List β → Prop) : Prop :=
  ∀ text x rest, scan text = some (x, rest) →
    ∃ word, text = word ++ rest ∧ P x word ∧ ∀ more, scan (word ++ more) = some (x, more)

theorem TakesWords.append {γ : Type w} {scan : List β → Option (γ × List β)}
    {P : γ → List β → Prop} (h : TakesWords scan P) {x : γ} (hscan : scan text = some (x, rest))
    (more : List β) : scan (text ++ more) = some (x, rest ++ more) := by
  obtain ⟨word, rfl, -, hword⟩ := h text x rest hscan
  rw [List.append_assoc]
  exact hword _

/-- The words of the items and of the end make one word. -/
theorem TakesWords.scanAll {P : Option α → List β → Prop} {Q : List α → List β → Prop}
    (h : TakesWords scan P) (hshrinks : Shrinks scan) (hend : ∀ word, P none word → Q [] word)
    (hitem : ∀ item word items word', P (some item) word → Q items word' →
      Q (item :: items) (word ++ word')) : TakesWords (scanAll scan) Q := by
  intro text items rest hscan
  refine @scanAll_induct _ _ _ _ _ _ (fun text items rest => ∃ word, text = word ++ rest ∧
    Q items word ∧ ∀ more, Coding.scanAll scan (word ++ more) = some (items, more)) ?_ ?_ hscan
  · intro text rest hfirst
    obtain ⟨word, htext, hword, hmore⟩ := h text none rest hfirst
    exact ⟨word, htext, hend word hword, fun more => scanAll_end (hmore more)⟩
  · rintro text item left items rest hfirst ⟨word', rfl, hQ, hmore'⟩
    obtain ⟨word, rfl, hP, hmore⟩ := h text (some item) _ hfirst
    refine ⟨word ++ word', (List.append_assoc ..).symm, hitem _ _ _ _ hP hQ, fun more => ?_⟩
    rw [List.append_assoc, scanAll_item hshrinks (hmore _), hmore' more]
    rfl

end Coding
