/-
Encodings that can be read back off the front of a text.

`Reads encode S follows a` says that the text of `a`, with something behind it,
is the text of no other value of `S` with something behind it.  What may come
behind a text is a parameter: a bracketed text can be followed by anything, a
number only by what is no digit.

The rules build such encodings from others: words that tell their own length,
tokens that end where their symbols end, words in a row up to an end mark, and
encodings in a row with a separator in between.
-/
import Mathlib.Data.List.TakeWhile

namespace Coding

universe u v

variable {α : Type u} {β : Type v}

/-- What was written for `a` can only be read as `a`, and the reading stops at its end. -/
def Reads (encode : α → List β) (S : α → Prop) (follows : List β → Prop) (a : α) : Prop :=
  ∀ b r r', S b → follows r → follows r' → encode a ++ r = encode b ++ r' → a = b ∧ r = r'

variable {encode : α → List β} {S : α → Prop} {follows : List β → Prop} {a b : α}

theorem Reads.mono {S' : α → Prop} {follows' : List β → Prop} (h : Reads encode S follows a)
    (hS : ∀ b, S' b → S b) (hfollows : ∀ r, follows' r → follows r) :
    Reads encode S' follows' a :=
  fun b r r' hb hr hr' heq => h b r r' (hS b hb) (hfollows r hr) (hfollows r' hr') heq

/-- Alone, a text belongs to one value. -/
theorem Reads.eq_of_eq (h : Reads encode S follows a) (hb : S b) (hnil : follows [])
    (heq : encode a = encode b) : a = b :=
  (h b [] [] hb hnil hnil (by rw [heq])).1

/-! ## Words that tell their own length -/

/-- The length of a word can be told from any text it begins. -/
theorem reads_of_length {length : List β → Nat}
    (hlength : ∀ a, S a → ∀ r, follows r → length (encode a ++ r) = (encode a).length)
    (hinj : ∀ a b, S a → S b → encode a = encode b → a = b) (ha : S a) :
    Reads encode S follows a := by
  intro b r r' hb hr hr' heq
  have hsame : (encode a).length = (encode b).length := by
    rw [← hlength a ha r hr, heq, hlength b hb r' hr']
  obtain ⟨hword, hrest⟩ := List.append_inj heq hsame
  exact ⟨hinj a b ha hb hword, hrest⟩

/-- A token goes on as long as its symbols do. -/
theorem reads_of_token {symbol : β → Bool} (htoken : ∀ a, S a → ∀ x ∈ encode a, symbol x = true)
    (hinj : ∀ a b, S a → S b → encode a = encode b → a = b) (ha : S a) :
    Reads encode S (fun r => ∀ x ∈ r.head?, symbol x = false) a := by
  refine @reads_of_length _ _ _ _ _ _ (fun text => (text.takeWhile symbol).length)
    (fun a ha r hr => ?_) hinj ha
  have hstop : r.takeWhile symbol = [] := by
    cases r with
    | nil => rfl
    | cons x r => rw [List.takeWhile_cons_of_neg (by rw [hr x rfl]; exact Bool.false_ne_true)]
  rw [List.takeWhile_append_of_pos (htoken a ha), hstop, List.append_nil]

/-! ## Words in a row -/

/-- Words in a row, up to a mark that begins none of them. -/
theorem reads_flatMap {stop : β} (hwords : ∀ a, Reads encode S (fun _ => True) a)
    (hne : ∀ a, encode a ≠ []) (hstop : ∀ a r, encode a ≠ stop :: r) (l : List α) :
    Reads (fun l => l.flatMap encode ++ [stop]) (fun l => ∀ a ∈ l, S a) (fun _ => True) l := by
  intro l' r r' hl' _ _ heq
  simp only [List.append_assoc, List.singleton_append] at heq
  -- a word is not mistaken for the end
  have hend : ∀ a l r r', stop :: r ≠ (a :: l).flatMap encode ++ r' := by
    intro a l r r' h
    obtain ⟨x, word, hword⟩ := List.exists_cons_of_ne_nil (hne a)
    rw [List.flatMap_cons, hword, List.cons_append, List.cons_append] at h
    exact hstop a word ((List.cons.inj h).1 ▸ hword)
  induction l generalizing l' with
  | nil =>
    cases l' with
    | nil => exact ⟨rfl, (List.cons.inj heq).2⟩
    | cons b l' => exact absurd heq (hend b l' r _)
  | cons a l ih =>
    cases l' with
    | nil => exact absurd heq.symm (hend a l r' _)
    | cons b l' =>
      rw [List.flatMap_cons, List.flatMap_cons, List.append_assoc, List.append_assoc] at heq
      obtain ⟨rfl, hrest⟩ := hwords a b _ _ (hl' b (List.mem_cons_self ..)) trivial trivial heq
      obtain ⟨rfl, hr⟩ := ih l' (fun c hc => hl' c (List.mem_cons_of_mem _ hc)) hrest
      exact ⟨rfl, hr⟩

/-! ## Encodings with a separator in between -/

/-- The texts of the values with the separator between any two. -/
def separated (separator : β) (encode : α → List β) : List α → List β
  | [] => []
  | a :: l => encode a ++ l.flatMap fun b => separator :: encode b

@[simp] theorem separated_nil (separator : β) (encode : α → List β) :
    separated separator encode [] = [] := rfl

@[simp] theorem separated_singleton (separator : β) (encode : α → List β) (a : α) :
    separated separator encode [a] = encode a := by
  simp [separated]

@[simp] theorem separated_cons_cons (separator : β) (encode : α → List β) (a b : α) (l : List α) :
    separated separator encode (a :: b :: l) =
      encode a ++ separator :: separated separator encode (b :: l) := by
  simp [separated]

section Separated

variable {separator stop : β}

/-- What comes behind a value is a separator or the mark. -/
theorem follows_separated (hseparator : ∀ r, follows (separator :: r))
    (hstop : ∀ r, follows (stop :: r)) (l : List α) (r : List β) :
    follows ((l.flatMap fun b => separator :: encode b) ++ stop :: r) := by
  cases l with
  | nil => exact hstop r
  | cons b l =>
    rw [List.flatMap_cons, List.cons_append, List.cons_append]
    exact hseparator _

/-- The values behind the first one, each after a separator. -/
theorem reads_behind_first (hne : separator ≠ stop) {l : List α}
    (hreads : ∀ a ∈ l, Reads encode S follows a) (hseparator : ∀ r, follows (separator :: r))
    (hstop : ∀ r, follows (stop :: r)) :
    Reads (fun l => (l.flatMap fun a => separator :: encode a) ++ [stop]) (fun l => ∀ a ∈ l, S a)
      (fun _ => True) l := by
  intro l' r r' hl' _ _ heq
  simp only [List.append_assoc, List.singleton_append] at heq
  induction l generalizing l' with
  | nil =>
    cases l' with
    | nil => exact ⟨rfl, (List.cons.inj heq).2⟩
    | cons b l' => exact absurd (List.cons.inj heq).1.symm hne
  | cons a l ih =>
    cases l' with
    | nil => exact absurd (List.cons.inj heq).1 hne
    | cons b l' =>
      simp only [List.flatMap_cons, List.cons_append, List.append_assoc, List.cons.injEq,
        true_and] at heq
      obtain ⟨rfl, hrest⟩ := hreads a (List.mem_cons_self ..) b _ _ (hl' b (List.mem_cons_self ..))
        (follows_separated hseparator hstop l r) (follows_separated hseparator hstop l' r') heq
      obtain ⟨rfl, hr⟩ := ih (fun c hc => hreads c (List.mem_cons_of_mem _ hc)) l'
        (fun c hc => hl' c (List.mem_cons_of_mem _ hc)) hrest
      exact ⟨rfl, hr⟩

/-- Values with a separator in between, up to a mark.  Each text may be followed by the
separator and by the mark, and none begins with the mark. -/
theorem reads_separated (hne : separator ≠ stop) {l : List α}
    (hreads : ∀ a ∈ l, Reads encode S follows a) (hseparator : ∀ r, follows (separator :: r))
    (hstop : ∀ r, follows (stop :: r)) (hhead : ∀ a, S a → ∀ r r', encode a ++ r ≠ stop :: r')
    (hl : ∀ a ∈ l, S a) :
    Reads (fun l => separated separator encode l ++ [stop]) (fun l => ∀ a ∈ l, S a)
      (fun _ => True) l := by
  intro l' r r' hl' _ _ heq
  simp only [List.append_assoc, List.singleton_append] at heq
  cases l with
  | nil =>
    cases l' with
    | nil => exact ⟨rfl, (List.cons.inj heq).2⟩
    | cons b l' =>
      rw [separated_nil, List.nil_append, separated, List.append_assoc] at heq
      exact absurd heq.symm (hhead b (hl' b (List.mem_cons_self ..)) _ _)
  | cons a l =>
    cases l' with
    | nil =>
      rw [separated_nil, List.nil_append, separated, List.append_assoc] at heq
      exact absurd heq (hhead a (hl a (List.mem_cons_self ..)) _ _)
    | cons b l' =>
      rw [separated, separated, List.append_assoc, List.append_assoc] at heq
      obtain ⟨rfl, hrest⟩ := hreads a (List.mem_cons_self ..) b _ _ (hl' b (List.mem_cons_self ..))
        (follows_separated hseparator hstop l r) (follows_separated hseparator hstop l' r') heq
      obtain ⟨rfl, hr⟩ := reads_behind_first hne (fun c hc => hreads c (List.mem_cons_of_mem _ hc))
        hseparator hstop l' r r' (fun c hc => hl' c (List.mem_cons_of_mem _ hc)) trivial trivial
        (by simpa using hrest)
      exact ⟨rfl, hr⟩

end Separated

/-! ## Lines -/

/-- Texts without the mark, each ended by it, are what lies between the marks. -/
theorem splitOn_flatMap [DecidableEq β] {stop : β} {texts : List (List β)}
    (h : ∀ text ∈ texts, stop ∉ text) :
    (texts.flatMap (· ++ [stop])).splitOn stop = texts ++ [[]] := by
  induction texts with
  | nil => rfl
  | cons text texts ih =>
    rw [List.flatMap_cons, List.append_assoc, List.singleton_append,
      List.splitOn_append_cons_self_of_not_mem (h text (List.mem_cons_self ..)),
      ih fun t ht => h t (List.mem_cons_of_mem _ ht), List.cons_append]

/-- Who has seen a part of the stream has seen some of the texts whole, in order, and none that
was not there. -/
theorem dropLast_splitOn [DecidableEq β] {stop : β} {texts : List (List β)} {seen : List β}
    (h : ∀ text ∈ texts, stop ∉ text) (hseen : seen <+: texts.flatMap (· ++ [stop])) :
    (seen.splitOn stop).dropLast <+: texts := by
  induction texts generalizing seen with
  | nil =>
    rw [List.prefix_nil.1 hseen]
    exact List.nil_prefix
  | cons text texts ih =>
    have hnone : stop ∉ text := h text (List.mem_cons_self ..)
    rw [List.flatMap_cons] at hseen
    rcases List.prefix_or_prefix_of_prefix hseen (List.prefix_append (text ++ [stop]) _) with
      hshort | ⟨rest, rfl⟩
    · rcases List.prefix_concat_iff.1 hshort with rfl | hshort
      · rw [List.splitOn_append_cons_self_of_not_mem hnone]
        exact List.cons_prefix_cons.2 ⟨rfl, List.nil_prefix⟩
      · rw [List.splitOn_eq_singleton fun hstop => hnone (hshort.subset hstop)]
        exact List.nil_prefix
    · have hrest : rest <+: texts.flatMap (· ++ [stop]) :=
        (List.prefix_append_right_inj _).1 hseen
      rw [List.append_assoc, List.singleton_append,
        List.splitOn_append_cons_self_of_not_mem hnone,
        List.dropLast_cons_of_ne_nil (List.splitOn_ne_nil _ _)]
      exact List.cons_prefix_cons.2
        ⟨rfl, ih (fun t ht => h t (List.mem_cons_of_mem _ ht)) hrest⟩

end Coding
