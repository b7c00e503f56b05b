/-
Texts with quoted parts.

A quotation mark opens a part and the next one closes it.  Inside, an escape mark takes
the symbol behind it along, whatever it is.  Outside there is no escape mark.

A text can be entered in the middle.  A reader who starts there as if it were outside is
at the same place as the text from the first symbol on, or always inside where the text is
outside and outside where the text is inside (`agree_or_opposite`).
-/
namespace Coding

universe u

/-- Where in a text with quoted parts a symbol stands. -/
inductive Place where
  | outside
  | inside
  /-- behind an escape mark -/
  | escaped
deriving DecidableEq

/-- The marks, and the symbols that may stand outside and inside. -/
structure Quoting (α : Type u) where
  quote : α
  escape : α
  plain : α → Prop
  inner : α → Prop
  not_plain_escape : ¬ plain escape

namespace Quoting

variable {α : Type u} [DecidableEq α] (q : Quoting α)

def next : Place → α → Place
  | .outside, a => if a = q.quote then .inside else .outside
  | .inside, a => if a = q.quote then .outside else if a = q.escape then .escaped else .inside
  | .escaped, _ => .inside

/-- The place behind a text. -/
def behind (place : Place) (text : List α) : Place := text.foldl q.next place

/-- The symbols outside the quoted parts. -/
def unquoted : Place → List α → List α
  | _, [] => []
  | place, a :: text =>
    if place = .outside ∧ a ≠ q.quote then a :: unquoted (q.next place a) text
    else unquoted (q.next place a) text

def allowed (place : Place) (a : α) : Prop := if place = .outside then q.plain a else q.inner a

/-- Each symbol may stand where it stands. -/
def Proper : Place → List α → Prop
  | _, [] => True
  | place, a :: text => q.allowed place a ∧ Proper (q.next place a) text

/-- A text that leads from one place to another, and what is outside on the way. -/
structure Leads (place : Place) (text : List α) (place' : Place) (outer : List α) : Prop where
  proper : q.Proper place text
  behind : q.behind place text = place'
  unquoted : q.unquoted place text = outer

variable {q} {place place' place'' : Place} {text text' outer outer' : List α} {a : α}

@[simp] theorem behind_nil (place : Place) : q.behind place [] = place := rfl

@[simp] theorem behind_cons (place : Place) (a : α) (text : List α) :
    q.behind place (a :: text) = q.behind (q.next place a) text := rfl

theorem behind_append (place : Place) (text text' : List α) :
    q.behind place (text ++ text') = q.behind (q.behind place text) text' :=
  List.foldl_append

theorem unquoted_append (place : Place) (text text' : List α) :
    q.unquoted place (text ++ text') =
      q.unquoted place text ++ q.unquoted (q.behind place text) text' := by
  induction text generalizing place with
  | nil => rfl
  | cons a text ih =>
    by_cases h : place = .outside ∧ a ≠ q.quote
    · simp only [List.cons_append, unquoted, if_pos h, ih, behind_cons]
    · simp only [List.cons_append, unquoted, if_neg h, ih, behind_cons]

theorem proper_append :
    q.Proper place (text ++ text') ↔
      q.Proper place text ∧ q.Proper (q.behind place text) text' := by
  induction text generalizing place with
  | nil => simp [Proper]
  | cons a text ih => simp only [List.cons_append, Proper, ih, behind_cons, and_assoc]

/-! ## Ways through a text -/

theorem Leads.nil (place : Place) : q.Leads place [] place [] := ⟨trivial, rfl, rfl⟩

theorem Leads.append (h : q.Leads place text place' outer)
    (h' : q.Leads place' text' place'' outer') :
    q.Leads place (text ++ text') place'' (outer ++ outer') where
  proper := proper_append.2 ⟨h.proper, h.behind.symm ▸ h'.proper⟩
  behind := by rw [behind_append, h.behind, h'.behind]
  unquoted := by rw [unquoted_append, h.unquoted, h.behind, h'.unquoted]

theorem leads_plain (h : ∀ a ∈ text, q.plain a ∧ a ≠ q.quote) :
    q.Leads .outside text .outside text := by
  induction text with
  | nil => exact Leads.nil _
  | cons a text ih =>
    obtain ⟨hplain, hquote⟩ := h a (List.mem_cons_self ..)
    have hnext : q.next .outside a = .outside := if_neg hquote
    have hrest := ih fun b hb => h b (List.mem_cons_of_mem _ hb)
    refine ⟨⟨hplain, ?_⟩, ?_, ?_⟩
    · rw [hnext]
      exact hrest.proper
    · rw [behind_cons, hnext, hrest.behind]
    · rw [Quoting.unquoted, if_pos ⟨rfl, hquote⟩, hnext, hrest.unquoted]

theorem leads_inner (h : ∀ a ∈ text, q.inner a ∧ a ≠ q.quote ∧ a ≠ q.escape) :
    q.Leads .inside text .inside [] := by
  induction text with
  | nil => exact Leads.nil _
  | cons a text ih =>
    obtain ⟨hinner, hquote, hescape⟩ := h a (List.mem_cons_self ..)
    have hnext : q.next .inside a = .inside := by rw [next, if_neg hquote, if_neg hescape]
    have hrest := ih fun b hb => h b (List.mem_cons_of_mem _ hb)
    refine ⟨⟨hinner, ?_⟩, ?_, ?_⟩
    · rw [hnext]
      exact hrest.proper
    · rw [behind_cons, hnext, hrest.behind]
    · rw [Quoting.unquoted, if_neg nofun, hnext, hrest.unquoted]

theorem leads_open (h : q.plain q.quote) : q.Leads .outside [q.quote] .inside [] :=
  ⟨⟨h, trivial⟩, if_pos rfl, if_neg fun hne => hne.2 rfl⟩

theorem leads_close (h : q.inner q.quote) : q.Leads .inside [q.quote] .outside [] :=
  ⟨⟨h, trivial⟩, if_pos rfl, if_neg nofun⟩

theorem leads_escape (h : q.inner q.escape) (hne : q.escape ≠ q.quote) :
    q.Leads .inside [q.escape] .escaped [] :=
  ⟨⟨h, trivial⟩, (if_neg hne).trans (if_pos rfl), if_neg nofun⟩

theorem leads_escaped (h : q.inner a) : q.Leads .escaped [a] .inside [] :=
  ⟨⟨h, trivial⟩, rfl, if_neg nofun⟩

/-! ## Texts entered in the middle -/

/-- One place is outside, the other inside. -/
def Opposite (place place' : Place) : Prop :=
  place = .outside ∧ place' = .inside ∨ place = .inside ∧ place' = .outside

theorem Opposite.symm (h : Opposite place place') : Opposite place' place :=
  Or.symm (h.imp And.symm And.symm)

theorem opposite_next (ha : q.allowed .outside a) :
    Opposite (q.next .outside a) (q.next .inside a) := by
  have hescape : a ≠ q.escape := by
    rintro rfl
    exact q.not_plain_escape ha
  by_cases hquote : a = q.quote
  · exact Or.inr ⟨if_pos hquote, if_pos hquote⟩
  · exact Or.inl ⟨if_neg hquote, (if_neg hquote).trans (if_neg hescape)⟩

/-- Opposite places stay opposite. -/
theorem opposite_behind (h : Opposite place place') (hproper : q.Proper place text)
    (hproper' : q.Proper place' text) : Opposite (q.behind place text) (q.behind place' text) := by
  induction text generalizing place place' with
  | nil => exact h
  | cons a text ih =>
    refine ih ?_ hproper.2 hproper'.2
    rcases h with ⟨rfl, rfl⟩ | ⟨rfl, rfl⟩
    · exact opposite_next hproper.1
    · exact (opposite_next hproper'.1).symm

/-- Who enters a text as if it were outside finds what is outside, or what is inside. -/
theorem agree_or_opposite (hne : text ≠ []) (hproper : q.Proper .outside text)
    (hproper' : q.Proper place text) :
    q.behind .outside text = q.behind place text ∧
        q.unquoted .outside text = q.unquoted place text ∨
      Opposite (q.behind .outside text) (q.behind place text) := by
  cases place with
  | outside => exact Or.inl ⟨rfl, rfl⟩
  | inside => exact Or.inr (opposite_behind (Or.inl ⟨rfl, rfl⟩) hproper hproper')
  | escaped =>
    obtain ⟨a, text, rfl⟩ := List.exists_cons_of_ne_nil hne
    by_cases ha : a = q.quote
    · -- the mark was escaped, but is taken for one that opens a part
      have hnext : q.next .outside a = q.next .escaped a := if_pos ha
      refine Or.inl ⟨?_, ?_⟩
      · rw [behind_cons, behind_cons, hnext]
      · rw [unquoted, unquoted, if_neg fun h => h.2 ha, if_neg nofun, hnext]
    · have hnext : q.next .outside a = .outside := if_neg ha
      rw [behind_cons, behind_cons]
      exact Or.inr (opposite_behind (Or.inl ⟨hnext, rfl⟩) hproper.2 hproper'.2)

end Quoting
end Coding
