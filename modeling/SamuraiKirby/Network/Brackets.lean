/-
The brackets of a text that is parsed.

Behind each token the parser has as many arrays and objects open as there were brackets
opened and not closed.  So the brackets of a text it accepts, those in strings left out,
are a Dyck word, and only the whole word is balanced (`dyckWord_of_parse`).

That is why no beginning and no end of an object is a value, and why nothing can come
behind one.  `acceptsOneValue_parse` shows that the parser does what the texts of a stream
are cut for.
-/
import SamuraiKirby.Network.Segmentation
import SamuraiKirby.Network.Words

namespace SamuraiKirby
namespace Json

open Coding DyckStep

variable {strtod : Bytes → Option Rat} {text' : Bytes} {json : Json} {stack : List Frame}
  {parsing parsing' : Parsing} {token : Token} {ts : List Token}

/-! ## Brackets of the tokens -/

/-- The arrays and objects that are open. -/
def Parsing.depth : Parsing → Nat
  | .value stack => stack.length
  | .arrayStart stack | .objectStart stack => stack.length + 1
  | .objectKey _ stack | .objectSeparator _ _ stack => stack.length + 1
  | .arrayEvaluation _ stack | .objectEvaluation _ stack => stack.length + 1
  | .finished _ => 0

/-- What a token does to the depth.  Behind it nothing is open only if the value is complete. -/
structure Opens (token : Token) (depth : Nat) (parsing' : Parsing) : Prop where
  counts : parsing'.depth + token.bracket?.toList.count .D =
    depth + token.bracket?.toList.count .U
  ground : parsing'.depth = 0 → ∃ json, parsing' = .finished json

theorem handleValue_opens {value : Json} {depth : Nat}
    (h : stack.length + token.bracket?.toList.count .D =
      depth + token.bracket?.toList.count .U) : Opens token depth (handleValue value stack) := by
  have hdepth : (handleValue value stack).depth = stack.length := by
    cases stack with
    | nil => rfl
    | cons frame stack => cases frame <;> rfl
  refine ⟨hdepth.symm ▸ h, fun hzero => ⟨value, ?_⟩⟩
  rw [hdepth, List.length_eq_zero_iff] at hzero
  rw [hzero, handleValue]

theorem startValue_opens (h : startValue stack token = some parsing) :
    Opens token stack.length parsing := by
  cases token with
  | valueFloat value =>
    obtain ⟨x, -, rfl⟩ := Option.map_eq_some_iff.1 h
    exact handleValue_opens rfl
  | valueString | valueInteger | valueUnsigned | literalTrue | literalFalse | literalNull =>
    cases h
    exact handleValue_opens rfl
  | beginArray | beginObject =>
    cases h
    exact ⟨rfl, nofun⟩
  | endArray | endObject | nameSeparator | valueSeparator => cases h

theorem Parsing.step_opens (h : parsing.step token = some parsing') :
    Opens token parsing.depth parsing' := by
  unfold Parsing.step at h
  split at h
  · exact startValue_opens h
  · cases h
    exact handleValue_opens rfl
  · exact startValue_opens h
  · cases h
    exact handleValue_opens rfl
  · cases h
    exact ⟨rfl, nofun⟩
  · cases h
    exact ⟨rfl, nofun⟩
  · cases h
    exact ⟨rfl, nofun⟩
  · cases h
    exact ⟨rfl, nofun⟩
  · cases h
    exact handleValue_opens rfl
  · cases h
    exact ⟨rfl, nofun⟩
  · cases h
    exact handleValue_opens rfl
  · cases h

theorem foldlM_depth (h : ts.foldlM Parsing.step parsing = some parsing') :
    parsing'.depth + (ts.filterMap Token.bracket?).count .D =
      parsing.depth + (ts.filterMap Token.bracket?).count .U := by
  induction ts generalizing parsing with
  | nil =>
    cases h
    rfl
  | cons token ts ih =>
    rw [List.foldlM_cons, Option.bind_eq_bind, Option.bind_eq_some_iff] at h
    obtain ⟨next, hstep, hfold⟩ := h
    have hcount := (Parsing.step_opens hstep).counts
    have hrest := ih hfold
    rw [List.filterMap_eq_flatMap_toList] at hrest ⊢
    rw [List.flatMap_cons, List.count_append, List.count_append]
    omega

theorem foldlM_ground (hne : ts ≠ []) (h : ts.foldlM Parsing.step parsing = some parsing')
    (hdepth : parsing'.depth = 0) : ∃ json, parsing' = .finished json := by
  induction ts generalizing parsing with
  | nil => exact absurd rfl hne
  | cons token ts ih =>
    rw [List.foldlM_cons, Option.bind_eq_bind, Option.bind_eq_some_iff] at h
    obtain ⟨next, hstep, hfold⟩ := h
    cases ts with
    | nil =>
      cases hfold
      exact (Parsing.step_opens hstep).ground hdepth
    | cons token' ts => exact ih (List.cons_ne_nil _ _) hfold

/-- As long as tokens come, there is something open. -/
theorem depth_of_append {ts' : List Token} (hne : ts ≠ []) (hne' : ts' ≠ [])
    (h : (ts ++ ts').foldlM Parsing.step parsing = some parsing') :
    ∃ next, ts.foldlM Parsing.step parsing = some next ∧ 0 < next.depth := by
  rw [List.foldlM_append, Option.bind_eq_bind, Option.bind_eq_some_iff] at h
  obtain ⟨next, hfold, hrest⟩ := h
  refine ⟨next, hfold, Nat.pos_of_ne_zero fun hzero => ?_⟩
  obtain ⟨json, rfl⟩ := foldlM_ground hne hfold hzero
  obtain ⟨token, ts', rfl⟩ := List.exists_cons_of_ne_nil hne'
  cases hrest

theorem depth_start : (Parsing.value []).depth = 0 := rfl

/-- The first brackets of some tokens are the brackets of the first tokens. -/
theorem exists_front (ts : List Token) (i : Nat) : ∃ front behind, ts = front ++ behind ∧
    (ts.filterMap Token.bracket?).take i = front.filterMap Token.bracket? := by
  obtain ⟨front, ⟨behind, hsplit⟩, hfilter⟩ :=
    List.prefix_filterMap_iff.1 (List.take_prefix i (ts.filterMap Token.bracket?))
  exact ⟨front, behind, hsplit.symm, hfilter⟩

/-- No more brackets are closed than opened. -/
theorem count_take_le (h : ts.foldlM Parsing.step (.value []) = some parsing) (i : Nat) :
    ((ts.filterMap Token.bracket?).take i).count D ≤
      ((ts.filterMap Token.bracket?).take i).count U := by
  obtain ⟨front, behind, hsplit, hfilter⟩ := exists_front ts i
  rw [hsplit, List.foldlM_append, Option.bind_eq_bind, Option.bind_eq_some_iff] at h
  obtain ⟨next, hfold, -⟩ := h
  have hdepth := foldlM_depth hfold
  rw [depth_start] at hdepth
  rw [hfilter]
  omega

/-- In front of the last bracket more are opened than closed. -/
theorem count_take_lt (h : ts.foldlM Parsing.step (.value []) = some parsing) {i : Nat}
    (hpos : 0 < i) (hlt : i < (ts.filterMap Token.bracket?).length) :
    ((ts.filterMap Token.bracket?).take i).count D <
      ((ts.filterMap Token.bracket?).take i).count U := by
  obtain ⟨front, behind, hsplit, hfilter⟩ := exists_front ts i
  have hlength := congrArg List.length hfilter
  rw [List.length_take_of_le hlt.le] at hlength
  have hne : front ≠ [] := by
    rintro rfl
    exact absurd hlength hpos.ne'
  have hne' : behind ≠ [] := by
    rintro rfl
    rw [List.append_nil] at hsplit
    rw [← hsplit] at hlength
    exact absurd hlength hlt.ne
  rw [hsplit] at h
  obtain ⟨next, hfold, hdepth⟩ := depth_of_append hne hne' h
  have hcount := foldlM_depth hfold
  rw [depth_start] at hcount
  rw [hfilter]
  omega

/-- The brackets of the tokens of a value are a Dyck word, and no part of it is balanced. -/
theorem dyckWord_of_tokens (h : ts.foldlM Parsing.step (.value []) = some (.finished json)) :
    ∃ w : DyckWord, w.toList = ts.filterMap Token.bracket? ∧ (w = 0 ∨ w.IsNested) := by
  have htotal := foldlM_depth h
  have heq : (ts.filterMap Token.bracket?).count U = (ts.filterMap Token.bracket?).count D := by
    rw [depth_start, Parsing.depth] at htotal
    omega
  refine ⟨⟨ts.filterMap Token.bracket?, heq, count_take_le h⟩, rfl, ?_⟩
  by_cases hempty : ts.filterMap Token.bracket? = []
  · exact Or.inl (DyckWord.ext hempty)
  · refine Or.inr ⟨fun hzero => hempty (congrArg DyckWord.toList hzero), fun i hpos hlt => ?_⟩
    exact count_take_lt h hpos hlt

/-! ## Brackets of the text -/

/-- The text ends where the value does, or at a null byte behind it. -/
theorem dyckWord_of_parse (h : parse strtod text' = some json) :
    ∃ body tail, text' = body ++ tail ∧ (∀ c ∈ tail.head?, c = 0x00) ∧
      ∃ w : DyckWord, Crosses body w.toList ∧ (w = 0 ∨ w.IsNested) := by
  unfold parse at h
  simp only [Option.bind_eq_bind, Option.bind_eq_some_iff] at h
  obtain ⟨ts, hts, parsing, hfold, hresult⟩ := h
  cases parsing with
  | finished json' =>
    cases hresult
    obtain ⟨body, tail, hsplit, htail, hcrosses⟩ := tokens_word hts
    obtain ⟨w, hw, hnested⟩ := dyckWord_of_tokens hfold
    exact ⟨body, tail, hsplit, htail, w, hw.symm ▸ hcrosses, hnested⟩
  | _ => cases hresult

/-- The beginning of a text is in front of its end. -/
theorem prefix_of_noNull {p body tail : Bytes} (h : p <+: body ++ tail) (hnull : 0 ∉ p)
    (htail : ∀ c ∈ tail.head?, c = 0x00) : p <+: body := by
  rcases List.prefix_or_prefix_of_prefix h (List.prefix_append body tail) with hle | ⟨rest, rfl⟩
  · exact hle
  · rw [List.prefix_append_right_inj] at h
    cases rest with
    | nil => rw [List.append_nil]
    | cons c rest =>
      obtain ⟨left, rfl⟩ := h
      have hc : c = 0x00 := htail c rfl
      exact absurd (List.mem_append_right body (hc ▸ List.mem_cons_self ..)) hnull

/-- A beginning of an accepted text, up to any byte. -/
structure Beginning (p : Bytes) (w : DyckWord) : Prop where
  proper : quoting.Proper .outside p
  brackets : brackets .outside p <+: w.toList

theorem beginning_of_parse {p : Bytes} (h : parse strtod text' = some json) (hp : p <+: text')
    (hnull : 0 ∉ p) : ∃ w : DyckWord, (w = 0 ∨ w.IsNested) ∧ Beginning p w ∧
      (p = text' → Crosses p w.toList) := by
  obtain ⟨body, tail, rfl, htail, w, hcrosses, hnested⟩ := dyckWord_of_parse h
  obtain ⟨rest, rfl⟩ := prefix_of_noNull hp hnull htail
  have hproper := Quoting.proper_append.1 hcrosses.proper
  refine ⟨w, hnested, ⟨hproper.1, ?_⟩, fun heq => ?_⟩
  · rw [← hcrosses.brackets, brackets_append]
    exact List.prefix_append _ _
  · have hempty : rest = [] := by
      rw [List.append_assoc] at heq
      exact (List.append_eq_nil_iff.1 (List.self_eq_append_right.1 heq)).1
    rwa [hempty, List.append_nil] at hcrosses

theorem Beginning.count_le {p : Bytes} {w : DyckWord} (h : Beginning p w) :
    (Json.brackets .outside p).count D ≤ (Json.brackets .outside p).count U := by
  rw [List.prefix_iff_eq_take.1 h.brackets]
  exact w.count_D_le_count_U _

/-- Only the whole word is balanced. -/
theorem Beginning.count_lt {p : Bytes} {w : DyckWord} (h : Beginning p w)
    (hnested : w = 0 ∨ w.IsNested) (hne : Json.brackets .outside p ≠ [])
    (hne' : Json.brackets .outside p ≠ w.toList) :
    (Json.brackets .outside p).count D < (Json.brackets .outside p).count U := by
  have hw : w.IsNested := by
    refine hnested.resolve_left ?_
    rintro rfl
    exact hne (List.prefix_nil.1 h.brackets)
  have hlt : (Json.brackets .outside p).length < w.toList.length := by
    refine Nat.lt_of_le_of_ne h.brackets.length_le fun hlength => hne' ?_
    exact h.brackets.eq_of_length hlength
  have hcount := hw.2 (List.length_pos_iff.2 hne) hlt
  rwa [← List.prefix_iff_eq_take.1 h.brackets] at hcount

/-! ## Objects in a stream -/

variable {t x s w : Bytes}

theorem brackets_openBrace (l : Bytes) : ∃ steps, brackets .outside (openBrace :: l) = U :: steps :=
  ⟨brackets .outside l, rfl⟩

/-- A closing brace behind which the text is outside the strings is a bracket. -/
theorem brackets_closeBrace {place : Place}
    (h : quoting.behind place (s ++ [closeBrace]) = .outside) :
    ∃ steps, brackets place (s ++ [closeBrace]) = steps ++ [D] := by
  have hlast : ∀ p, quoting.next p closeBrace = .outside → p = .outside := by
    intro p hp
    cases p with
    | outside => rfl
    | inside => cases hp
    | escaped => cases hp
  rw [Quoting.behind_append] at h
  refine ⟨brackets place s, ?_⟩
  rw [brackets_append, hlast _ h]
  rfl

theorem crosses_of_blank (hw : Framing.Blank isSpace w) : Crosses w [] :=
  crosses_of_whitespace hw

theorem noNull_of_blank (hw : Framing.Blank isSpace w) : 0 ∉ w := by
  intro hmem
  cases hw 0 hmem

theorem brackets_blank (hw : Framing.Blank isSpace w) (l : Bytes) :
    brackets .outside (w ++ l) = brackets .outside l := by
  have hcrosses := crosses_of_blank hw
  rw [brackets_append, hcrosses.brackets, hcrosses.behind, List.nil_append]

theorem parse_blank (hw : Framing.Blank isSpace w) : parse strtod w = none := by
  have htokens : tokens strtod w = some [] := by
    have hsurrounded := @tokens_surrounded strtod [] [] w [] rfl (by decide) hw nofun
    rwa [List.append_nil, List.append_nil] at hsurrounded
  rw [parse, htokens]
  rfl

/-- In front of any place inside an object something is open. -/
structure Cut (x s : Bytes) : Prop where
  proper : quoting.Proper (quoting.behind .outside x) s
  behind : quoting.behind (quoting.behind .outside x) s = .outside
  count_lt : (brackets .outside x).count D < (brackets .outside x).count U
  balanced : (brackets .outside x).count U + (brackets (quoting.behind .outside x) s).count U =
    (brackets .outside x).count D + (brackets (quoting.behind .outside x) s).count D

theorem crosses_of_object (h : ObjectText (parse strtod) t) :
    ∃ w : DyckWord, (w = 0 ∨ w.IsNested) ∧ Crosses t w.toList := by
  obtain ⟨json, hjson⟩ := Option.isSome_iff_exists.1 h.parses
  obtain ⟨w, hnested, -, hcrosses⟩ := beginning_of_parse hjson List.prefix_rfl h.noNull
  exact ⟨w, hnested, hcrosses rfl⟩

theorem cut_of_object (h : ObjectText (parse strtod) t) (ht : x ++ s = t) (hx : x ≠ [])
    (hs : s ≠ []) : Cut x s := by
  obtain ⟨w, hnested, hcrosses⟩ := crosses_of_object h
  subst ht
  obtain ⟨hfront, hback⟩ := Quoting.proper_append.1 hcrosses.proper
  have hbehind := hcrosses.behind
  have hbrackets := hcrosses.brackets
  rw [Quoting.behind_append] at hbehind
  rw [brackets_append] at hbrackets
  have hopen : brackets .outside x ≠ [] := by
    obtain ⟨c, x', rfl⟩ := List.exists_cons_of_ne_nil hx
    have hc : c = openBrace := Option.some.inj h.opening
    obtain ⟨steps, hsteps⟩ := brackets_openBrace x'
    rw [hc, hsteps]
    exact List.cons_ne_nil _ _
  have hclose : brackets (quoting.behind .outside x) s ≠ [] := by
    obtain ⟨s', c, rfl⟩ := (List.eq_nil_or_concat' s).resolve_left hs
    have hlast := h.closing
    rw [← List.append_assoc, List.getLast?_concat] at hlast
    obtain rfl : c = closeBrace := Option.some.inj hlast
    obtain ⟨steps, hsteps⟩ := brackets_closeBrace hbehind
    rw [hsteps]
    exact List.append_ne_nil_of_right_ne_nil _ (List.cons_ne_nil _ _)
  refine ⟨hback, hbehind, ?_, ?_⟩
  · have hbeginning : Beginning x w := ⟨hfront, ⟨_, hbrackets⟩⟩
    refine hbeginning.count_lt hnested hopen fun heq => hclose ?_
    rw [← heq] at hbrackets
    exact List.self_eq_append_right.1 hbrackets.symm
  · rw [← List.count_append, ← List.count_append, hbrackets]
    exact w.count_U_eq_count_D

/-- White space leaves a string open, and no line ends in a string. -/
theorem inside_of_blank {g : Bytes} (hg : Framing.Blank isSpace g) :
    quoting.behind .inside g = .inside ∧ (quoting.Proper .inside g → newline ∉ g) := by
  induction g with
  | nil => exact ⟨rfl, fun _ => List.not_mem_nil⟩
  | cons c g ih =>
    have hnext : quoting.next .inside c = .inside := by
      rcases whitespace_cases (hg c (List.mem_cons_self ..)) with rfl | rfl | rfl | rfl <;> rfl
    have hrest := ih fun b hb => hg b (List.mem_cons_of_mem _ hb)
    refine ⟨by rw [Quoting.behind_cons, hnext, hrest.1], fun hproper hmem => ?_⟩
    obtain ⟨hc, hproper⟩ := hproper
    rw [hnext] at hproper
    rcases List.mem_cons.1 hmem with rfl | hmem
    · exact absurd (show (0x20 : UInt8) ≤ 0x0A from hc) (by decide)
    · exact hrest.2 hproper hmem

/-- No end of an object begins a value. -/
theorem parse_end_of_object {g l : Bytes} (ht : ObjectText (parse strtod) t) (hs : s <:+ t)
    (hne : s ≠ []) (hcut : s ≠ t) (hg : Framing.Blank isSpace g) (hl : l = [] ∨ newline ∈ g) :
    parse strtod (s ++ g ++ l) = none := by
  by_contra hsome
  obtain ⟨json, hjson⟩ := Option.ne_none_iff_exists'.1 hsome
  obtain ⟨x, hx⟩ := hs
  have hcutting : Cut x s := cut_of_object ht hx (fun h => hcut (by rw [← hx, h]; rfl)) hne
  have hnull : 0 ∉ s ++ g := by
    rw [List.mem_append]
    rintro (hmem | hmem)
    · exact ht.noNull (hx ▸ List.mem_append_right x hmem)
    · exact noNull_of_blank hg hmem
  obtain ⟨w, -, hbeginning, hwhole⟩ :=
    beginning_of_parse hjson (List.prefix_append (s ++ g) l) hnull
  obtain ⟨hproper, hproper'⟩ := Quoting.proper_append.1 hbeginning.proper
  rcases Quoting.agree_or_opposite hne hproper hcutting.proper with ⟨-, hagree⟩ | hopposite
  · -- the brackets of the end are those of the object, and too many of them close
    have hbrackets : brackets .outside s <+: w.toList := by
      have hle := hbeginning.brackets
      rw [brackets_append] at hle
      exact (List.prefix_append _ _).trans hle
    have hle := Beginning.count_le ⟨hproper, hbrackets⟩
    have hlt := hcutting.count_lt
    have hbalanced := hcutting.balanced
    rw [brackets, hagree, ← brackets] at hle
    omega
  · -- the last quotation mark opened a string
    rw [hcutting.behind] at hopposite
    have hinside : quoting.behind .outside s = .inside := by
      rcases hopposite with h | h
      · cases h.2
      · exact h.1
    rw [hinside] at hproper'
    obtain ⟨hopen, hline⟩ := inside_of_blank hg
    rcases hl with rfl | hl
    · have houtside := (hwhole (List.append_nil _).symm).behind
      rw [Quoting.behind_append, hinside, hopen] at houtside
      cases houtside
    · exact hline hproper' hl

/-- No beginning of an object is a value. -/
theorem parse_beginning_of_object {r : Bytes} (ht : ObjectText (parse strtod) t)
    (hw : Framing.Blank isSpace w) (hr : r <+: t) (hne : r ≠ t) : parse strtod (w ++ r) = none := by
  by_contra hsome
  obtain ⟨json, hjson⟩ := Option.ne_none_iff_exists'.1 hsome
  obtain ⟨s, hs⟩ := hr
  have hnull : 0 ∉ w ++ r := by
    rw [List.mem_append]
    rintro (hmem | hmem)
    · exact noNull_of_blank hw hmem
    · exact ht.noNull (hs ▸ List.mem_append_left s hmem)
  obtain ⟨d, -, -, hcrosses⟩ := beginning_of_parse hjson List.prefix_rfl hnull
  by_cases hempty : r = []
  · rw [hempty, List.append_nil, parse_blank hw] at hjson
    cases hjson
  · have hcut := cut_of_object ht hs hempty fun h => hne (by rw [← hs, h, List.append_nil])
    have hbrackets := (hcrosses rfl).brackets
    rw [brackets_blank hw] at hbrackets
    have hlt := hcut.count_lt
    rw [hbrackets] at hlt
    exact absurd d.count_U_eq_count_D hlt.ne'

/-- No object begins behind another one. -/
theorem parse_behind_object {g l : Bytes} (ht : ObjectText (parse strtod) t)
    (hw : Framing.Blank isSpace w) (hg : Framing.Blank isSpace g) :
    parse strtod (w ++ t ++ g ++ openBrace :: l) = none := by
  by_contra hsome
  obtain ⟨json, hjson⟩ := Option.ne_none_iff_exists'.1 hsome
  obtain ⟨d, -, ht'⟩ := crosses_of_object ht
  have hfront : Crosses (w ++ t) d.toList := (crosses_of_blank hw).append ht'
  have hopen : Crosses [openBrace] [U] :=
    @crosses_bare [openBrace] (forall_mem_of_all (by decide))
  have hall : Crosses (w ++ t ++ g ++ [openBrace]) (d.toList ++ [U]) := by
    have hcrosses := (hfront.append (crosses_of_blank hg)).append hopen
    rwa [List.append_nil] at hcrosses
  have hnull : 0 ∉ w ++ t ++ g ++ [openBrace] := by
    simp only [List.mem_append, not_or]
    exact ⟨⟨⟨noNull_of_blank hw, ht.noNull⟩, noNull_of_blank hg⟩, by decide⟩
  have hprefix : w ++ t ++ g ++ [openBrace] <+: w ++ t ++ g ++ openBrace :: l :=
    (List.prefix_append_right_inj _).2 ⟨l, rfl⟩
  obtain ⟨d', hnested, hbeginning, -⟩ := beginning_of_parse hjson hprefix hnull
  have hword : d.toList ++ [U] <+: d'.toList := hall.brackets ▸ hbeginning.brackets
  have hobject : Beginning (w ++ t) d' :=
    ⟨hfront.proper, hfront.brackets ▸ (List.prefix_append _ _).trans hword⟩
  have hlt := hobject.count_lt hnested ?_ ?_
  · rw [hfront.brackets] at hlt
    exact absurd d.count_U_eq_count_D hlt.ne'
  · -- the object has a bracket
    rw [brackets_blank hw]
    obtain ⟨c, t', rfl⟩ := List.exists_cons_of_ne_nil ht.solid.ne_nil
    obtain rfl : c = openBrace := Option.some.inj ht.opening
    obtain ⟨steps, hsteps⟩ := brackets_openBrace t'
    rw [hsteps]
    exact List.cons_ne_nil _ _
  · -- and there is one more behind it
    rw [hfront.brackets]
    intro heq
    have hlength := hword.length_le
    rw [← heq, List.length_append] at hlength
    exact absurd hlength (Nat.not_succ_le_self _)

/-- The parser takes one value with white space around it, and nothing else that is cut out of a
stream of objects. -/
theorem acceptsOneValue_parse (strtod : Bytes → Option Rat) :
    AcceptsOneValue (parse strtod) where
  surrounded {t w w'} ht hw hw' := by
    obtain ⟨json, hjson⟩ := Option.isSome_iff_exists.1 ht.parses
    have hfirst : t.head? ≠ some 0xEF := by
      rw [ht.opening]
      decide
    unfold parse at hjson ⊢
    simp only [Option.bind_eq_bind, Option.bind_eq_some_iff] at hjson
    obtain ⟨ts, hts, -⟩ := hjson
    rw [hts, tokens_surrounded hts hfirst hw hw']
  blank hw := parse_blank hw
  incomplete ht hw hr hne := parse_beginning_of_object ht hw hr hne
  followed ht hw hg := parse_behind_object ht hw hg
  remainder ht hs hne hcut hg hl := parse_end_of_object ht hs hne hcut hg hl

end Json
end SamuraiKirby
