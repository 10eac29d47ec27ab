import EventQuery.Proofs.Name.Characters
import Mathlib.Data.List.Basic

/-!
# EventQuery.Proofs.Name.Language

The language of the allow-list. A word is a letter followed by letters and digits, and a path is
words with `$` between them. A part of a name may end in a line feed, so what is accepted are not
words but lines, a word each with or without a line feed at its end (`isFlat_iff`,
`isProperty_iff`). Where a text holds no line feed the two are the same
(`isWord_iff_of_not_mem`, `joinedBy_isWord_iff`).
-/

namespace EventQuery
namespace Text

/-! ## Cutting and joining -/

theorem pieces_ne_nil (isMark : Char → Bool) (cs : List Char) : pieces isMark cs ≠ [] := by
  cases cs with
  | nil => simp [pieces]
  | cons c rest =>
    rw [pieces]
    split
    · simp
    · split <;> simp

/-- The pieces joined again are the text. -/
theorem intercalate_pieces (mark : Char) (cs : List Char) :
    [mark].intercalate (pieces (· == mark) cs) = cs := by
  induction cs with
  | nil => rfl
  | cons c rest ih =>
    obtain ⟨first, more, hpieces⟩ := List.exists_cons_of_ne_nil (pieces_ne_nil (· == mark) rest)
    rw [hpieces] at ih
    rw [pieces, hpieces]
    by_cases hc : c = mark
    · rw [if_pos (by simpa using hc), List.intercalate_cons_cons, ih, hc]
      rfl
    · rw [if_neg (by simpa using hc)]
      cases more with
      | nil => simpa using ih
      | cons second more =>
        rw [List.intercalate_cons_cons] at ih ⊢
        rw [← ih]
        rfl

theorem pieces_of_not_mem {mark : Char} {cs : List Char} (h : mark ∉ cs) :
    pieces (· == mark) cs = [cs] := by
  induction cs with
  | nil => rfl
  | cons c rest ih =>
    rw [List.mem_cons, not_or] at h
    rw [pieces, if_neg (by simpa using Ne.symm h.1), ih h.2]

theorem pieces_append {mark : Char} {piece : List Char} (h : mark ∉ piece) (rest : List Char) :
    pieces (· == mark) (piece ++ mark :: rest) = piece :: pieces (· == mark) rest := by
  induction piece with
  | nil => simp [pieces]
  | cons c piece ih =>
    rw [List.mem_cons, not_or] at h
    rw [List.cons_append, pieces, if_neg (by simpa using Ne.symm h.1), ih h.2]

/-- Pieces without the mark are found again in what they are joined to. -/
theorem pieces_intercalate {mark : Char} {ps : List (List Char)} (hne : ps ≠ [])
    (h : ∀ p ∈ ps, mark ∉ p) : pieces (· == mark) ([mark].intercalate ps) = ps := by
  induction ps with
  | nil => exact absurd rfl hne
  | cons p rest ih =>
    rw [List.forall_mem_cons] at h
    cases rest with
    | nil => simpa using pieces_of_not_mem h.1
    | cons q rest =>
      have hrest := ih (List.cons_ne_nil q rest) h.2
      rw [List.intercalate_cons_cons, List.append_assoc, List.singleton_append, pieces_append h.1,
        hrest]

end Text

namespace Name

/-! ## Words, lines and paths -/

/-- A letter, then letters and digits, and nothing else. -/
def IsWord (cs : List Char) : Prop :=
  ∃ c rest, cs = c :: rest ∧ isLetter c = true ∧ ∀ d ∈ rest, isLetterOrDigit d = true

/-- A word, or a word and a line feed. -/
def IsLine (cs : List Char) : Prop := IsWord cs ∨ ∃ word, IsWord word ∧ cs = word ++ ['\n']

/-- One text or more of a kind, joined by single `$`. -/
def JoinedBy (part : List Char → Prop) (cs : List Char) : Prop :=
  ∃ ps, ps ≠ [] ∧ (∀ p ∈ ps, part p) ∧ cs = ['$'].intercalate ps

theorem isTail_of_forall {cs : List Char} (h : ∀ c ∈ cs, isLetterOrDigit c = true) :
    isTail cs = true ∧ isTail (cs ++ ['\n']) = true := by
  induction cs with
  | nil => exact ⟨rfl, rfl⟩
  | cons c rest ih =>
    rw [List.forall_mem_cons] at h
    -- a letter or digit is no line feed, so only the last equation of `isTail` applies
    have hc : c ≠ '\n' := by
      rintro rfl
      exact absurd h.1 (by decide)
    simp [isTail, hc, h.1, ih h.2]

theorem forall_of_isTail {cs : List Char} (h : isTail cs = true) :
    (∀ c ∈ cs, isLetterOrDigit c = true) ∨
      ∃ start, cs = start ++ ['\n'] ∧ ∀ c ∈ start, isLetterOrDigit c = true := by
  induction cs with
  | nil => exact .inl (by simp)
  | cons c rest ih =>
    rw [isTail.eq_def] at h
    split at h
    · rename_i heq
      cases heq
    · rename_i heq
      cases heq
      exact .inr ⟨[], rfl, by simp⟩
    · rename_i heq
      cases heq
      rw [Bool.and_eq_true] at h
      rcases ih h.2 with hrest | ⟨start, rfl, hstart⟩
      · exact .inl (List.forall_mem_cons.mpr ⟨h.1, hrest⟩)
      · exact .inr ⟨c :: start, rfl, List.forall_mem_cons.mpr ⟨h.1, hstart⟩⟩

theorem isPart_iff (cs : List Char) : isPart cs = true ↔ IsLine cs := by
  constructor
  · intro h
    cases cs with
    | nil => cases h
    | cons c rest =>
      rw [isPart, Bool.and_eq_true] at h
      rcases forall_of_isTail h.2 with hrest | ⟨start, rfl, hstart⟩
      · exact .inl ⟨c, rest, rfl, h.1, hrest⟩
      · exact .inr ⟨c :: start, ⟨c, start, rfl, h.1, hstart⟩, rfl⟩
  · rintro (⟨c, rest, rfl, hc, hrest⟩ | ⟨_, ⟨c, rest, rfl, hc, hrest⟩, rfl⟩)
    · rw [isPart, hc, (isTail_of_forall hrest).1]
      rfl
    · rw [List.cons_append, isPart, hc, (isTail_of_forall hrest).2]
      rfl

theorem isFlat_iff (s : String) : isFlat s = true ↔ IsLine s.toList := isPart_iff s.toList

theorem not_mem_of_isLine {mark : Char} {cs : List Char} (h : IsLine cs)
    (hmark : isLetterOrDigit mark = false) (hfeed : mark ≠ '\n') : mark ∉ cs := by
  intro hmem
  rcases isPart_chars ((isPart_iff cs).mpr h) mark hmem with hc | hc
  · rw [hmark] at hc
    cases hc
  · exact hfeed hc

theorem pieces_of_isLine {ps : List (List Char)} (hne : ps ≠ []) (hps : ∀ p ∈ ps, IsLine p) :
    Text.pieces (· == '$') (['$'].intercalate ps) = ps :=
  Text.pieces_intercalate hne fun p hp => not_mem_of_isLine (hps p hp) (by decide) (by decide)

theorem isProperty_iff (s : String) : isProperty s = true ↔ JoinedBy IsLine s.toList := by
  rw [isProperty, parts, List.all_eq_true]
  constructor
  · intro h
    exact ⟨_, Text.pieces_ne_nil _ _, fun p hp => (isPart_iff p).mp (h p hp),
      (Text.intercalate_pieces '$' s.toList).symm⟩
  · rintro ⟨ps, hne, hps, htext⟩
    rw [htext, pieces_of_isLine hne hps]
    exact fun p hp => (isPart_iff p).mpr (hps p hp)

/-! ## Without line feeds -/

theorem isWord_iff_of_not_mem {cs : List Char} (h : '\n' ∉ cs) : IsWord cs ↔ IsLine cs := by
  constructor
  · exact .inl
  · rintro (hword | ⟨word, _, rfl⟩)
    · exact hword
    · exact absurd (by simp) h

theorem feed_not_mem_of_isWord {cs : List Char} (h : IsWord cs) : '\n' ∉ cs := by
  obtain ⟨c, rest, rfl, hc, hrest⟩ := h
  have hall : ∀ d ∈ c :: rest, isLetterOrDigit d = true := by
    rw [List.forall_mem_cons]
    exact ⟨by simp [isLetterOrDigit, hc], hrest⟩
  exact fun hmem => absurd (hall _ hmem) (by decide)

theorem mem_intercalate_of_mem {sep p : List Char} {ps : List (List Char)} {c : Char} (hp : p ∈ ps)
    (hc : c ∈ p) : c ∈ sep.intercalate ps := by
  induction ps with
  | nil => simp at hp
  | cons q rest ih =>
    cases rest with
    | nil =>
      rw [List.mem_singleton.mp hp] at hc
      simpa using hc
    | cons r rest =>
      rw [List.intercalate_cons_cons, List.mem_append]
      rcases List.mem_cons.mp hp with rfl | hp
      · exact .inl (List.mem_append_left _ hc)
      · exact .inr (ih hp)

/-- Lines joined to a text without line feeds are words. -/
theorem joinedBy_isWord_iff {cs : List Char} :
    JoinedBy IsWord cs ↔ JoinedBy IsLine cs ∧ '\n' ∉ cs := by
  constructor
  · rintro ⟨ps, hne, hps, rfl⟩
    refine ⟨⟨ps, hne, fun p hp => .inl (hps p hp), rfl⟩, fun hmem => ?_⟩
    rcases mem_pieces (· == '$') hmem with hmark | ⟨p, hp, hc⟩
    · exact absurd hmark (by decide)
    · rw [pieces_of_isLine hne fun p hp => .inl (hps p hp)] at hp
      exact feed_not_mem_of_isWord (hps p hp) hc
  · rintro ⟨⟨ps, hne, hps, rfl⟩, hfeed⟩
    refine ⟨ps, hne, fun p hp => ?_, rfl⟩
    exact (isWord_iff_of_not_mem fun hc => hfeed (mem_intercalate_of_mem hp hc)).mpr (hps p hp)

end Name
end EventQuery
