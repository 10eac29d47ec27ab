import EventQuery.Proofs.Json.Number

/-!
# EventQuery.Proofs.Json.Field

Fields of JSON objects. `ReadsBack v text`: the text of the value `v` is `text`, and the reader
takes `v` from the front of whatever goes on from there without a part of a number. Numbers that may
be missing read back (`readsBack_null`, `readsBack_float`), and so does each field of an object with
a plain name.
-/

namespace EventQuery
namespace Json

/-! ## Values -/

structure ReadsBack (v : Value) (text : String) : Prop where
  text_eq : text? v = some text
  no_space : ∀ c ∈ text.toList.head?, isSpace c = false
  not_empty : text.toList ≠ []
  value?_eq : ∀ depth rest, NoNumber rest →
    value? (depth + 1) (text.toList ++ rest) = some (v, rest)

theorem readsBack_null : ReadsBack .null "null" := by
  refine ⟨rfl, ?_, by decide, fun depth rest _ => rfl⟩
  intro c hc
  cases hc
  rfl

theorem readsBack_float (x : Binary64) : ReadsBack (.float x) (numberText x) := by
  obtain ⟨c, rest, htext, hc⟩ := numberText_eq_cons x
  refine ⟨rfl, ?_, by simp [htext], fun depth rest hrest => value?_numberText x depth hrest⟩
  rw [htext]
  rintro _ ⟨⟩
  exact hc

theorem skipSpace_append {v : Value} {text : String} (h : ReadsBack v text) (rest : List Char) :
    skipSpace (text.toList ++ rest) = text.toList ++ rest := by
  cases htext : text.toList with
  | nil => exact absurd htext h.not_empty
  | cons c tail =>
    have hc : isSpace c = false := h.no_space c (by rw [htext]; rfl)
    simp [skipSpace, hc]

/-! ## Names -/

/-- Characters that stand for themselves in a JSON string. -/
def PlainChar (c : Char) : Prop := 0x20 ≤ c.toNat ∧ c.toNat ≤ 0x7e ∧ c ≠ '"' ∧ c ≠ '\\'

instance (c : Char) : Decidable (PlainChar c) :=
  inferInstanceAs (Decidable (_ ∧ _ ∧ _ ∧ _))

theorem plain_of_all {key : String} (h : key.toList.all (fun c => decide (PlainChar c)) = true) :
    ∀ c ∈ key.toList, PlainChar c :=
  fun c hc => of_decide_eq_true (List.all_eq_true.mp h c hc)

theorem escapedChar_plain {c : Char} (h : PlainChar c) : escapedChar c = [c] := by
  obtain ⟨hlow, hhigh, hquote, hslash⟩ := h
  have hne : ∀ x : Char, x.toNat < 0x20 → c ≠ x := by
    rintro x hx rfl
    omega
  simp [escapedChar, hquote, hslash, hlow, hhigh, hne '\n' (by decide), hne '\r' (by decide),
    hne '\t' (by decide), hne '\x08' (by decide), hne '\x0c' (by decide)]

theorem chars?_plain {cs : List Char} (h : ∀ c ∈ cs, PlainChar c) (rest : List Char) :
    chars? none (cs ++ '"' :: rest) = some (cs, rest) := by
  induction cs with
  | nil => rfl
  | cons c cs ih =>
    obtain ⟨⟨hlow, hhigh, hquote, hslash⟩, hcs⟩ := List.forall_mem_cons.mp h
    rw [List.cons_append, chars?]
    · simp [hslash, hlow, ih hcs]
    · simpa using hquote
    · exact fun _ _ _ _ _ heq => absurd heq hslash
    · exact fun _ _ heq => absurd heq hslash

theorem stringText_plain {key : String} (h : ∀ c ∈ key.toList, PlainChar c) :
    (stringText key).toList = '"' :: (key.toList ++ ['"']) := by
  have hbody : ∀ cs : List Char, (∀ c ∈ cs, PlainChar c) → cs.flatMap escapedChar = cs := by
    intro cs hcs
    induction cs with
    | nil => rfl
    | cons c cs ih =>
      obtain ⟨hc, hrest⟩ := List.forall_mem_cons.mp hcs
      rw [List.flatMap_cons, escapedChar_plain hc, ih hrest]
      rfl
  rw [stringText, String.toList_ofList, hbody _ h]
  rfl

theorem string?_plain {key : String} (h : ∀ c ∈ key.toList, PlainChar c) (rest : List Char) :
    string? (key.toList ++ '"' :: rest) = some (key, rest) := by
  simp [string?, chars?_plain h]

/-! ## Fields -/

variable {key : String} {v : Value} {text : String}

/-- A field as it is written. -/
def fieldText (key text : String) : List Char := (stringText key ++ ": " ++ text).toList

theorem fieldText_eq_cons (text : String) (hkey : ∀ c ∈ key.toList, PlainChar c) :
    ∃ rest, fieldText key text = '"' :: rest :=
  ⟨key.toList ++ '"' :: ':' :: ' ' :: text.toList, by simp [fieldText, stringText_plain hkey]⟩

/-- The reader takes a field from the front; behind it the object ends or goes on. -/
theorem fields?_field (hkey : ∀ c ∈ key.toList, PlainChar c) (hv : ReadsBack v text) (depth : Nat)
    {rest : List Char} (hrest : NoNumber rest) :
    (∀ after, skipSpace rest = '\x7d' :: after →
      fields? (depth + 2) (fieldText key text ++ rest) = some ([(key, v)], after)) ∧
    ∀ after fields last, skipSpace rest = ',' :: after →
      fields? (depth + 1) (skipSpace after) = some (fields, last) →
      fields? (depth + 2) (fieldText key text ++ rest) = some ((key, v) :: fields, last) := by
  have hchars : fieldText key text ++ rest
      = '"' :: (key.toList ++ '"' :: ':' :: ' ' :: (text.toList ++ rest)) := by
    simp [fieldText, stringText_plain hkey]
  have hspace : skipSpace (' ' :: (text.toList ++ rest)) = text.toList ++ rest :=
    skipSpace_append hv rest
  have hcolon : skipSpace (':' :: ' ' :: (text.toList ++ rest))
      = ':' :: ' ' :: (text.toList ++ rest) := rfl
  have hvalue := hv.value?_eq depth rest hrest
  rw [hchars, fields?]
  constructor
  · intro after hend
    simp only [string?_plain hkey, hcolon, hspace, hvalue, hend]
  · intro after fields last hcomma hmore
    simp only [string?_plain hkey, hcolon, hspace, hvalue, hcomma, hmore, Option.map_some]

end Json
end EventQuery
