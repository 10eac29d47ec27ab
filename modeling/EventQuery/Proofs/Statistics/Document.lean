import EventQuery.Outlier
import EventQuery.Proofs.Json.Field

/-!
# EventQuery.Proofs.Statistics.Document

The document that statistics are kept in. Its text is read as the object that was written
(`document_toRecord`), and the object as the very same statistics (`ofRecord?_toRecord`).
-/

namespace EventQuery
namespace Statistics

open Json

def numberText (x : Option Binary64) : String := (x.map Json.numberText).getD "null"

theorem readsBack_number (x : Option Binary64) : ReadsBack (number x) (numberText x) := by
  cases x with
  | none => exact readsBack_null
  | some x => exact readsBack_float x

/-- The text of the document. -/
def text (s : Statistics) : String :=
  "\x7b" ++ ", ".intercalate [stringText "mean" ++ ": " ++ numberText s.mean,
    stringText "stddev" ++ ": " ++ numberText s.stddev] ++ "\x7d"

theorem text?_toRecord (s : Statistics) : Json.text? (.object s.toRecord) = some s.text := by
  have hmean := (readsBack_number s.mean).text_eq
  have hstddev := (readsBack_number s.stddev).text_eq
  simp [toRecord, Json.text?, fieldTexts?, hmean, hstddev, text]

theorem toList_text (s : Statistics) :
    s.text.toList = '\x7b' :: (fieldText "mean" (numberText s.mean)
      ++ ',' :: ' ' :: (fieldText "stddev" (numberText s.stddev) ++ ['\x7d'])) := by
  simp [text, fieldText]

theorem plain_mean : ∀ c ∈ "mean".toList, PlainChar c := plain_of_all (by decide)

theorem plain_stddev : ∀ c ∈ "stddev".toList, PlainChar c := plain_of_all (by decide)

theorem fields?_text (s : Statistics) (depth : Nat) :
    fields? (depth + 3) (fieldText "mean" (numberText s.mean)
      ++ ',' :: ' ' :: (fieldText "stddev" (numberText s.stddev) ++ ['\x7d']))
      = some (s.toRecord, []) := by
  have hcomma : ∀ rest, NoNumber (',' :: rest) := by
    rintro rest _ ⟨⟩
    decide
  have hend : NoNumber ['\x7d'] := by
    rintro _ ⟨⟩
    decide
  obtain ⟨hlast, _⟩ := fields?_field plain_stddev (readsBack_number s.stddev) depth hend
  obtain ⟨_, hmore⟩ := fields?_field plain_mean (readsBack_number s.mean) (depth + 1) (hcomma _)
  refine hmore _ _ _ rfl ?_
  obtain ⟨rest, hrest⟩ := fieldText_eq_cons (numberText s.stddev) plain_stddev
  have hlast := hlast [] rfl
  rw [hrest] at hlast ⊢
  exact hlast

theorem read?_text (s : Statistics) : read? s.text = some (.object s.toRecord) := by
  obtain ⟨depth, hdepth⟩ : ∃ depth, s.text.toList.length = depth + 3 := by
    refine ⟨s.text.toList.length - 3, ?_⟩
    rw [toList_text]
    simp
    omega
  obtain ⟨rest, hrest⟩ := fieldText_eq_cons (numberText s.mean) plain_mean
  have hfields := s.fields?_text depth
  rw [hrest] at hfields
  have hvalue : value? (depth + 3 + 1) s.text.toList = some (.object s.toRecord, []) := by
    rw [toList_text, hrest]
    exact congrArg (Option.map fun x => (Value.object (Assoc.ofList x.1), x.2)) hfields
  have hspace : skipSpace s.text.toList = s.text.toList := by
    rw [toList_text]
    rfl
  simp only [read?, hspace, hdepth, hvalue]
  rfl

/-- The text is read as the object that was written. -/
theorem document_toRecord (s : Statistics) (key : String) :
    Client.document key s.text = .ok s.toRecord := by
  rw [Client.document, read?_text]

theorem ofRecord?_toRecord (s : Statistics) : ofRecord? s.toRecord = some s := by
  obtain ⟨mean, stddev⟩ := s
  cases mean <;> cases stddev <;> rfl

end Statistics
end EventQuery
