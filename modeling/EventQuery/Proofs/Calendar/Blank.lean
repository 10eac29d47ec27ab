import EventQuery.Calendar.Timestamp
import EventQuery.Proofs.Text.Numeral
import Mathlib.Data.List.TakeWhile

/-!
# EventQuery.Proofs.Calendar.Blank

A text of spacing alone is no timestamp, in any of the three notations (`read?_eq_none_of_spaces`),
so a timestamp is not empty after the spacing around it is cut off (`trimmed_of_read?`).
-/

namespace EventQuery

namespace Text

/-! ## Spacing -/

/-- The code points of spacing. -/
def spacings : List Nat :=
  [9, 10, 11, 12, 13, 28, 29, 30, 31, 32, 133, 160, 5760, 8192, 8193, 8194, 8195, 8196, 8197, 8198,
    8199, 8200, 8201, 8202, 8232, 8233, 8239, 8287, 12288]

/-- What holds of each of these holds of all spacing. -/
theorem forall_spacing {p : Char → Prop} (h : ∀ n ∈ spacings, p (Char.ofNat n)) {c : Char}
    (hc : isSpacing c = true) : p c := by
  have hn : c.toNat ∈ spacings := by
    simp only [isSpacing, isBlank, Bool.or_eq_true, Bool.and_eq_true, decide_eq_true_eq,
      beq_iff_eq] at hc
    simp only [spacings, List.mem_cons, List.not_mem_nil, or_false]
    omega
  rw [← Char.ofNat_toNat c]
  exact h _ hn

def Spaces (s : List Char) : Prop := ∀ c ∈ s, isSpacing c = true

theorem isDigit_of_spacing {c : Char} (h : isSpacing c = true) : c.isDigit = false :=
  forall_spacing (p := fun c => c.isDigit = false) (by decide) h

theorem plainDigit_of_spacing {c : Char} (h : isSpacing c = true) : plainDigit c = c :=
  forall_spacing (p := fun c => plainDigit c = c) (by decide) h

theorem isLetter_of_spacing {c : Char} (h : isSpacing c = true) : isLetter c = false :=
  forall_spacing (p := fun c => isLetter c = false) (by decide +kernel) h

theorem lowerLetter_of_spacing {c : Char} (h : isSpacing c = true) : lowerLetter c = c :=
  forall_spacing (p := fun c => lowerLetter c = c) (by decide) h

theorem upperLetters_of_spacing {c : Char} (h : isSpacing c = true) : upperLetters c = [c] :=
  forall_spacing (p := fun c => upperLetters c = [c]) (by decide) h

theorem raised_of_spaces {s : List Char} (h : Spaces s) : raised s = s := by
  induction s with
  | nil => rfl
  | cons c rest ih =>
    rw [Spaces, List.forall_mem_cons] at h
    rw [raised, List.flatMap_cons, upperLetters_of_spacing h.1, ← raised, ih h.2]
    rfl

theorem map_plainDigit_of_spaces {s : List Char} (h : Spaces s) : s.map plainDigit = s :=
  (List.map_congr_left fun c hc => plainDigit_of_spacing (h c hc)).trans (List.map_id s)

theorem spaces_of_trimmed {s : String} (h : (trimmed s).isEmpty = true) : Spaces s.toList := by
  have hnil : strip isSpacing s.toList = [] := by
    rw [trimmed, String.isEmpty_iff] at h
    simpa using h
  rw [strip, List.reverse_eq_nil_iff, List.dropWhile_eq_nil_iff] at hnil
  have hdropped : s.toList.dropWhile isSpacing = [] := by
    cases hrest : s.toList.dropWhile isSpacing with
    | nil => rfl
    | cons c rest =>
      have hne : s.toList.dropWhile isSpacing ≠ [] := by simp [hrest]
      have hhead := List.head_dropWhile_not isSpacing hne
      have hc := hnil c (by simp [hrest])
      simp [hrest, hc] at hhead
  exact List.dropWhile_eq_nil_iff.mp hdropped

theorem mem_of_mem_pieces {isMark : Char → Bool} {s piece : List Char} {c : Char}
    (hpiece : piece ∈ pieces isMark s) (hc : c ∈ piece) : c ∈ s := by
  induction s generalizing piece with
  | nil =>
    rw [pieces, List.mem_singleton] at hpiece
    rw [hpiece] at hc
    cases hc
  | cons d rest ih =>
    rw [pieces] at hpiece
    split at hpiece
    · rcases List.mem_cons.mp hpiece with rfl | hpiece
      · cases hc
      · exact List.mem_cons_of_mem d (ih hpiece hc)
    · cases hp : pieces isMark rest with
      | nil =>
        rw [hp, List.mem_singleton] at hpiece
        rw [hpiece, List.mem_singleton] at hc
        rw [hc]
        exact List.mem_cons_self
      | cons first more =>
        rw [hp] at hpiece
        rcases List.mem_cons.mp hpiece with rfl | hpiece
        · rcases List.mem_cons.mp hc with rfl | hc
          · exact List.mem_cons_self
          · exact List.mem_cons_of_mem d (ih (hp ▸ List.mem_cons_self) hc)
        · exact List.mem_cons_of_mem d (ih (hp ▸ List.mem_cons_of_mem first hpiece) hc)

end Text

namespace Timestamp

open Text

variable {s : List Char}

theorem digits?_of_spaces (h : Spaces s) : Numeral.digits? s = none := by
  cases s with
  | nil => rfl
  | cons c rest =>
    have hc := isDigit_of_spacing (h c List.mem_cons_self)
    simp [Numeral.digits?, hc]

/-! ## Standard notation -/

theorem Standard.digits?_of_spaces {c : Char} {rest : List Char} (hc : isSpacing c = true)
    {least most : Nat} (hleast : 0 < least) (hmost : 0 < most) :
    Standard.digits? least most (c :: rest) = none := by
  have hdigit := isDigit_of_spacing hc
  obtain ⟨k, rfl⟩ : ∃ k, most = k + 1 := ⟨most - 1, by omega⟩
  simp [Standard.digits?, hdigit, hleast]

theorem Standard.read?_of_spaces (h : Spaces s) : Standard.read? s = none := by
  have hbare : Spaces (s.dropWhile Standard.isSpace) :=
    fun c hc => h c (List.dropWhile_subset _ hc)
  cases hrest : s.dropWhile Standard.isSpace with
  | nil => simp [Standard.read?, Standard.year?, hrest]
  | cons c rest =>
    rw [hrest] at hbare
    have hc := hbare c List.mem_cons_self
    have hspace : Standard.isSpace c = false := by
      have hne : s.dropWhile Standard.isSpace ≠ [] := by simp [hrest]
      have hhead := List.head_dropWhile_not Standard.isSpace hne
      simpa [hrest] using hhead
    -- no spacing but a blank is a mark of a date
    have hmark : Standard.isDateMark c = false := by
      have hall := forall_spacing
        (p := fun c => Standard.isSpace c = false → Standard.isDateMark c = false) (by decide) hc
      exact hall hspace
    have hminus : c ≠ '-' := by
      rintro rfl
      cases hc
    have hyear : ∃ y, Standard.year? s = some (y, c :: rest) := by
      unfold Standard.year?
      simp [hrest, hminus, Standard.digits?_of_spaces hc]
    have hmonth : Standard.monthDay? (c :: rest) = none := by
      simp [Standard.monthDay?, hmark, Standard.digits?_of_spaces hc]
    obtain ⟨y, hy⟩ := hyear
    simp [Standard.read?, hy, hmonth]

/-! ## Short dates -/

theorem spaces_strip (h : Spaces s) (drop : Char → Bool) : Spaces (strip drop s) := by
  intro c hc
  rw [strip, List.mem_reverse] at hc
  exact h c (List.dropWhile_subset _ (List.mem_reverse.mp (List.dropWhile_subset _ hc)))

theorem dropJoints_of_spaces (h : Spaces s) (afterDigit : Bool) :
    Numeral.dropJoints afterDigit s = some s :=
  Numeral.dropJoints_eq_self (fun hjoint => absurd (h '_' hjoint) (by decide)) afterDigit

theorem integer?_of_spaces (h : Spaces s) : Numeral.integer? (String.ofList s) = none := by
  have hplain : Numeral.plain? (String.ofList s) = some (strip isBlank s) := by
    have hstrip := spaces_strip h isBlank
    rw [Numeral.plain?, String.toList_ofList, map_plainDigit_of_spaces hstrip,
      dropJoints_of_spaces hstrip]
  have hstrip := spaces_strip h isBlank
  generalize strip isBlank s = t at hplain hstrip
  have hsign : Numeral.splitSign t = (false, t) := by
    unfold Numeral.splitSign
    split
    · exact absurd (hstrip '-' List.mem_cons_self) (by decide)
    · exact absurd (hstrip '+' List.mem_cons_self) (by decide)
    · rfl
  simp [Numeral.integer?, hplain, hsign, digits?_of_spaces hstrip]

theorem Short.number?_of_spaces (h : Spaces s) (length : Nat) : Short.number? length s = none := by
  unfold Short.number?
  split
  · exact digits?_of_spaces h
  · rfl

theorem Short.yearLast?_of_spaces (h : Spaces s) : Short.yearLast? s = none := by
  have hpiece {piece : List Char} (hp : piece ∈ pieces Short.isDateMark s) : Spaces piece :=
    fun c hc => h c (mem_of_mem_pieces hp hc)
  unfold Short.yearLast?
  split
  · rename_i first second year hpieces
    have hfirst : Spaces first := hpiece (by simp [hpieces])
    simp [Short.upToTwo?, Short.number?_of_spaces hfirst]
  · rename_i month year hpieces
    have hyear : Spaces year := hpiece (by simp [hpieces])
    split <;> simp [Short.number?_of_spaces hyear]
  · rfl

/-- The name of a month begins with a letter. -/
theorem month?_of_spaces (h : Spaces s) : Token.month? s = none := by
  have hletter : ∀ row ∈ Token.months, ∀ w ∈ row,
      w.toList.head?.any (fun c => !isSpacing c) = true := by decide
  have hword : Token.word s = String.ofList s := by
    rw [Token.word, lowered, String.toList_ofList,
      List.map_congr_left fun c hc => lowerLetter_of_spacing (h c hc)]
    simp
  have hrow : Token.rowOf? Token.months s = none := by
    rw [Token.rowOf?, List.findIdx?_eq_none_iff]
    intro row hrow
    rw [Bool.eq_false_iff, Ne, List.contains_iff_mem, hword]
    intro hmem
    have hfirst := hletter row hrow _ hmem
    rw [String.toList_ofList] at hfirst
    cases s with
    | nil => cases hfirst
    | cons c rest => simp [h c List.mem_cons_self] at hfirst
  rw [Token.month?, hrow]
  rfl

theorem Short.read?_of_spaces (h : Spaces s) : Short.read? s = none := by
  have hyear : Short.year? s = none := by
    unfold Short.year?
    split
    · rw [integer?_of_spaces h]
      rfl
    · rfl
  have hquarter : Short.quarter? s = none := by
    have hfind : (s.drop 1).findIdx? (· == 'Q') = none := by
      rw [List.findIdx?_eq_none_iff]
      intro c hc
      have hspacing := h c (List.mem_of_mem_drop hc)
      rw [beq_eq_false_iff_ne]
      rintro rfl
      cases hspacing
    unfold Short.quarter?
    split
    · rfl
    · rw [hfind]
  have hmonth : Short.monthYear? s = none := by
    have htake : Spaces (s.take 3) := fun c hc => h c (List.mem_of_mem_take hc)
    simp [Short.monthYear?, month?_of_spaces htake]
  simp [Short.read?, raised_of_spaces h, Short.yearLast?_of_spaces h, hyear, hquarter, hmonth]

/-! ## Words -/

theorem scan_of_spaces (h : Spaces s) : Token.scan s = s.map fun _ => [' '] := by
  have hcut (s : List Char) (h : Spaces s) : Token.cut [] s = s.map fun _ => [' '] := by
    induction s with
    | nil => rfl
    | cons c rest ih =>
      rw [Spaces, List.forall_mem_cons] at h
      simp [Token.cut, Token.goesOn, Token.ofRun, h.1, isLetter_of_spacing h.1,
        isDigit_of_spacing h.1, ih h.2]
  have hfilter : s.filter (· != '\x00') = s := by
    rw [List.filter_eq_self]
    intro c hc
    rw [bne_iff_ne]
    rintro rfl
    cases h _ hc
  rw [Token.scan, hfilter, map_plainDigit_of_spaces h, hcut s h]

theorem fields?_of_spaces (before : List Token) (s : List Char) :
    Loose.fields? before {} (s.map fun _ => [' ']) = some {} := by
  induction s generalizing before with
  | nil => simp [Loose.fields?]
  | cons c rest ih =>
    have htoken : Loose.token? before [' '] (rest.map fun _ => [' ']) {} = some ({}, 0) := by
      have hnumber : Token.isNumber [' '] = false := by decide
      have hwords : Token.weekday? [' '] = none ∧ Token.month? [' '] = none ∧
          Token.half? [' '] = none ∧ Token.isFiller [' '] = true := by decide
      simp [Loose.token?, hnumber, hwords]
    rw [List.map_cons, Loose.fields?, htoken]
    exact ih _

theorem Loose.read?_of_spaces (h : Spaces s) : Loose.read? s = none := by
  have hfields := fields?_of_spaces [] s
  rw [Loose.read?, scan_of_spaces h, hfields]
  simp [DatePart.resolve?]

theorem read?_eq_none_of_spaces {text : String} (h : Spaces text.toList) : read? text = none := by
  unfold read?
  dsimp only
  rw [Standard.read?_of_spaces h, Short.read?_of_spaces h, Loose.read?_of_spaces h]
  simp

theorem trimmed_of_read? {text : String} {t : DateTime} (h : read? text = some t) :
    (trimmed text).isEmpty = false := by
  rw [Bool.eq_false_iff]
  intro hempty
  rw [read?_eq_none_of_spaces (spaces_of_trimmed hempty)] at h
  cases h

end Timestamp
end EventQuery
