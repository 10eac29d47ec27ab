import EventQuery.Statement.Predicate
import Mathlib.Data.List.Forall2

/-!
# EventQuery.Proofs.Statement.Token

The words of a statement. `Token.ofText` reads a text from left to right: what stands between two
double quotes is a name, whatever it holds; outside of them `$` and the digits after it are a
placeholder, and letters, signs and colons make words of their own.

`Open s ts` says that the text `s` is read as `ts` where a break comes after it, and `Closed s ts`
that it is read so whatever comes after it. Both are kept when texts are put together, so the
words of a statement are found piece by piece (`Closed.append`, `Open.append`, `open_intercalate`).
-/

namespace EventQuery

inductive Token where
  /-- A text in double quotes. -/
  | name (s : String)
  /-- A double quote that nothing closes, with what follows it. -/
  | unclosed (s : String)
  /-- `$`, with the digits after it. -/
  | place (digits : String)
  /-- Colons and a type. -/
  | cast (s : String)
  | word (s : String)
  /-- Signs of comparison in a row. -/
  | sign (s : String)
  /-- Any other character that is not blank. -/
  | mark (c : Char)
  deriving DecidableEq

namespace Token

/-- What is being read. -/
inductive Kind where
  | name | place | cast | word | sign
  deriving DecidableEq

def isSign (c : Char) : Bool := c == '<' || c == '=' || c == '>'

def isWordChar (c : Char) : Bool := c.isAlphanum || c == '_'

namespace Kind

/-- Whether a character goes on with what is being read. -/
def takes : Kind → Char → Bool
  | name, c => c != '"'
  | place, c => c.isDigit
  | cast, c => c == ':' || isWordChar c
  | word, c => isWordChar c
  | sign, c => isSign c

def token (k : Kind) (read : List Char) : Token :=
  match k with
  | name => .name (.ofList read)
  | place => .place (.ofList read)
  | cast => .cast (.ofList read)
  | word => .word (.ofList read)
  | sign => .sign (.ofList read)

/-- What was read when the text ends. -/
def tokenAtEnd : Kind → List Char → Token
  | name, read => .unclosed (.ofList read)
  | k, read => k.token read

end Kind

/-- A token of which some characters have been read. -/
structure Part where
  kind : Kind
  read : List Char

/-- What a character outside of all tokens begins. -/
def start (c : Char) : List Token × Option Part :=
  if c == '"' then ([], some ⟨.name, []⟩)
  else if c == '$' then ([], some ⟨.place, []⟩)
  else if c == ':' then ([], some ⟨.cast, [c]⟩)
  else if isSign c then ([], some ⟨.sign, [c]⟩)
  else if isWordChar c then ([], some ⟨.word, [c]⟩)
  else if c.isWhitespace then ([], none)
  else ([.mark c], none)

/-- The tokens of a text, the first of which may already be read in part. -/
def lex : Option Part → List Char → List Token
  | none, [] => []
  | some p, [] => [p.kind.tokenAtEnd p.read]
  | none, c :: rest => (start c).1 ++ lex (start c).2 rest
  | some p, c :: rest =>
    if p.kind.takes c then lex (some ⟨p.kind, p.read ++ [c]⟩) rest
    else if p.kind = .name then p.kind.token p.read :: lex none rest
    else p.kind.token p.read :: ((start c).1 ++ lex (start c).2 rest)

def ofText (s : String) : List Token := lex none s.toList

/-! ## One token -/

theorem lex_take {k : Kind} {c : Char} (h : k.takes c = true) (read rest : List Char) :
    lex (some ⟨k, read⟩) (c :: rest) = lex (some ⟨k, read ++ [c]⟩) rest := by
  rw [lex.eq_def]
  exact if_pos h

/-- A character that does not go on with a token begins the next one. -/
theorem lex_next {k : Kind} (hk : k ≠ .name) {c : Char} (h : k.takes c = false)
    (read rest : List Char) :
    lex (some ⟨k, read⟩) (c :: rest) = k.token read :: lex none (c :: rest) := by
  rw [lex.eq_def]
  simp only [h, if_neg hk]
  rfl

theorem lex_close (read rest : List Char) :
    lex (some ⟨.name, read⟩) ('"' :: rest) = .name (.ofList read) :: lex none rest := rfl

theorem lex_takes {k : Kind} {w : List Char} (h : ∀ c ∈ w, k.takes c = true)
    (read rest : List Char) :
    lex (some ⟨k, read⟩) (w ++ rest) = lex (some ⟨k, read ++ w⟩) rest := by
  induction w generalizing read with
  | nil => simp
  | cons c w ih =>
    rw [List.cons_append, lex_take (h c (by simp)), ih fun d hd => h d (by simp [hd])]
    simp

/-- Where every token but a name ends. -/
def Breaks : List Char → Bool
  | [] => true
  | c :: _ => c == ' ' || c == ')' || c == ','

theorem Kind.takes_of_breaks {k : Kind} (hk : k ≠ .name) {c : Char} {rest : List Char}
    (h : Breaks (c :: rest) = true) : k.takes c = false := by
  simp only [Breaks, Bool.or_eq_true, beq_iff_eq] at h
  rcases h with (rfl | rfl) | rfl <;> cases k <;> first | rfl | exact absurd rfl hk

theorem lex_breaks {k : Kind} (hk : k ≠ .name) {rest : List Char} (h : Breaks rest = true)
    (read : List Char) : lex (some ⟨k, read⟩) rest = k.token read :: lex none rest := by
  cases rest with
  | nil => cases k <;> first | rfl | exact absurd rfl hk
  | cons c rest => exact lex_next hk (Kind.takes_of_breaks hk h) read rest

/-- A blank after a text with no name left open ends its last token. -/
theorem lex_blank (rest : List Char) {w : List Char} {p : Option Part}
    (h : ∀ n, .unclosed n ∉ lex p w) : lex p (w ++ ' ' :: rest) = lex p w ++ lex none rest := by
  induction w generalizing p with
  | nil =>
    cases p with
    | none => rfl
    | some p =>
      obtain ⟨k, read⟩ := p
      have hk : k ≠ .name := by
        rintro rfl
        exact h (.ofList read) (by simp [lex, Kind.tokenAtEnd])
      have hend : lex (some ⟨k, read⟩) [] = [k.token read] := by
        cases k <;> first | rfl | exact absurd rfl hk
      rw [List.nil_append, lex_breaks hk rfl, hend]
      rfl
  | cons c w ih =>
    have hstart (h : ∀ n, .unclosed n ∉ (start c).1 ++ lex (start c).2 w) :
        lex (start c).2 (w ++ ' ' :: rest) = lex (start c).2 w ++ lex none rest :=
      ih fun n hn => h n (List.mem_append_right _ hn)
    rw [List.cons_append]
    cases p with
    | none => rw [lex, lex, hstart h, List.append_assoc]
    | some p =>
      simp only [lex] at h ⊢
      split
      · rename_i htakes
        rw [if_pos htakes] at h
        exact ih h
      · rename_i htakes
        rw [if_neg htakes] at h
        split
        · rename_i hname
          rw [if_pos hname] at h
          rw [ih fun n hn => h n (List.mem_cons_of_mem _ hn)]
          rfl
        · rename_i hname
          rw [if_neg hname] at h
          rw [hstart fun n hn => h n (List.mem_cons_of_mem _ hn)]
          simp

/-! ## Texts in pieces -/

def Closed (s : String) (ts : List Token) : Prop :=
  ∀ rest, lex none (s.toList ++ rest) = ts ++ lex none rest

def Open (s : String) (ts : List Token) : Prop :=
  ∀ rest, Breaks rest = true → lex none (s.toList ++ rest) = ts ++ lex none rest

variable {s t : String} {ts us : List Token}

theorem Closed.open (h : Closed s ts) : Open s ts := fun rest _ => h rest

theorem Open.ofText_eq (h : Open s ts) : ofText s = ts := by
  simpa [ofText, lex] using h [] rfl

/-- A text that ends in a blank is read as it is alone. -/
theorem closed_blank {s : String} {ts : List Token} (h : ofText s = ts)
    (hts : ∀ n, .unclosed n ∉ ts) : Closed (s ++ " ") ts := by
  subst h
  intro rest
  rw [String.toList_append, List.append_assoc]
  exact lex_blank rest hts

theorem Closed.append (hs : Closed s ts) (ht : Closed t us) : Closed (s ++ t) (ts ++ us) := by
  intro rest
  rw [String.toList_append, List.append_assoc, hs, ht, List.append_assoc]

theorem Closed.append_open (hs : Closed s ts) (ht : Open t us) : Open (s ++ t) (ts ++ us) := by
  intro rest hrest
  rw [String.toList_append, List.append_assoc, hs, ht rest hrest, List.append_assoc]

/-- A text after which a break comes, whatever follows. -/
def StartsBreak (t : String) : Prop := ∀ rest, Breaks (t.toList ++ rest) = true

theorem Open.append_closed (hs : Open s ts) (ht : Closed t us) (hb : StartsBreak t) :
    Closed (s ++ t) (ts ++ us) := by
  intro rest
  rw [String.toList_append, List.append_assoc, hs _ (hb rest), ht, List.append_assoc]

/-- The second text breaks off the first, or is empty. -/
theorem Open.append (hs : Open s ts) (ht : Open t us)
    (hb : ∀ rest, Breaks rest = true → Breaks (t.toList ++ rest) = true) :
    Open (s ++ t) (ts ++ us) := by
  intro rest hrest
  rw [String.toList_append, List.append_assoc, hs _ (hb rest hrest), ht rest hrest,
    List.append_assoc]

theorem open_empty : Open "" [] := fun _ _ => rfl

theorem open_intercalate {sep : String} (hsep : Closed sep us) (hb : StartsBreak sep)
    {ss : List String} {tss : List (List Token)} (h : List.Forall₂ Open ss tss) :
    Open (sep.intercalate ss) (us.intercalate tss) := by
  induction h with
  | nil => simpa using open_empty
  | @cons s ts ss tss hs hss ih =>
    cases hss with
    | nil => simpa using hs
    | cons =>
      rw [String.intercalate_cons_cons, List.intercalate_cons_cons]
      exact (hs.append_closed hsep hb).append_open ih

theorem mem_intercalate {α : Type} {x : α} {sep : List α} {xss : List (List α)}
    (h : x ∈ sep.intercalate xss) : x ∈ sep ∨ ∃ xs ∈ xss, x ∈ xs := by
  induction xss with
  | nil => simp at h
  | cons xs rest ih =>
    cases rest with
    | nil => exact .inr ⟨xs, by simp, by simpa using h⟩
    | cons ys rest =>
      rw [List.intercalate_cons_cons, List.append_assoc, List.mem_append, List.mem_append] at h
      rcases h with h | h | h
      · exact .inr ⟨xs, by simp, h⟩
      · exact .inl h
      · exact (ih h).imp_right fun ⟨zs, hzs, hx⟩ => ⟨zs, List.mem_cons_of_mem _ hzs, hx⟩

/-! ## Placeholders in order -/

def place? : Token → Option String
  | .place digits => some digits
  | _ => none

/-- The digits of the placeholders, from left to right. -/
def places (ts : List Token) : List String := ts.filterMap place?

theorem places_append (ts us : List Token) : places (ts ++ us) = places ts ++ places us :=
  List.filterMap_append

theorem places_intercalate {sep : List Token} (h : places sep = []) (tss : List (List Token)) :
    places (sep.intercalate tss) = tss.flatMap places := by
  induction tss with
  | nil => rfl
  | cons ts rest ih =>
    cases rest with
    | nil => simp
    | cons us rest =>
      rw [List.intercalate_cons_cons, places_append, places_append, h, ih, List.append_nil]
      rfl

/-- The placeholders of some values, after others are bound. -/
def numbered (bound count : Nat) : List String :=
  (List.range' bound count).map fun i => toString (i + 1)

theorem numbered_append (bound m n : Nat) :
    numbered bound m ++ numbered (bound + m) n = numbered bound (m + n) := by
  rw [numbered, numbered, numbered, ← List.map_append, List.range'_append_1]

/-! ## Names and placeholders -/

/-- A name in double quotes is one token when it holds none itself. -/
theorem closed_inQuotes (h : '"' ∉ s.toList) : Closed (Name.inQuotes s) [.name s] := by
  intro rest
  have htakes : ∀ c ∈ s.toList, Kind.name.takes c = true := by
    intro c hc
    rw [Kind.takes, bne_iff_ne]
    rintro rfl
    exact h hc
  have hlist : (Name.inQuotes s).toList ++ rest = '"' :: (s.toList ++ '"' :: rest) := by
    simp [Name.inQuotes]
  calc lex none ((Name.inQuotes s).toList ++ rest)
      = lex (some ⟨.name, []⟩) (s.toList ++ '"' :: rest) := by rw [hlist]; rfl
    _ = lex (some ⟨.name, s.toList⟩) ('"' :: rest) := lex_takes htakes [] _
    _ = [.name s] ++ lex none rest := by rw [lex_close, String.ofList_toList]; rfl

theorem placeholder_toList (n : Nat) :
    (placeholder n).toList = '$' :: (toString n).toList := by
  simp [placeholder]

theorem lex_placeholder (n : Nat) (rest : List Char) :
    lex none ((placeholder n).toList ++ rest) = lex (some ⟨.place, (toString n).toList⟩) rest := by
  have htakes : ∀ c ∈ (toString n).toList, Kind.place.takes c = true := by
    intro c hc
    rw [Nat.toString_eq_repr, Nat.toList_repr] at hc
    exact Nat.isDigit_of_mem_toDigits (by decide) (by decide) hc
  have hopen (w : List Char) : lex none ('$' :: w) = lex (some ⟨.place, []⟩) w := rfl
  rw [placeholder_toList, List.cons_append, hopen, lex_takes htakes, List.nil_append]

theorem token_place (n : Nat) : Kind.place.token (toString n).toList = .place (toString n) := by
  rw [Kind.token, String.ofList_toList]

theorem open_placeholder (n : Nat) : Open (placeholder n) [.place (toString n)] := by
  intro rest hrest
  rw [lex_placeholder, lex_breaks (by decide) hrest, token_place]
  rfl

theorem lex_placeholder_cast (n : Nat) {w : List Char} (h : ∀ c ∈ w, Kind.cast.takes c = true)
    {rest : List Char} (hrest : Breaks rest = true) :
    lex none ((placeholder n).toList ++ (':' :: w ++ rest))
      = [.place (toString n), .cast (.ofList (':' :: w))] ++ lex none rest := by
  calc lex none ((placeholder n).toList ++ (':' :: w ++ rest))
      = lex (some ⟨.place, (toString n).toList⟩) (':' :: (w ++ rest)) := lex_placeholder n _
    _ = .place (toString n) :: lex none (':' :: (w ++ rest)) := by
        rw [lex_next (by decide) (by decide), token_place]
    _ = .place (toString n) :: lex (some ⟨.cast, [':']⟩) (w ++ rest) := rfl
    _ = .place (toString n) :: lex (some ⟨.cast, ':' :: w⟩) rest := by
        rw [lex_takes h]; rfl
    _ = [.place (toString n), .cast (.ofList (':' :: w))] ++ lex none rest := by
        rw [lex_breaks (by decide) hrest]; rfl

end Token

/-- The tokens of the cast of a value. -/
def Value.castTokens : Value → List Token
  | .datetime _ => [.cast "::timestamptz"]
  | .float _ => [.cast "::float8"]
  | _ => []

namespace Token

theorem open_placeholder_value (n : Nat) (v : Value) :
    Open (placeholder n ++ v.cast) (.place (toString n) :: v.castTokens) := by
  have hcast (w : List Char) (h : w.all Kind.cast.takes = true) :
      Open (placeholder n ++ .ofList (':' :: w))
        [.place (toString n), .cast (.ofList (':' :: w))] := by
    intro rest hrest
    rw [String.toList_append, String.toList_ofList, List.append_assoc]
    exact lex_placeholder_cast n (List.all_eq_true.mp h) hrest
  cases v with
  | datetime t => exact hcast ":timestamptz".toList rfl
  | float x => exact hcast ":float8".toList rfl
  | _ => simpa [Value.cast, Value.castTokens] using open_placeholder n

end Token
end EventQuery
