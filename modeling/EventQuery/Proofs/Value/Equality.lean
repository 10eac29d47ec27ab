import EventQuery.Proofs.Assoc
import EventQuery.Value.Order
import Mathlib.Data.List.Forall2
import Mathlib.Data.List.Perm.Subperm

/-!
# EventQuery.Proofs.Value.Equality

Equality of values is an equivalence on values without NaN (`same_self`, `same_comm`, `same_trans`);
it is symmetric wherever objects have each name once (`same_comm_of_names`). A value that can be a
key equals no value that cannot (`isKey_eq_of_same`). `Value.induct` is the induction over values
that all of it goes by: one case for what holds no others, one for each kind that does.
-/

namespace EventQuery
namespace Value

/-! ## Induction -/

/-- Neither a sequence nor an object. -/
def isScalar : Value → Bool
  | array _ | tuple _ | object _ => false
  | _ => true

theorem sizeOf_lt_of_mem_fields {f : String × Value} {fields : List (String × Value)}
    (h : f ∈ fields) : sizeOf f.2 < sizeOf fields := by
  have hfield : sizeOf f = 1 + sizeOf f.1 + sizeOf f.2 := by
    obtain ⟨k, v⟩ := f
    rfl
  have hmem := List.sizeOf_lt_of_mem h
  omega

theorem induct {P : Value → Prop} (scalar : ∀ v, v.isScalar = true → P v)
    (array : ∀ items, (∀ v ∈ items, P v) → P (.array items))
    (tuple : ∀ items, (∀ v ∈ items, P v) → P (.tuple items))
    (object : ∀ fields, (∀ f ∈ fields, P f.2) → P (.object fields)) (v : Value) : P v := by
  cases v with
  | array items => exact array items fun w _ => induct scalar array tuple object w
  | tuple items => exact tuple items fun w _ => induct scalar array tuple object w
  | object fields => exact object fields fun f _ => induct scalar array tuple object f.2
  | _ => exact scalar _ rfl
termination_by sizeOf v
decreasing_by
  · have := List.sizeOf_lt_of_mem ‹w ∈ items›
    simp only [Value.array.sizeOf_spec]
    omega
  · have := List.sizeOf_lt_of_mem ‹w ∈ items›
    simp only [Value.tuple.sizeOf_spec]
    omega
  · have := sizeOf_lt_of_mem_fields ‹f ∈ fields›
    simp only [Value.object.sizeOf_spec]
    omega

/-! ## Equality taken apart -/

theorem sameItems_iff {xs ys : List Value} :
    sameItems xs ys = true ↔ List.Forall₂ (fun x y => same x y = true) xs ys := by
  induction xs generalizing ys with
  | nil => cases ys <;> simp [sameItems]
  | cons x xs ih => cases ys <;> simp [sameItems, ih]

theorem sameFields_iff {fields other : List (String × Value)} :
    sameFields fields other = true ↔
      ∀ f ∈ fields, ∃ y, other.lookup f.1 = some y ∧ same f.2 y = true := by
  induction fields with
  | nil => simp [sameFields]
  | cons f rest ih =>
    obtain ⟨k, x⟩ := f
    rw [sameFields, Bool.and_eq_true, ih, List.forall_mem_cons]
    refine and_congr_left fun _ => ?_
    cases other.lookup k <;> simp

end Value

theorem Quantity.ofRats_eq_iff {p q : Rat} : ofRats p q = .eq ↔ p = q := by
  rw [ofRats]
  constructor
  · intro h
    split at h
    · cases h
    · split at h
      · cases h
      · grind
  · rintro rfl
    simp

theorem Quantity.same_iff {a b : Quantity} : a.same b = true ↔ a = b ∧ a ≠ .undefined := by
  cases a with
  | undefined => simp [same, compare?]
  | infinite m => cases b <;> cases m <;> simp [same, compare?]
  | finite p =>
    cases b with
    | undefined => simp [same, compare?]
    | infinite n => cases n <;> simp [same, compare?]
    | finite q => simp [same, compare?, ofRats_eq_iff]

/-- The clock, or the instant of a time with an offset. -/
def DateTime.compared (t : DateTime) : Int := if t.offset.isSome then t.instant else t.wall

theorem DateTime.same_iff {t u : DateTime} :
    t.same u = true ↔ t.offset.isSome = u.offset.isSome ∧ t.compared = u.compared := by
  unfold same compared
  cases t.offset <;> cases u.offset <;> simp

namespace Value

/-- What a value that holds no others stands for when values are compared. -/
inductive Face where
  | null
  | text (s : String)
  | date (d : Date)
  | time (fixed : Bool) (micros : Int)
  | number (q : Quantity)

def face? : Value → Option Face
  | null => some .null
  | text s => some (.text s)
  | date d => some (.date d)
  | datetime t => some (.time t.offset.isSome t.compared)
  | v => v.quantity?.map .number

/-- A value with a face that is not that of NaN. -/
def IsFaced (v : Value) : Prop := v.face? ≠ none ∧ v.face? ≠ some (.number .undefined)

theorem sameScalar_iff {x y : Value} :
    sameScalar x y = true ↔ x.face? = y.face? ∧ x.IsFaced := by
  cases x <;> cases y <;>
    simp [sameScalar, face?, quantity?, IsFaced, Quantity.same_iff, DateTime.same_iff]

theorem same_of_isScalar {x y : Value} (h : x.isScalar = true) : same x y = sameScalar x y := by
  cases x with
  | array _ | tuple _ | object _ => cases h
  | _ => rw [same] <;> nofun

theorem same_array_iff {xs : List Value} {y : Value} : same (array xs) y = true ↔
    ∃ ys, y = array ys ∧ List.Forall₂ (fun u v => same u v = true) xs ys := by
  cases y with
  | array ys => simp [same, sameItems_iff]
  | _ => simp [same, sameScalar, quantity?]

theorem same_tuple_iff {xs : List Value} {y : Value} : same (tuple xs) y = true ↔
    ∃ ys, y = tuple ys ∧ List.Forall₂ (fun u v => same u v = true) xs ys := by
  cases y with
  | tuple ys => simp [same, sameItems_iff]
  | _ => simp [same, sameScalar, quantity?]

theorem same_object_iff {fields : List (String × Value)} {y : Value} :
    same (object fields) y = true ↔ ∃ other, y = object other ∧
      fields.length = other.length ∧
        ∀ f ∈ fields, ∃ w, other.lookup f.1 = some w ∧ same f.2 w = true := by
  cases y with
  | object other => simp [same, sameFields_iff]
  | _ => simp [same, sameScalar, quantity?]

theorem IsFaced.of_face?_eq {x y : Value} (h : x.IsFaced) (heq : x.face? = y.face?) : y.IsFaced :=
  ⟨heq ▸ h.1, heq ▸ h.2⟩

theorem IsFaced.isScalar {v : Value} (h : v.IsFaced) : v.isScalar = true := by
  cases v with
  | array _ | tuple _ | object _ => exact absurd rfl h.1
  | _ => rfl

/-! ## Keys -/

theorem isKey_of_isScalar {v : Value} (h : v.isScalar = true) : v.isKey = true := by
  cases v with
  | array _ | tuple _ | object _ => cases h
  | _ => rfl

theorem isKey_eq_of_same {x y : Value} (h : same x y = true) : x.isKey = y.isKey := by
  induction x using induct generalizing y with
  | scalar x hx =>
    rw [same_of_isScalar hx, sameScalar_iff] at h
    have hy : y.IsFaced := h.2.of_face?_eq h.1
    rw [isKey_of_isScalar hx, isKey_of_isScalar hy.isScalar]
  | array xs _ =>
    obtain ⟨ys, rfl, _⟩ := same_array_iff.mp h
    rfl
  | tuple xs ih =>
    obtain ⟨ys, rfl, hitems⟩ := same_tuple_iff.mp h
    rw [isKey, isKey]
    clear h
    induction hitems with
    | nil => rfl
    | cons hxy _ ihrest =>
      rw [areKeys, areKeys, ih _ (by simp) hxy, ihrest fun v hv => ih v (by simp [hv])]
  | object fields _ =>
    obtain ⟨other, rfl, _⟩ := same_object_iff.mp h
    rfl

/-! ## Objects with each name once -/

mutual

/-- Every object in the value has each of its names once. -/
def hasDistinctNames : Value → Bool
  | array items | tuple items => haveDistinctNames items
  | object fields => decide (fields.map Prod.fst).Nodup && fieldsHaveDistinctNames fields
  | _ => true

def haveDistinctNames : List Value → Bool
  | [] => true
  | v :: rest => hasDistinctNames v && haveDistinctNames rest

def fieldsHaveDistinctNames : List (String × Value) → Bool
  | [] => true
  | (_, v) :: rest => hasDistinctNames v && fieldsHaveDistinctNames rest

end

theorem haveDistinctNames_iff {items : List Value} :
    haveDistinctNames items = true ↔ ∀ v ∈ items, v.hasDistinctNames = true := by
  induction items with
  | nil => simp [haveDistinctNames]
  | cons v rest ih => simp [haveDistinctNames, ih]

theorem hasDistinctNames_object_iff {fields : List (String × Value)} :
    (object fields).hasDistinctNames = true ↔
      (fields.map Prod.fst).Nodup ∧ ∀ f ∈ fields, f.2.hasDistinctNames = true := by
  have hfields : fieldsHaveDistinctNames fields = true ↔
      ∀ f ∈ fields, f.2.hasDistinctNames = true := by
    induction fields with
    | nil => simp [fieldsHaveDistinctNames]
    | cons f rest ih => simp [fieldsHaveDistinctNames, ih]
  rw [hasDistinctNames, Bool.and_eq_true, decide_eq_true_eq, hfields]

/-! ## Values without NaN -/

mutual

/-- No NaN is in the value, and every object in it has each of its names once. -/
def isDefinite : Value → Bool
  | float x => !x.isNaN
  | decimal d => d != .nan
  | array items | tuple items => areDefinite items
  | object fields => decide (fields.map Prod.fst).Nodup && haveDefinite fields
  | _ => true

def areDefinite : List Value → Bool
  | [] => true
  | v :: rest => isDefinite v && areDefinite rest

def haveDefinite : List (String × Value) → Bool
  | [] => true
  | (_, v) :: rest => isDefinite v && haveDefinite rest

end

theorem areDefinite_iff {items : List Value} :
    areDefinite items = true ↔ ∀ v ∈ items, v.isDefinite = true := by
  induction items with
  | nil => simp [areDefinite]
  | cons v rest ih => simp [areDefinite, ih]

theorem haveDefinite_iff {fields : List (String × Value)} :
    haveDefinite fields = true ↔ ∀ f ∈ fields, f.2.isDefinite = true := by
  induction fields with
  | nil => simp [haveDefinite]
  | cons f rest ih => simp [haveDefinite, ih]

theorem isDefinite_object_iff {fields : List (String × Value)} : (object fields).isDefinite = true ↔
    (fields.map Prod.fst).Nodup ∧ ∀ f ∈ fields, f.2.isDefinite = true := by
  rw [isDefinite, Bool.and_eq_true, decide_eq_true_eq, haveDefinite_iff]

theorem hasDistinctNames_of_isDefinite {v : Value} (h : v.isDefinite = true) :
    v.hasDistinctNames = true := by
  induction v using induct with
  | scalar v hv =>
    cases v with
    | array _ | tuple _ | object _ => cases hv
    | _ => rfl
  | array items ih =>
    rw [isDefinite, areDefinite_iff] at h
    exact haveDistinctNames_iff.mpr fun v hv => ih v hv (h v hv)
  | tuple items ih =>
    rw [isDefinite, areDefinite_iff] at h
    exact haveDistinctNames_iff.mpr fun v hv => ih v hv (h v hv)
  | object fields ih =>
    obtain ⟨hnames, hfields⟩ := isDefinite_object_iff.mp h
    exact hasDistinctNames_object_iff.mpr ⟨hnames, fun f hf => ih f hf (hfields f hf)⟩

theorem isFaced_of_isScalar {v : Value} (hscalar : v.isScalar = true) (h : v.isDefinite = true) :
    v.IsFaced := by
  cases v with
  | array _ | tuple _ | object _ => cases hscalar
  | float x =>
    have hnan : x.isNaN = false := by simpa [isDefinite] using h
    have hdefined : x.quantity ≠ .undefined := by
      rw [Binary64.quantity, hnan, if_neg Bool.false_ne_true]
      split <;> nofun
    simpa [IsFaced, face?, quantity?] using hdefined
  | decimal d =>
    have hnan : d ≠ .nan := by simpa [isDefinite] using h
    have hdefined : d.quantity ≠ .undefined := by
      cases d with
      | nan => exact absurd rfl hnan
      | _ => nofun
    simpa [IsFaced, face?, quantity?] using hdefined
  | _ => simp [IsFaced, face?, quantity?]

/-! ## An equivalence -/

theorem same_self {v : Value} (h : v.isDefinite = true) : same v v = true := by
  induction v using induct with
  | scalar v hv =>
    rw [same_of_isScalar hv, sameScalar_iff]
    exact ⟨rfl, isFaced_of_isScalar hv h⟩
  | array items ih =>
    rw [isDefinite, areDefinite_iff] at h
    exact same_array_iff.mpr ⟨items, rfl, List.forall₂_same.mpr fun v hv => ih v hv (h v hv)⟩
  | tuple items ih =>
    rw [isDefinite, areDefinite_iff] at h
    exact same_tuple_iff.mpr ⟨items, rfl, List.forall₂_same.mpr fun v hv => ih v hv (h v hv)⟩
  | object fields ih =>
    obtain ⟨hnames, hfields⟩ := isDefinite_object_iff.mp h
    refine same_object_iff.mpr ⟨fields, rfl, rfl, fun f hf => ⟨f.2, ?_, ih f hf (hfields f hf)⟩⟩
    exact Assoc.lookup_of_mem hnames hf

theorem forall₂_trans {xs ys zs : List Value}
    (h : ∀ x ∈ xs, ∀ {y z}, same x y = true → same y z = true → same x z = true)
    (hxy : List.Forall₂ (fun u v => same u v = true) xs ys)
    (hyz : List.Forall₂ (fun u v => same u v = true) ys zs) :
    List.Forall₂ (fun u v => same u v = true) xs zs := by
  induction hxy generalizing zs with
  | nil =>
    cases hyz
    exact .nil
  | cons hx _ ih =>
    cases hyz with
    | cons hy hrest =>
      exact .cons (h _ (by simp) hx hy) (ih (fun x hx => h x (by simp [hx])) hrest)

theorem same_trans {x y z : Value} (hxy : same x y = true) (hyz : same y z = true) :
    same x z = true := by
  induction x using induct generalizing y z with
  | scalar x hx =>
    rw [same_of_isScalar hx, sameScalar_iff] at hxy ⊢
    have hy : y.IsFaced := hxy.2.of_face?_eq hxy.1
    rw [same_of_isScalar hy.isScalar, sameScalar_iff] at hyz
    exact ⟨hxy.1.trans hyz.1, hxy.2⟩
  | array xs ih =>
    obtain ⟨ys, rfl, hxs⟩ := same_array_iff.mp hxy
    obtain ⟨zs, rfl, hys⟩ := same_array_iff.mp hyz
    exact same_array_iff.mpr ⟨zs, rfl, forall₂_trans ih hxs hys⟩
  | tuple xs ih =>
    obtain ⟨ys, rfl, hxs⟩ := same_tuple_iff.mp hxy
    obtain ⟨zs, rfl, hys⟩ := same_tuple_iff.mp hyz
    exact same_tuple_iff.mpr ⟨zs, rfl, forall₂_trans ih hxs hys⟩
  | object fields ih =>
    obtain ⟨other, rfl, hlength, hfields⟩ := same_object_iff.mp hxy
    obtain ⟨third, rfl, hlength', hother⟩ := same_object_iff.mp hyz
    refine same_object_iff.mpr ⟨third, rfl, hlength.trans hlength', fun f hf => ?_⟩
    obtain ⟨w, hw, hfw⟩ := hfields f hf
    obtain ⟨u, hu, hwu⟩ := hother (f.1, w) (Assoc.mem_of_lookup hw)
    exact ⟨u, hu, ih f hf hfw hwu⟩

theorem forall₂_symm {xs ys : List Value}
    (h : ∀ x ∈ xs, ∀ {y}, same x y = true → same y x = true)
    (hxy : List.Forall₂ (fun u v => same u v = true) xs ys) :
    List.Forall₂ (fun u v => same u v = true) ys xs := by
  induction hxy with
  | nil => exact .nil
  | cons hx _ ih => exact .cons (h _ (by simp) hx) (ih fun x hx => h x (by simp [hx]))

/-- An object of as many fields that has every name of another has no other names. -/
theorem names_perm {fields other : List (String × Value)} (hnames : (fields.map Prod.fst).Nodup)
    (hlength : fields.length = other.length)
    (h : ∀ f ∈ fields, ∃ w, other.lookup f.1 = some w ∧ same f.2 w = true) :
    (fields.map Prod.fst).Perm (other.map Prod.fst) := by
  have hsubset : fields.map Prod.fst ⊆ other.map Prod.fst := by
    intro name hname
    obtain ⟨f, hf, rfl⟩ := List.mem_map.mp hname
    obtain ⟨w, hw, _⟩ := h f hf
    exact List.mem_map.mpr ⟨(f.1, w), Assoc.mem_of_lookup hw, rfl⟩
  exact (List.subperm_of_subset hnames hsubset).perm_of_length_le (by simp [hlength])

theorem same_symm_of_names {x y : Value} (hx : x.hasDistinctNames = true)
    (h : same x y = true) : same y x = true := by
  induction x using induct generalizing y with
  | scalar x hscalar =>
    rw [same_of_isScalar hscalar, sameScalar_iff] at h
    have hy : y.IsFaced := h.2.of_face?_eq h.1
    rw [same_of_isScalar hy.isScalar, sameScalar_iff]
    exact ⟨h.1.symm, hy⟩
  | array xs ih =>
    rw [hasDistinctNames, haveDistinctNames_iff] at hx
    obtain ⟨ys, rfl, hxs⟩ := same_array_iff.mp h
    exact same_array_iff.mpr ⟨xs, rfl, forall₂_symm (fun x hmem => ih x hmem (hx x hmem)) hxs⟩
  | tuple xs ih =>
    rw [hasDistinctNames, haveDistinctNames_iff] at hx
    obtain ⟨ys, rfl, hxs⟩ := same_tuple_iff.mp h
    exact same_tuple_iff.mpr ⟨xs, rfl, forall₂_symm (fun x hmem => ih x hmem (hx x hmem)) hxs⟩
  | object fields ih =>
    obtain ⟨hnames, hdistinct⟩ := hasDistinctNames_object_iff.mp hx
    obtain ⟨other, rfl, hlength, hfields⟩ := same_object_iff.mp h
    have hperm := names_perm hnames hlength hfields
    refine same_object_iff.mpr ⟨fields, rfl, hlength.symm, fun g hg => ?_⟩
    obtain ⟨f, hf, hname⟩ :=
      List.mem_map.mp (hperm.mem_iff.mpr (List.mem_map_of_mem hg))
    obtain ⟨w, hw, hfw⟩ := hfields f hf
    -- the other object has the name once, so its field is the one that was found
    rw [hname, Assoc.lookup_of_mem (hperm.nodup_iff.mp hnames) hg] at hw
    cases hw
    rw [← hname]
    exact ⟨f.2, Assoc.lookup_of_mem hnames hf, ih f hf (hdistinct f hf) hfw⟩

theorem same_comm_of_names {x y : Value} (hx : x.hasDistinctNames = true)
    (hy : y.hasDistinctNames = true) : same x y = same y x :=
  Bool.eq_iff_iff.mpr ⟨same_symm_of_names hx, same_symm_of_names hy⟩

theorem same_symm {x y : Value} (hx : x.isDefinite = true) (h : same x y = true) :
    same y x = true :=
  same_symm_of_names (hasDistinctNames_of_isDefinite hx) h

theorem same_comm {x y : Value} (hx : x.isDefinite = true) (hy : y.isDefinite = true) :
    same x y = same y x :=
  Bool.eq_iff_iff.mpr ⟨same_symm hx, same_symm hy⟩

end Value
end EventQuery
