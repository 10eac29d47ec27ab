import EventQuery.Proofs.Name.Language

/-!
# EventQuery.Proofs.Name.Isolation

Names put together from others can be taken apart. An underscore stands between the parts of the
name of a table and of the keys of the cache, and no accepted name holds one, so the parts are what
is found between the underscores (`pieces_tableName`, `pieces_statsKey`, `pieces_rollupKey`). A
table has two parts, the key of statistics three and that of a rollup four: names of one kind are
equal only when all their parts are, and names of two kinds never are.
-/

namespace EventQuery
namespace Name

variable {p c p' c' : String}

theorem underscore_not_mem_property {x : String} (h : isProperty x = true) : '_' ∉ x.toList := by
  intro hc
  rcases isProperty_chars h _ hc with h | h | h <;> revert h <;> decide

theorem underscore_not_mem_flat (h : isFlat p = true) : '_' ∉ p.toList := by
  intro hc
  rcases isFlat_chars h _ hc with h | h <;> revert h <;> decide

/-- The parts between underscores are found again. -/
theorem pieces_eq {s : String} {parts : List String} (hne : parts ≠ [])
    (hparts : ∀ part ∈ parts, '_' ∉ part.toList)
    (hs : s.toList = ['_'].intercalate (parts.map String.toList)) :
    Text.pieces (· == '_') s.toList = parts.map String.toList := by
  rw [hs]
  refine Text.pieces_intercalate (by simpa using hne) ?_
  rw [List.forall_mem_map]
  exact hparts

theorem pieces_tableName (hp : isFlat p = true) (hc : isFlat c = true) :
    Text.pieces (· == '_') (tableName p c).toList = [p, c].map String.toList := by
  refine pieces_eq (by simp) ?_ (by simp [tableName, List.intercalate_cons_cons])
  simp [underscore_not_mem_flat hp, underscore_not_mem_flat hc]

theorem map_toList_inj {xs ys : List String} :
    xs.map String.toList = ys.map String.toList ↔ xs = ys :=
  (List.map_injective_iff.mpr fun _ _ h => String.toList_inj.mp h).eq_iff

/-! ## Tables -/

theorem tableName_inj (hp : isFlat p = true) (hc : isFlat c = true) (hp' : isFlat p' = true)
    (hc' : isFlat c' = true) (h : tableName p c = tableName p' c') : p = p' ∧ c = c' := by
  have hpieces := pieces_tableName hp hc
  rw [h, pieces_tableName hp' hc', map_toList_inj] at hpieces
  simpa [eq_comm] using hpieces

/-- The project of a table is found again, whatever its collection is called. -/
theorem head?_pieces_tableName (hp : isFlat p = true) (c : String) :
    (Text.pieces (· == '_') (tableName p c).toList).head? = some p.toList := by
  have htable : (tableName p c).toList = p.toList ++ '_' :: c.toList := by simp [tableName]
  rw [htable, Text.pieces_append (underscore_not_mem_flat hp)]
  rfl

theorem project_eq_of_tableName_eq (hp : isFlat p = true) (hp' : isFlat p' = true)
    (h : tableName p c = tableName p' c') : p = p' := by
  have hhead := head?_pieces_tableName hp c
  rw [h, head?_pieces_tableName hp'] at hhead
  injection hhead with hlists
  exact (String.toList_inj.mp hlists).symm

theorem quotedTable_inj {project collection project' collection' : Value} {q : String}
    (h : quotedTable project collection = .ok q) (h' : quotedTable project' collection' = .ok q) :
    project = project' ∧ collection = collection' := by
  obtain ⟨p, c, rfl, hp, hc⟩ := quotedTable_eq_ok h
  obtain ⟨p', c', hq, hp', hc'⟩ := quotedTable_eq_ok h'
  obtain ⟨rfl, hpf⟩ := flat_eq_ok hp
  obtain ⟨rfl, hcf⟩ := flat_eq_ok hc
  obtain ⟨rfl, hpf'⟩ := flat_eq_ok hp'
  obtain ⟨rfl, hcf'⟩ := flat_eq_ok hc'
  have hname : tableName p c = tableName p' c' := by simpa [inQuotes] using hq
  obtain ⟨rfl, rfl⟩ := tableName_inj hpf hcf hpf' hcf' hname
  exact ⟨rfl, rfl⟩

/-- An accepted name is no table of events. -/
theorem flat_ne_tableName {t : String} (ht : isFlat t = true) : t ≠ tableName p c := by
  rintro rfl
  exact underscore_not_mem_flat ht (by simp [tableName])

/-! ## Keys -/

/-- A property of a collection of a project, all three under accepted names. -/
structure Place where
  project : String
  collection : String
  property : String
  isFlat_project : isFlat project = true
  isFlat_collection : isFlat collection = true
  isProperty_property : isProperty property = true

namespace Place

def statsKey (x : Place) : String := Name.statsKey x.project x.collection x.property

def rollupKey (x : Place) : String := Name.rollupKey x.project x.collection x.property

theorem pieces_statsKey (x : Place) :
    Text.pieces (· == '_') x.statsKey.toList
      = [x.project, x.collection, x.property].map String.toList := by
  refine pieces_eq (by simp) ?_
    (by simp [statsKey, Name.statsKey, List.intercalate_cons_cons])
  simp [underscore_not_mem_flat x.isFlat_project, underscore_not_mem_flat x.isFlat_collection,
    underscore_not_mem_property x.isProperty_property]

theorem pieces_rollupKey (x : Place) :
    Text.pieces (· == '_') x.rollupKey.toList
      = [x.project, x.collection, x.property, "hist"].map String.toList := by
  refine pieces_eq (by simp) ?_
    (by simp [rollupKey, Name.rollupKey, Name.statsKey, List.intercalate_cons_cons])
  simp [underscore_not_mem_flat x.isFlat_project, underscore_not_mem_flat x.isFlat_collection,
    underscore_not_mem_property x.isProperty_property]

theorem ext_names {x y : Place} (hp : x.project = y.project) (hc : x.collection = y.collection)
    (hx : x.property = y.property) : x = y := by
  cases x
  cases y
  cases hp
  cases hc
  cases hx
  rfl

theorem statsKey_injective : Function.Injective statsKey := by
  intro x y h
  have hpieces := x.pieces_statsKey
  rw [h, y.pieces_statsKey, map_toList_inj] at hpieces
  injection hpieces with hp hpieces
  injection hpieces with hc hpieces
  injection hpieces with hx _
  exact ext_names hp.symm hc.symm hx.symm

/-- No other names at all, accepted or not, make up the key of statistics of a property. -/
theorem eq_of_statsKey_eq (x : Place) {project collection property : String}
    (h : Name.statsKey project collection property = x.statsKey) :
    project = x.project ∧ collection = x.collection ∧ property = x.property := by
  -- an underscore inside one of the names would be one too many
  have hp := List.count_eq_zero.mpr (underscore_not_mem_flat x.isFlat_project)
  have hc := List.count_eq_zero.mpr (underscore_not_mem_flat x.isFlat_collection)
  have hx := List.count_eq_zero.mpr (underscore_not_mem_property x.isProperty_property)
  have hcount := congrArg (fun key => key.toList.count '_') h
  simp [statsKey, Name.statsKey, hp, hc, hx] at hcount
  have hparts : ∀ part ∈ [project, collection, property], '_' ∉ part.toList := by
    intro part hpart
    rw [← List.count_eq_zero]
    simp only [List.mem_cons, List.not_mem_nil, or_false] at hpart
    rcases hpart with rfl | rfl | rfl
    · omega
    · omega
    · omega
  have hpieces := x.pieces_statsKey
  rw [← h, pieces_eq (by simp) hparts (by simp [Name.statsKey, List.intercalate_cons_cons]),
    map_toList_inj] at hpieces
  simpa using hpieces

theorem rollupKey_injective : Function.Injective rollupKey := by
  intro x y h
  have hpieces := x.pieces_rollupKey
  rw [h, y.pieces_rollupKey, map_toList_inj] at hpieces
  injection hpieces with hp hpieces
  injection hpieces with hc hpieces
  injection hpieces with hx _
  exact ext_names hp.symm hc.symm hx.symm

theorem statsKey_ne_rollupKey (x y : Place) : x.statsKey ≠ y.rollupKey := by
  intro h
  have hpieces := x.pieces_statsKey
  rw [h, y.pieces_rollupKey, map_toList_inj] at hpieces
  simp at hpieces

end Place

/-- The keys of the properties of a project. -/
def KeyOf (project key : String) : Prop :=
  ∃ x : Place, x.project = project ∧ (key = x.statsKey ∨ key = x.rollupKey)

theorem KeyOf.head?_pieces {project key : String} (h : KeyOf project key) :
    (Text.pieces (· == '_') key.toList).head? = some project.toList := by
  obtain ⟨x, rfl, rfl | rfl⟩ := h
  · rw [x.pieces_statsKey]
    rfl
  · rw [x.pieces_rollupKey]
    rfl

/-- A key is of one project. -/
theorem KeyOf.project_unique {project other key : String} (h : KeyOf project key)
    (h' : KeyOf other key) : other = project := by
  have hlists := h'.head?_pieces.symm.trans h.head?_pieces
  injection hlists with hlists
  exact String.toList_inj.mp hlists

end Name
end EventQuery
