import SqlForms.Form.Query

/-! # Indexes, sequences and removal

    An index names its table, its method and its fields by clauses, a
    sequence its numbers.  Removal of an object may be conditional and may
    take with it what depends on the object. -/

namespace SqlForms.Schema

open Layout (Within)

/-! ## Indexes -/

/-- The clauses of an index. -/
def indexClauses : List Clause :=
  [⟨"on", .required, false⟩, ⟨"using", .optional, false⟩, ⟨"fields", .required, true⟩,
   ⟨"where", .optional, false⟩]

/-- An index from its clauses. -/
def indexLayout (sql : String) (name : Expr) (b : Bound) : Layout :=
  .concat
    [[sql, .part name], .leading " ON " (b.single? "on"), .leading " USING " (b.single? "using"),
     [" ("], .joined ", " ((b.get? "fields").getD []), [")"], Query.whereLayout b]

/-- The definition of an index. -/
def createIndex (tag sql : String) : List Expr → Layout
  | [] => .arity tag (.atLeast 1) []
  | name :: rest => .ofExcept ((Clause.split tag indexClauses rest).map (indexLayout sql name))

/-- An index mentions its name and operands of its clauses. -/
theorem indexLayout_mentions {sql : String} {name e : Expr} {b : Bound}
    (h : .part e ∈ indexLayout sql name b) : e = name ∨ ∃ m es, b.get? m = some es ∧ e ∈ es := by
  simp only [indexLayout, Layout.part_mem_concat, List.mem_cons, List.not_mem_nil, or_false,
    exists_eq_or_imp, exists_eq_left] at h
  rcases h with h | h | h | h | h | h | h
  · exact .inl (by simpa using h)
  · exact .inr ⟨_, Bound.single?_eq_some (by simpa using h)⟩
  · exact .inr ⟨_, Bound.single?_eq_some (by simpa using h)⟩
  · simp at h
  · cases hf : b.get? "fields" with
    | none => simp [hf] at h
    | some es => exact .inr ⟨_, es, hf, by simpa [hf] using h⟩
  · simp at h
  · exact .inr (Query.get?_of_where h)

/-- Statements that write a name and clauses mention nothing else. -/
theorem within_of_split {operator : String} {clauses : List Clause} {name : Expr}
    {rest : List Expr} {f : Bound → Layout}
    (hf : ∀ {b e}, Piece.part e ∈ f b → e = name ∨ ∃ m es, b.get? m = some es ∧ e ∈ es) :
    Within (name :: rest) (.ofExcept ((Clause.split operator clauses rest).map f)) := by
  refine Layout.within_ofExcept fun l hl e he => ?_
  obtain ⟨b, hb, rfl⟩ := map_eq_ok.mp hl
  rcases hf he with rfl | ⟨m, es, hes, hm⟩
  · exact .operand (by simp)
  · exact .operand (List.mem_cons_of_mem _ (Clause.mem_of_split hb hes hm))

/-- The definition of an index mentions its operands only. -/
theorem createIndex_within (tag sql : String) (es : List Expr) :
    Within es (createIndex tag sql es) := by
  unfold createIndex
  split
  · intro e h; simp at h
  · exact within_of_split indexLayout_mentions

/-! ## Sequences -/

/-- The clauses of a sequence. -/
def sequenceClauses : List Clause :=
  [⟨"increment", .optional, false⟩, ⟨"min-value", .optional, false⟩,
   ⟨"max-value", .optional, false⟩, ⟨"start", .optional, false⟩, ⟨"cache", .optional, false⟩,
   ⟨"cycle", .flag, false⟩]

/-- A sequence from its clauses. -/
def sequenceLayout (name : Expr) (b : Bound) : Layout :=
  .concat
    [["CREATE SEQUENCE ", .part name], .leading " INCREMENT " (b.single? "increment"),
     .leading " MINVALUE " (b.single? "min-value"), .leading " MAXVALUE " (b.single? "max-value"),
     .leading " START " (b.single? "start"), .leading " CACHE " (b.single? "cache"),
     if b.has "cycle" then [" CYCLE"] else []]

/-- The definition of a sequence. -/
def createSequence : List Expr → Layout
  | [] => .arity "create-sequence" (.atLeast 1) []
  | name :: rest =>
      .ofExcept ((Clause.split "create-sequence" sequenceClauses rest).map (sequenceLayout name))

/-- A sequence mentions its name and operands of its clauses. -/
theorem sequenceLayout_mentions {name e : Expr} {b : Bound}
    (h : .part e ∈ sequenceLayout name b) :
    e = name ∨ ∃ m es, b.get? m = some es ∧ e ∈ es := by
  simp only [sequenceLayout, Layout.part_mem_concat, List.mem_cons, List.not_mem_nil, or_false,
    exists_eq_or_imp, exists_eq_left] at h
  rcases h with h | h | h | h | h | h | h
  · exact .inl (by simpa using h)
  · exact .inr ⟨_, Bound.single?_eq_some (by simpa using h)⟩
  · exact .inr ⟨_, Bound.single?_eq_some (by simpa using h)⟩
  · exact .inr ⟨_, Bound.single?_eq_some (by simpa using h)⟩
  · exact .inr ⟨_, Bound.single?_eq_some (by simpa using h)⟩
  · exact .inr ⟨_, Bound.single?_eq_some (by simpa using h)⟩
  · split at h <;> simp at h

/-- The definition of a sequence mentions its operands only. -/
theorem createSequence_within (es : List Expr) : Within es (createSequence es) := by
  unfold createSequence
  split
  · intro e h; simp at h
  · exact within_of_split sequenceLayout_mentions

/-! ## Removal -/

/-- Operands without a leading `:if-exists`, and whether it was there. -/
def stripIfExists : List Expr → Bool × List Expr
  | [] => (false, [])
  | e :: es => if e.isKeyword "if-exists" then (true, es) else (false, e :: es)

/-- Operands without a trailing `:cascade`, and whether it was there. -/
def stripCascade (es : List Expr) : Bool × List Expr :=
  if es.getLast?.any (·.isKeyword "cascade") then (true, es.dropLast) else (false, es)

/-- The removal of an object of the given kind. -/
def drop (tag kind : String) (es : List Expr) : Layout :=
  let (ifExists, es) := stripIfExists es
  let (cascade, es) := stripCascade es
  match es with
  | [name] =>
      .concat
        [["DROP ", kind], if ifExists then [" IF EXISTS"] else [], [" ", .part name],
         if cascade then [" CASCADE"] else []]
  | es => .arity tag .oneName es

/-- What is left of the operands of a removal is among them. -/
theorem mem_of_mem_strip {es : List Expr} {e : Expr}
    (h : e ∈ (stripCascade (stripIfExists es).2).2) : e ∈ es := by
  have first : ∀ x ∈ (stripIfExists es).2, x ∈ es := by
    intro x hx
    cases es with
    | nil => simp [stripIfExists] at hx
    | cons y ys => simp only [stripIfExists] at hx; split at hx <;> simp_all
  unfold stripCascade at h
  split at h
  · exact first e (List.dropLast_subset _ h)
  · exact first e h

/-- A removal mentions its operands only. -/
theorem drop_within (tag kind : String) (es : List Expr) : Within es (drop tag kind es) := by
  intro e h
  simp only [drop] at h
  split at h
  next name hn =>
    have he : e = name := by
      simp only [Layout.part_mem_concat, List.mem_cons, List.not_mem_nil, or_false,
        exists_eq_or_imp, exists_eq_left] at h
      rcases h with h | h | h | h
      · simp at h
      · split at h <;> simp at h
      · simpa using h
      · split at h <;> simp at h
    exact .operand (mem_of_mem_strip (by simp [hn, he]))
  next => simp at h

end SqlForms.Schema
