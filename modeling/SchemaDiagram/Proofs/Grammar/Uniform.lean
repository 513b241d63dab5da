import SchemaDiagram.Grammar
import SchemaDiagram.Proofs.Parser.Uniform

/-!
# SchemaDiagram.Proofs.Grammar.Uniform

What the grammar sees of the positions of tokens.

Only the type of a field looks at positions: a type stands on the line of the field's name, which is
the token before it.  So all parsers but those of fields are uniform for every relation that keeps
tokens, and the whole grammar is uniform for `SameShape`, which also keeps whether a token stands on
the line of the one before.
-/

namespace SchemaDiagram

/-! ## Shapes -/

/-- For each token but the first, whether it stands on the line of the one before. -/
def joined : List Located → List Bool
  | t :: u :: ts => (t.position.line == u.position.line) :: joined (u :: ts)
  | _ => []

/-- The same tokens, of which the same ones stand on a line with the one before. -/
structure SameShape (ts ts' : List Located) : Prop where
  tokens : ts'.map (·.token) = ts.map (·.token)
  joined : joined ts' = joined ts

namespace SameShape

variable {t t' : Located} {ts ts' : List Located}

/-- Lists of the same shape are equally long. -/
theorem length_eq (h : SameShape ts ts') : ts'.length = ts.length := by
  simpa using congrArg List.length h.tokens

/-- Behind their first tokens, lists of the same shape have the same shape. -/
theorem tail (h : SameShape (t :: ts) (t' :: ts')) : SameShape ts ts' := by
  obtain ⟨htokens, hjoined⟩ := h
  rw [List.map_cons, List.map_cons, List.cons.injEq] at htokens
  refine ⟨htokens.2, ?_⟩
  cases ts with
  | nil => rw [List.map_eq_nil_iff.1 htokens.2]
  | cons u ts =>
    obtain ⟨u', rest, rfl, -⟩ := List.map_eq_cons_iff.1 htokens.2
    exact (List.cons.inj hjoined).2

instance : Parser.Tokenwise SameShape where
  nil h := List.map_eq_nil_iff.1 h.tokens
  cons h := by
    obtain ⟨t', rest, rfl, ht, -⟩ := List.map_eq_cons_iff.1 h.tokens
    exact ⟨t', rest, rfl, ht, h.tail⟩

/-- The second token of both lists stands on the line of the first, or that of neither does. -/
theorem line_eq_iff (h : SameShape (t :: ts) (t' :: ts')) :
    ts'.head?.map (·.position.line) = some t'.position.line ↔
      ts.head?.map (·.position.line) = some t.position.line := by
  cases ts with
  | nil => rw [Parser.Tokenwise.nil h.tail]; simp
  | cons u ts =>
    obtain ⟨u', rest, rfl, -⟩ := Parser.Tokenwise.cons h.tail
    have hline := (List.cons.inj h.joined).1
    rw [Bool.eq_iff_iff, beq_iff_eq, beq_iff_eq] at hline
    simpa [eq_comm] using hline

end SameShape

end SchemaDiagram

namespace SchemaDiagram.Grammar

open SchemaDiagram.Parser

section

variable {R : List Located → List Located → Prop} [Tokenwise R]

/-! ## Names and paths -/

/-- A table's name is read without a look at lines. -/
theorem uniform_qualifiedName (e : Expected) : Uniform R (qualifiedName e) := by
  refine (uniform_name e).bind fun _ => (uniform_accept _).bind fun b => ?_
  split
  · exact (uniform_name e).map
  · exact uniform_pure _

/-- A list of fields is read without a look at lines. -/
theorem uniform_fieldList : Uniform R fieldList := by
  refine (uniform_acceptBoth _ _).bind fun b => ?_
  split
  · exact (uniform_name _).bind fun _ => (uniform_namesAfter _ _ _).bind fun _ =>
      (uniform_symbol _ _).map
  · exact uniform_pure _

/-- A path is read without a look at lines, so it may be broken anywhere. -/
theorem uniform_path : Uniform R path :=
  (uniform_name _).bind fun _ => (uniform_namesAfter _ _ _).bind fun _ => uniform_fieldList.map

theorem uniform_relation : Uniform R relation := uniform_take _ _

/-! ## Settings -/

/-- The text of a setting is read without a look at lines. -/
theorem uniform_settingText : Uniform R settingText := by
  refine (uniform_take? _).bind fun text => ?_
  split
  · exact uniform_pure _
  · refine (uniform_accept _).bind fun b => ?_
    split
    · exact (uniform_take _ _).map
    · exact (uniform_take _ _).bind fun _ => (uniform_takeAll _).map

/-- The value of a setting is read without a look at lines. -/
theorem uniform_settingValue (key : String) : Uniform R (settingValue key) := by
  unfold settingValue
  split
  · exact uniform_relation.bind fun _ => uniform_path.map
  · exact uniform_settingText.map

/-- A value behind its colon, or none, is read without a look at lines. -/
theorem uniform_optionalValue (key : String) : Uniform R (optionalValue key) := by
  refine (uniform_accept _).bind fun b => ?_
  split
  · exact (uniform_settingValue key).map
  · exact uniform_pure _

theorem uniform_settingKey : Uniform R settingKey :=
  (uniform_take _ _).bind fun _ => (uniform_takeAll _).map

/-- The end of a setting is read without a look at lines. -/
theorem uniform_settingEnd : Uniform R settingEnd := by
  intro ts ts' h
  unfold settingEnd
  rw [Tokenwise.begins_eq h]
  split
  · exact .ok () h
  · exact uniform_symbol _ _ h

/-- A setting is read without a look at lines. -/
theorem uniform_setting : Uniform R setting :=
  uniform_settingKey.bind fun key => (uniform_optionalValue key).bind fun _ =>
    uniform_settingEnd.map

theorem uniform_settingsBody : Uniform R settingsBody := uniform_setting.manyUntil

/-- Settings are read without a look at lines. -/
theorem uniform_settings : Uniform R settings := by
  refine (uniform_accept _).bind fun b => ?_
  split
  · exact uniform_settingsBody
  · exact uniform_pure _

/-! ## Blocks -/

/-- A block is passed over without a look at lines. -/
theorem uniform_blockBody (depth : Nat) : Uniform R (blockBody depth) := by
  intro ts
  induction ts generalizing depth with
  | nil =>
    intro ts' h
    cases Tokenwise.nil h
    exact .error _ h
  | cons t ts ih =>
    intro ts' h
    obtain ⟨t', rest, rfl, ht, hrest⟩ := Tokenwise.cons h
    by_cases ho : t.token = .symbol .openBrace
    · rw [blockBody_of_open ho, blockBody_of_open (ht.trans ho)]
      exact ih _ hrest
    · by_cases hc : t.token = .symbol .closeBrace
      · cases depth with
        | zero =>
          rw [blockBody_of_close hc, blockBody_of_close (ht.trans hc)]
          exact .ok () hrest
        | succ depth =>
          rw [blockBody_of_close_inner hc, blockBody_of_close_inner (ht.trans hc)]
          exact ih _ hrest
      · rw [blockBody_of_other ho hc, blockBody_of_other (ht ▸ ho) (ht ▸ hc)]
        exact ih _ hrest

/-- A declaration that says nothing is passed over without a look at lines. -/
theorem uniform_skipped : Uniform R skipped := by
  have hhead : Uniform R blockHead := by
    refine (uniform_accept _).bind fun b => ?_
    split
    · exact uniform_settingsBody.map
    · exact uniform_take _ _
  exact hhead.manyUntil.bind fun _ => uniform_blockBody 0

/-! ## Types -/

/-- Once a type has begun, it is read without a look at lines. -/
theorem uniform_typeExpression (first : String) : Uniform R (typeExpression first) := by
  have hqualifier : Uniform R typeQualifier := by
    refine (uniform_accept _).bind fun b => ?_
    split
    · exact (uniform_name _).map
    · exact uniform_pure _
  have harguments : Uniform R typeArguments := by
    refine (uniform_accept _).bind fun b => ?_
    split
    · exact (uniform_takeAll _).bind fun _ => (uniform_symbol _ _).map
    · exact uniform_pure _
  exact hqualifier.bind fun _ => harguments.bind fun _ => (uniform_acceptBoth _ _).map

/-- A type sees whether the next token stands on the line of the field's name. -/
theorem agree_fieldType {line line' : Option Nat} {ts ts' : List Located} (h : R ts ts')
    (hline : ts'.head?.map (·.position.line) = line' ↔ ts.head?.map (·.position.line) = line) :
    Agree R (fieldType line ts) (fieldType line' ts') := by
  rw [fieldType, fieldType, line?_then, line?_then]
  by_cases hl : ts.head?.map (·.position.line) = line
  · rw [if_pos hl, if_pos (hline.2 hl)]
    refine ((uniform_take? _).bind fun text => ?_) h
    split
    · exact uniform_pure _
    · refine (uniform_take? _).bind fun first => ?_
      split
      · exact uniform_typeExpression _
      · exact uniform_pure _
  · rw [if_neg hl, if_neg fun hl' => hl (hline.1 hl')]
    exact .ok _ h

/-! ## References and enumerations -/

theorem uniform_reference (n : Option String) : Uniform R (reference n) :=
  uniform_path.bind fun _ => uniform_relation.bind fun _ => uniform_path.bind fun _ =>
    uniform_settings.map

/-- References are read without a look at lines. -/
theorem uniform_references : Uniform R references := by
  refine (uniform_take? _).bind fun n => (uniform_accept _).bind fun b => ?_
  split
  · exact (uniform_reference n).map
  · exact (uniform_symbol _ _).bind fun _ => ((uniform_reference n).beforeEnd _).manyUntil

/-- An enumeration is read without a look at lines. -/
theorem uniform_enumeration : Uniform R enumeration :=
  (uniform_qualifiedName _).bind fun _ => (uniform_symbol _ _).bind fun _ =>
    Uniform.map (Uniform.manyUntil ((uniform_name _).bind fun _ => uniform_settings.map))

end

/-! ## Tables -/

/-- The name of a field is followed by its type, whose line is compared with that of the name. -/
theorem uniform_field (schemaName : Option String) (tableName : String) :
    Uniform SameShape (field schemaName tableName) := by
  intro ts ts' h
  rw [field, line?_then, line?_then]
  cases ts with
  | nil =>
    cases Tokenwise.nil h
    exact .error _ h
  | cons t ts =>
    obtain ⟨t', ts', rfl, ht, hrest⟩ := Tokenwise.cons h
    cases hn : t.token.name? with
    | none =>
      rw [bind_of_error (name_of_none hn), bind_of_error (name_of_none (ht ▸ hn))]
      exact .error _ h
    | some n =>
      rw [bind_of_ok (name_of_some hn), bind_of_ok (name_of_some (ht ▸ hn))]
      exact (agree_fieldType hrest h.line_eq_iff).bind fun _ _ _ _ hmid =>
        uniform_settings.map hmid

/-- An item is read alike where tokens are on the same lines relative to each other. -/
theorem uniform_tableItem (schemaName : Option String) (tableName : String) :
    Uniform SameShape (tableItem schemaName tableName) := by
  refine (uniform_acceptBoth _ _).bind fun b => ?_
  split
  · exact (uniform_take _ _).map
  refine (uniform_acceptBoth _ _).bind fun b => ?_
  split
  · exact (uniform_take _ _).bind fun _ => (uniform_symbol _ _).map
  refine (uniform_acceptBoth _ _).bind fun b => ?_
  split
  · exact (uniform_blockBody 0).map
  · exact (uniform_field _ _).map

/-- A table is read alike from lists of the same shape. -/
theorem uniform_table : Uniform SameShape table := by
  have halias : Uniform SameShape tableAlias := by
    refine (uniform_accept _).bind fun b => ?_
    split
    · exact (uniform_name _).map
    · exact uniform_pure _
  exact (uniform_qualifiedName _).bind fun _ => halias.bind fun _ => uniform_settings.bind fun _ =>
    (uniform_symbol _ _).bind fun _ => ((uniform_tableItem _ _).beforeEnd _).manyUntil.map

/-! ## Documents -/

/-- A declaration is read alike from lists of the same shape. -/
theorem uniform_declaration : Uniform SameShape declaration := by
  refine (uniform_accept _).bind fun b => ?_
  split
  · exact uniform_table
  refine (uniform_accept _).bind fun b => ?_
  split
  · exact uniform_references.map
  refine (uniform_accept _).bind fun b => ?_
  split
  · exact uniform_enumeration.map
  refine (uniform_accept _).bind fun b => ?_
  split
  · exact uniform_skipped.map
  · exact uniform_fail _

/-- All declarations are read alike from lists of the same shape. -/
theorem uniform_declarations : Uniform SameShape declarations := by
  refine (uniform_declaration.repeatUntil fun ts ts' h => ?_).map
  cases ts with
  | nil => rw [Tokenwise.nil h]
  | cons t ts =>
    obtain ⟨t', rest, rfl, -⟩ := Tokenwise.cons h
    rfl

end SchemaDiagram.Grammar
