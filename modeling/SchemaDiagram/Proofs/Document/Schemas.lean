import SchemaDiagram.Proofs.Document.Formed
import SchemaDiagram.Proofs.Document.Skipped

/-!
# SchemaDiagram.Proofs.Document.Schemas

The schemas of a document and what they hold, for every text.

```
Table shop.items …          public   first in every document
Ref: crm.people.id > …      shop     used by a table
Enum shop.colour …          crm      used by a reference, and these are read after the tables
```

1. Schemas stand in the order in which they are first used (`pairwise_idxOf_eraseDups`), and only
   the default one may be empty.
2. A document is what one pass over the declarations leaves that opens a schema where it finds none
   (`Declarations.groups_eq_opened`).
3. Every declaration is in one schema and none is lost or doubled (`Holds.tables_perm` and its
   companions).
4. `isShaped_of_ofSource` puts these together with the form of references and types.
-/

namespace SchemaDiagram.Document

/-! ## First occurrences -/

section

variable [BEq α] [LawfulBEq α]

/-- A new last value is kept only if it is new. -/
theorem eraseDups_concat (as : List α) (a : α) [Decidable (a ∈ as)] :
    (as ++ [a]).eraseDups = if a ∈ as then as.eraseDups else as.eraseDups ++ [a] := by
  rw [List.eraseDups_append]
  split <;> simp [List.removeAll, List.eraseDups_cons, *]

/-- Where duplicates are erased, values stand in the order of their first occurrences. -/
theorem pairwise_idxOf_eraseDups (as : List α) :
    as.eraseDups.Pairwise fun a b => as.idxOf a < as.idxOf b := by
  classical
  induction as using List.reverseRecOn with
  | nil => simp
  | append_singleton as a ih =>
    have hmem : ∀ b ∈ as.eraseDups, (as ++ [a]).idxOf b = as.idxOf b := fun b hb =>
      List.idxOf_append_of_mem (List.mem_eraseDups.1 hb)
    have ih : as.eraseDups.Pairwise fun b c => (as ++ [a]).idxOf b < (as ++ [a]).idxOf c :=
      ih.imp_of_mem fun hb hc h => by rwa [hmem _ hb, hmem _ hc]
    rw [eraseDups_concat]
    split
    · exact ih
    · rename_i hnew
      refine List.pairwise_append.2 ⟨ih, List.pairwise_singleton _ _, ?_⟩
      rintro b hb c hc
      obtain rfl := List.mem_singleton.1 hc
      rw [hmem b hb, List.idxOf_append_of_notMem hnew]
      have := List.idxOf_lt_length_of_mem (List.mem_eraseDups.1 hb)
      omega

end

/-! ## Schemas and their use -/

namespace Declarations

variable (d : Declarations)

/-- The schemas that declarations belong to: those of the tables, then those of the references, then
those of the enumerations. -/
def uses : List String :=
  d.tables.map (schemaOf ·.schemaName) ++ d.references.map (schemaOf ·.source.schemaName)
    ++ d.enumerations.map (schemaOf ·.schemaName)

theorem schemaNames_eq_eraseDups : d.schemaNames = (defaultSchema :: d.uses).eraseDups := rfl

/-- The default schema is the first, and is not repeated. -/
theorem schemaNames_eq_cons :
    d.schemaNames = defaultSchema :: (d.uses.filter fun n => !n == defaultSchema).eraseDups :=
  List.eraseDups_cons

/-- The schemas behind the default one are in the order of their first use. -/
theorem pairwise_idxOf_schemaNames :
    d.schemaNames.tail.Pairwise fun m n => d.uses.idxOf m < d.uses.idxOf n := by
  have hnames := pairwise_idxOf_eraseDups (defaultSchema :: d.uses)
  rw [← schemaNames_eq_eraseDups] at hnames
  have hne : ∀ n ∈ d.schemaNames.tail, defaultSchema ≠ n := by
    rw [schemaNames_eq_cons]
    intro n hn h
    simp [← h] at hn
  refine hnames.tail.imp_of_mem fun {m n} hm hn h => ?_
  rw [List.idxOf_cons_ne _ (hne m hm), List.idxOf_cons_ne _ (hne n hn)] at h
  omega

/-- The schemas behind the default one are used. -/
theorem mem_uses_of_mem_tail {name : String} (h : name ∈ d.schemaNames.tail) : name ∈ d.uses := by
  rw [schemaNames_eq_cons, List.tail_cons, List.mem_eraseDups] at h
  exact List.mem_of_mem_filter h

/-- Behind the default schema stand the others, each with what belongs to it. -/
theorem tail_groups :
    d.groups.tail = d.schemaNames.tail.map fun name => { d.inSchema name with name } :=
  List.map_tail.symm

/-- A schema that is used has a declaration. -/
theorem inSchema_ne_nil {name : String} (h : name ∈ d.uses) :
    (d.inSchema name).tables ≠ [] ∨ (d.inSchema name).references ≠ [] ∨
      (d.inSchema name).enumerations ≠ [] := by
  simp only [uses, List.mem_append, List.mem_map] at h
  rcases h with (⟨t, ht, hname⟩ | ⟨r, hr, hname⟩) | ⟨e, he, hname⟩
  · exact .inl (List.ne_nil_of_mem (List.mem_filter.2 ⟨ht, beq_iff_eq.2 hname⟩))
  · exact .inr (.inl (List.ne_nil_of_mem (List.mem_filter.2 ⟨hr, beq_iff_eq.2 hname⟩)))
  · exact .inr (.inr (List.ne_nil_of_mem (List.mem_filter.2 ⟨he, beq_iff_eq.2 hname⟩)))

/-! ## Opening schemas on demand -/

/-- Adds declarations to the group of a schema, which is opened behind the others if it is not
there. -/
def addTo (name : String) (new : Declarations) : List SchemaGroup → List SchemaGroup
  | [] => [{ new with name }]
  | g :: gs =>
    if g.name = name then { g.toDeclarations ++ new with name } :: gs
    else g :: addTo name new gs

/-- The declarations one by one, each with its schema: the tables, then the references, then the
enumerations. -/
def singles : List (String × Declarations) :=
  d.tables.map (fun t => (schemaOf t.schemaName, { tables := [t] }))
    ++ d.references.map (fun r => (schemaOf r.source.schemaName, { references := [r] }))
    ++ d.enumerations.map (fun e => (schemaOf e.schemaName, { enumerations := [e] }))

/-- The schemas that are open when each declaration has been added to its own, the default one from
the start. -/
def opened : List SchemaGroup :=
  d.singles.foldl (fun gs s => addTo s.1 s.2 gs) [{ name := defaultSchema }]

/-- A group that is there is added to, and no other. -/
theorem addTo_of_mem {names : List String} {name : String} (g : String → Declarations)
    (new : Declarations) (hnodup : names.Nodup) (h : name ∈ names) :
    addTo name new (names.map fun n => { g n with name := n }) =
      names.map fun n => { (if n = name then g n ++ new else g n) with name := n } := by
  induction names with
  | nil => contradiction
  | cons n names ih =>
    rw [List.nodup_cons] at hnodup
    rw [List.map_cons, List.map_cons, addTo]
    by_cases hn : n = name
    · subst hn
      have hothers : ∀ m ∈ names, m ≠ n := fun m hm he => hnodup.1 (he ▸ hm)
      simp only [if_true]
      congr 1
      refine List.map_congr_left fun m hm => ?_
      rw [if_neg (hothers m hm)]
    · simp only [if_neg hn]
      rw [ih hnodup.2 ((List.mem_cons.1 h).resolve_left fun h => hn h.symm)]

/-- A group that is not there is opened. -/
theorem addTo_of_not_mem {names : List String} {name : String} (g : String → Declarations)
    (new : Declarations) (h : name ∉ names) :
    addTo name new (names.map fun n => { g n with name := n }) =
      (names.map fun n => { g n with name := n }) ++ [{ new with name }] := by
  induction names with
  | nil => rfl
  | cons n names ih =>
    rw [List.mem_cons, not_or] at h
    rw [List.map_cons, addTo, if_neg fun he => h.1 he.symm, ih h.2]
    rfl

/-- What has been added to a schema. -/
def added (name : String) (us : List (String × Declarations)) : Declarations :=
  concat ((us.filter (·.1 == name)).map (·.2))

/-- What is added to a schema is added part by part. -/
theorem added_append (name : String) (us vs : List (String × Declarations)) :
    added name (us ++ vs) = added name us ++ added name vs := by
  rw [added, List.filter_append, List.map_append, concat_append]
  rfl

/-- A declaration is added to its own schema, and to no other. -/
theorem added_singleton (name : String) (u : String × Declarations) :
    added name [u] = if name = u.1 then u.2 else {} := by
  by_cases h : name = u.1
  · have hu : [u].filter (·.1 == name) = [u] := List.filter_cons_of_pos (beq_iff_eq.2 h.symm)
    rw [if_pos h, added, hu]
    exact append_empty u.2
  · have hu : [u].filter (·.1 == name) = [] :=
      List.filter_cons_of_neg fun he => h (beq_iff_eq.1 he).symm
    rw [if_neg h, added, hu]
    rfl

/-- One more declaration is added to its own schema behind those before it. -/
theorem added_concat (name : String) (us : List (String × Declarations))
    (u : String × Declarations) :
    added name (us ++ [u]) = if name = u.1 then added name us ++ u.2 else added name us := by
  rw [added_append, added_singleton]
  split
  · rfl
  · exact append_empty _

/-- Nothing is added to a schema without declarations. -/
theorem added_of_not_mem {name : String} {us : List (String × Declarations)}
    (h : name ∉ us.map (·.1)) : added name us = {} := by
  have hnone : us.filter (·.1 == name) = [] :=
    List.filter_eq_nil_iff.2 fun u hu he => h (List.mem_map.2 ⟨u, hu, beq_iff_eq.1 he⟩)
  rw [added, hnone]
  rfl

/-- Each schema has what has been added to it, the schemas in the order of their first use. -/
theorem foldl_addTo (us : List (String × Declarations)) :
    us.foldl (fun gs u => addTo u.1 u.2 gs) [{ name := defaultSchema }] =
      (defaultSchema :: us.map (·.1)).eraseDups.map fun n => { added n us with name := n } := by
  induction us using List.reverseRecOn with
  | nil => rfl
  | append_singleton us u ih =>
    rw [List.foldl_concat, ih, List.map_append, List.map_singleton, ← List.cons_append,
      eraseDups_concat]
    by_cases hu : u.1 ∈ defaultSchema :: us.map (·.1)
    · rw [if_pos hu, addTo_of_mem _ _ (nodup_eraseDups _) (List.mem_eraseDups.2 hu)]
      exact List.map_congr_left fun n _ => by rw [added_concat]
    · have hnew : added u.1 us = {} := added_of_not_mem fun h => hu (List.mem_cons_of_mem _ h)
      rw [if_neg hu, addTo_of_not_mem _ _ (fun h => hu (List.mem_eraseDups.1 h)), List.map_append,
        List.map_singleton, added_concat, if_pos rfl, hnew, empty_append]
      congr 1
      refine List.map_congr_left fun n hn => ?_
      have hne : n ≠ u.1 := fun h => hu (h ▸ List.mem_eraseDups.1 hn)
      rw [added_concat, if_neg hne]

/-- The declarations one by one use the schemas in the order in which they are used. -/
theorem map_fst_singles : d.singles.map (·.1) = d.uses := by
  simp [singles, uses, Function.comp_def]

/-- What is added to a schema out of declarations of one kind is what belongs to it. -/
theorem added_map {f : List α → Declarations} (hnil : f [] = {})
    (hcons : ∀ a as, f (a :: as) = f [a] ++ f as) (name : String) (schema : α → String)
    (as : List α) :
    added name (as.map fun a => (schema a, f [a])) = f (as.filter (schema · == name)) := by
  induction as with
  | nil => exact hnil.symm
  | cons a as ih =>
    rw [List.map_cons, ← List.singleton_append, added_append, added_singleton, ih]
    by_cases h : schema a = name
    · rw [if_pos h.symm, List.filter_cons, if_pos (beq_iff_eq.2 h)]
      exact (hcons a _).symm
    · rw [if_neg fun he => h he.symm, List.filter_cons, if_neg fun he => h (beq_iff_eq.1 he)]
      rfl

/-- What belongs to a schema is what is added to it. -/
theorem inSchema_eq_added (name : String) : d.inSchema name = added name d.singles := by
  have htables := added_map (f := fun ts => { tables := ts }) rfl (fun _ _ => rfl) name
    (schemaOf ·.schemaName) d.tables
  have hreferences := added_map (f := fun rs => { references := rs }) rfl (fun _ _ => rfl) name
    (schemaOf ·.source.schemaName) d.references
  have henumerations := added_map (f := fun es => { enumerations := es }) rfl (fun _ _ => rfl) name
    (schemaOf ·.schemaName) d.enumerations
  rw [singles, added_append, added_append, htables, hreferences, henumerations]
  show _ = Declarations.append (Declarations.append _ _) _
  simp [inSchema, Declarations.append]

/-- **Grouping is one pass**: the groups of declarations are those that are open when each
declaration has been added to its own. -/
theorem groups_eq_opened : d.groups = d.opened := by
  rw [opened, foldl_addTo, map_fst_singles, ← schemaNames_eq_eraseDups, groups]
  exact List.map_congr_left fun n _ => by rw [inSchema_eq_added]

end Declarations

/-! ## Nothing is lost -/

/-- Parted by a key whose values are known, a list is the parts together. -/
theorem perm_flatMap_filter [BEq β] [LawfulBEq β] {key : α → β} {keys : List β}
    (hkeys : keys.Nodup) {as : List α} (h : ∀ a ∈ as, key a ∈ keys) :
    (keys.flatMap fun k => as.filter (key · == k)).Perm as := by
  induction keys generalizing as with
  | nil =>
    obtain rfl : as = [] := List.eq_nil_iff_forall_not_mem.2 fun a ha => by simpa using h a ha
    exact .rfl
  | cons k keys ih =>
    rw [List.nodup_cons] at hkeys
    rw [List.flatMap_cons]
    refine .trans (.append_left _ ?_) (List.filter_append_perm (key · == k) as)
    -- the other parts are parts of what does not have the first key
    have hothers : (keys.flatMap fun l => as.filter (key · == l)) =
        keys.flatMap fun l => (as.filter fun a => !key a == k).filter (key · == l) := by
      refine List.flatMap_congr fun l hl => ?_
      rw [List.filter_filter]
      refine List.filter_congr fun a _ => ?_
      have hne : l ≠ k := fun h => hkeys.1 (h ▸ hl)
      by_cases hal : key a = l <;> simp [hal, hne]
    rw [hothers]
    refine ih hkeys.2 fun a ha => ?_
    obtain ⟨ha, hk⟩ := List.mem_filter.1 ha
    exact (List.mem_cons.1 (h a ha)).resolve_left (by simpa using hk)

namespace Holds

variable {doc : SchemaDiagram.Document} {d : Declarations}

/-- Declarations of one kind are those of all groups together. -/
theorem perm_flatMap (h : doc.Holds d) {part : SchemaGroup → List α} {as : List α}
    {schema : α → String} (hpart : ∀ g ∈ doc.schemas, part g = as.filter (schema · == g.name))
    (hmem : ∀ a ∈ as, schema a ∈ doc.schemas.map (·.name)) :
    (doc.schemas.flatMap part).Perm as := by
  have hgroups : doc.schemas.flatMap part =
      (doc.schemas.map (·.name)).flatMap fun n => as.filter (schema · == n) := by
    rw [List.flatMap_map]
    exact List.flatMap_congr hpart
  rw [hgroups]
  exact perm_flatMap_filter h.nodup_names hmem

/-- The tables of all schemas together are those that are declared. -/
theorem tables_perm (h : doc.Holds d) : (doc.schemas.flatMap (·.tables)).Perm d.tables :=
  h.perm_flatMap h.tables_eq h.table_mem

/-- The references of all schemas together are those that are declared. -/
theorem references_perm (h : doc.Holds d) :
    (doc.schemas.flatMap (·.references)).Perm d.references :=
  h.perm_flatMap h.references_eq h.reference_mem

/-- The enumerations of all schemas together are those that are declared. -/
theorem enumerations_perm (h : doc.Holds d) :
    (doc.schemas.flatMap (·.enumerations)).Perm d.enumerations :=
  h.perm_flatMap h.enumerations_eq h.enumeration_mem

end Holds

/-! ## The shape of a document -/

/-- What is true of the document of declarations: its schemas are the default one and those that are
used, in the order of their first use; each has the declarations that belong to it, in their order,
so that none is lost or doubled; and references and types are formed. -/
structure IsShaped (doc : SchemaDiagram.Document) (d : Declarations) : Prop where
  holds : doc.Holds d
  head : doc.schemas.head?.map (·.name) = some "public"
  used : ∀ g ∈ doc.schemas.tail, g.tables ≠ [] ∨ g.references ≠ [] ∨ g.enumerations ≠ []
  ordered : doc.schemas.tail.Pairwise fun g h => d.uses.idxOf g.name < d.uses.idxOf h.name
  tables_perm : (doc.schemas.flatMap (·.tables)).Perm d.tables
  references_perm : (doc.schemas.flatMap (·.references)).Perm d.references
  enumerations_perm : (doc.schemas.flatMap (·.enumerations)).Perm d.enumerations
  formed : ∀ g ∈ doc.schemas, g.toDeclarations.IsFormed

/-- A schema has formed references and types if all declarations have. -/
theorem Declarations.IsFormed.inSchema {d : Declarations} (h : d.IsFormed) (name : String) :
    (d.inSchema name).IsFormed where
  references r hr := h.references r (List.mem_of_mem_filter hr)
  types t ht := h.types t (List.mem_of_mem_filter ht)

/-- Formed declarations make a document that is shaped as they are. -/
theorem isShaped_ofDeclarations {d : Declarations} (h : d.IsFormed) :
    (ofDeclarations d).IsShaped d := by
  have hholds := holds_ofDeclarations d
  refine ⟨hholds, ?_, fun g hg => ?_, ?_, hholds.tables_perm, hholds.references_perm,
    hholds.enumerations_perm, fun g hg => ?_⟩
  · rw [ofDeclarations, Declarations.groups, d.schemaNames_eq_cons]
    rfl
  · rw [ofDeclarations, d.tail_groups] at hg
    obtain ⟨name, hname, rfl⟩ := List.mem_map.1 hg
    exact d.inSchema_ne_nil (d.mem_uses_of_mem_tail hname)
  · rw [ofDeclarations, d.tail_groups, List.pairwise_map]
    exact d.pairwise_idxOf_schemaNames
  · rw [d.eq_inSchema_of_mem_groups hg]
    exact h.inSchema g.name

/-- **Every document is in good shape**: the declarations of a text, in the order in which they are
complete, are grouped by schema, the default one first and the others as they are first used, each
declaration in its own schema and in its order; the references and the types of fields are
formed. -/
theorem isShaped_of_ofSource {source : String} {doc : SchemaDiagram.Document}
    (h : Document.ofSource source = .ok doc) :
    ∃ parts, Reads source parts ∧ doc.IsShaped (.concat (parts.map (·.2))) := by
  obtain ⟨parts, hreads, rfl⟩ := exists_reads h
  exact ⟨parts, hreads,
    isShaped_ofDeclarations (Grammar.isFormed_declarations hreads.declares.declarations)⟩

/-- A table of one schema, with a type that has arguments, and a reference from another. -/
theorem isShaped_of_table_and_reference :
    ∃ doc, Document.ofSource "Table s.a \x7b x f(1)[] \x7d Ref: t.b.y > a" = .ok doc ∧
      doc.schemas.map (·.name) = ["public", "s", "t"] ∧
      ∃ parts, Reads "Table s.a \x7b x f(1)[] \x7d Ref: t.b.y > a" parts ∧
        doc.IsShaped (.concat (parts.map (·.2))) := by
  have h : Document.ofSource "Table s.a \x7b x f(1)[] \x7d Ref: t.b.y > a" = .ok (ofDeclarations {
      tables := [{
        name := "a"
        schemaName := some "s"
        fields := [{ name := "x", type := .expression "f(1)[]" (some "1") }]
      }]
      references := [.of none ⟨some "t", "b", ["y"]⟩ .manyToOne ⟨none, "a", []⟩]
    }) := by decide +kernel
  exact ⟨_, h, rfl, isShaped_of_ofSource h⟩

end SchemaDiagram.Document
