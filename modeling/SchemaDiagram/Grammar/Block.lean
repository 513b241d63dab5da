import SchemaDiagram.Grammar.Setting

/-!
# SchemaDiagram.Grammar.Block

Blocks between braces that mean nothing for the diagram, and the declarations that have them.

```
skipped = { settings | token } block
block   = "{" … "}"
```

The braces of a block are counted, so that blocks inside it belong to it.
-/

namespace SchemaDiagram.Grammar

open SchemaDiagram.Parser

/-- Passes over a block, the opening brace taken; `depth` more blocks are open inside it. -/
def blockBody (depth : Nat) : Parser Unit := fun ts =>
  match ts with
  | [] => .error ⟨.closeBlock, []⟩
  | t :: rest =>
    if is .openBrace t.token then blockBody (depth + 1) rest
    else if is .closeBrace t.token then
      match depth with
      | 0 => .ok ((), rest)
      | inner + 1 => blockBody inner rest
    else blockBody depth rest

section

variable {t : Located} {ts : List Located}

/-- An opening brace opens one more block. -/
theorem blockBody_of_open (ht : t.token = .symbol .openBrace) (depth : Nat) :
    blockBody depth (t :: ts) = blockBody (depth + 1) ts := by
  simp [blockBody, is, ht]

/-- A closing brace closes the innermost block. -/
theorem blockBody_of_close_inner (ht : t.token = .symbol .closeBrace) (depth : Nat) :
    blockBody (depth + 1) (t :: ts) = blockBody depth ts := by
  simp [blockBody, ht, is]

/-- With no block open inside, a closing brace is the end of the block. -/
theorem blockBody_of_close (ht : t.token = .symbol .closeBrace) :
    blockBody 0 (t :: ts) = .ok ((), ts) := by
  simp [blockBody, ht, is]

/-- Every other token of a block is passed over. -/
theorem blockBody_of_other (ho : t.token ≠ .symbol .openBrace) (hc : t.token ≠ .symbol .closeBrace)
    (depth : Nat) : blockBody depth (t :: ts) = blockBody depth ts := by
  simp [blockBody, is, ho, hc]

end

/-- A block leaves no more tokens than there were, at every depth. -/
theorem shrinks_blockBody (depth : Nat) : Shrinks (blockBody depth) := by
  intro ts
  induction ts generalizing depth with
  | nil => intro a rest h; contradiction
  | cons t ts ih =>
    intro a rest h
    unfold blockBody at h
    split at h
    · have := ih _ h; simp only [List.length_cons]; omega
    · split at h
      · split at h
        · cases h; simp
        · have := ih _ h; simp only [List.length_cons]; omega
      · have := ih _ h; simp only [List.length_cons]; omega

/-- What may stand between a keyword and its block: settings, or any token. -/
def blockHead : Parser Unit := do
  if ← accept (is .openBracket) then
    let _ ← settingsBody
    return ()
  else
    take (fun _ => some ()) .openBlock

/-- What stands before a block is passed over by a token at least. -/
theorem advances_blockHead : Advances blockHead :=
  advances_accept_then (shrinks_settingsBody.bind fun _ => shrinks_pure _) (advances_take _ _)

/-- Passes over a declaration up to the end of its block, its keyword taken. -/
def skipped : Parser Unit := do
  let _ ← manyUntil .openBrace blockHead advances_blockHead
  blockBody 0

/-- A declaration that is passed over leaves no more tokens than there were. -/
theorem shrinks_skipped : Shrinks skipped :=
  (shrinks_manyUntil ..).bind fun _ => shrinks_blockBody 0

end SchemaDiagram.Grammar
