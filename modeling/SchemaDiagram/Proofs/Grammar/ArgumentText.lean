import SchemaDiagram.Grammar.FieldType
import SchemaDiagram.Proofs.Grammar.Rule
import SchemaDiagram.Proofs.Parser.Step
import SchemaDiagram.Proofs.Token.Writing

/-!
# SchemaDiagram.Proofs.Grammar.ArgumentText

The text of the arguments of a type, said by their tokens.

The text grows from argument to argument, and what stands between two of them depends on what it
ends with.  That is what the argument before ends with, so the text is that of the tokens with a gap
between each two neighbours (`typeArguments_eq`).
-/

namespace SchemaDiagram

namespace Token

/-! ## Plain arguments -/

/-- An argument that can be read, and that is written without escapes if it is a text. -/
structure IsPlainArgument (t : Token) : Prop where
  isArgument : Rule.IsArgument t
  isWritable : t.IsWritable
  isPlain : ∀ text, t = .string text → ∀ c ∈ text.toList, c ∉ ['\'', '\\', '\n']

/-- Whether a token is a word or a number. -/
def isWordOrNumber : Token → Bool
  | identifier _ | number _ => true
  | _ => false

/-- What stands between two arguments. -/
def argumentGap (t u : Token) : List Char :=
  if u.isWordOrNumber && Grammar.Argument.endsAlphanumeric t.write then [' '] else []

/-- Arguments behind another one, as text. -/
def argumentsBehind (t : Token) : List Token → List Char
  | [] => []
  | u :: us => argumentGap t u ++ (u.write ++ argumentsBehind u us)

/-- Arguments as text. -/
def argumentsText : List Token → List Char
  | [] => []
  | t :: us => t.write ++ argumentsBehind t us

/-- A text without characters to be escaped stands as it is. -/
theorem escape_of_plain {quote : Char} {cs : List Char}
    (h : ∀ c ∈ cs, c ∉ [quote, '\\', '\n']) : escape quote cs = cs := by
  induction cs with
  | nil => rfl
  | cons c cs ih =>
    have hc := h c List.mem_cons_self
    simp only [List.mem_cons, List.not_mem_nil, or_false, not_or] at hc
    rw [escape, List.flatMap_cons, escapeChar, if_neg hc.2.2,
      if_neg (not_or.2 ⟨hc.2.1, hc.1⟩), ← escape, ih fun d hd => h d (List.mem_cons_of_mem c hd)]
    rfl

/-- A plain argument is written as it stands, between quotes. -/
theorem write_of_isPlainArgument {text : String} (h : IsPlainArgument (.string text)) :
    (Token.string text).write = '\'' :: (text.toList ++ ['\'']) := by
  rw [write, enclose, escape_of_plain (h.isPlain text rfl)]
  rfl

end Token

namespace Grammar.Argument

open Token (IsPlainArgument argumentGap argumentsBehind argumentsText isWordOrNumber)

/-- What a text ends with is what its last part ends with. -/
theorem endsAlphanumeric_append (before : List Char) {cs : List Char} (h : cs ≠ []) :
    endsAlphanumeric (before ++ cs) = endsAlphanumeric cs := by
  rw [endsAlphanumeric, endsAlphanumeric, List.getLast?_append, List.getLast?_eq_some_getLast h]
  rfl

/-- A plain argument is written behind others like its token. -/
theorem exists_ofToken? {t : Token} (h : t.IsPlainArgument) :
    ∃ a, ofToken? t = some a ∧ ∀ before, a.write before = before ++
      ((if t.isWordOrNumber && endsAlphanumeric before then [' '] else []) ++ t.write) := by
  rcases h.isArgument with ⟨text, rfl⟩ | ⟨text, rfl⟩ | ⟨text, rfl⟩ | rfl
  · exact ⟨.word text, rfl, fun before => List.append_assoc _ _ _⟩
  · exact ⟨.word text, rfl, fun before => List.append_assoc _ _ _⟩
  · refine ⟨.string text, rfl, fun before => ?_⟩
    rw [Token.write_of_isPlainArgument h]
    exact List.append_assoc _ _ _
  · exact ⟨.comma, rfl, fun before => rfl⟩

/-- Arguments are written behind one like their tokens. -/
theorem exists_foldl_write {t : Token} {us : List Token} (ht : t.IsPlainArgument)
    (h : ∀ u ∈ us, u.IsPlainArgument) : ∃ as : List Argument, us.map ofToken? = as.map some ∧
      ∀ before, as.foldl write (before ++ t.write) =
        before ++ (t.write ++ argumentsBehind t us) := by
  induction us generalizing t with
  | nil => exact ⟨[], rfl, fun before => by simp [argumentsBehind]⟩
  | cons u us ih =>
    have hu := h u List.mem_cons_self
    obtain ⟨a, ha, hwrite⟩ := exists_ofToken? hu
    obtain ⟨as, has, hfold⟩ := ih hu fun v hv => h v (List.mem_cons_of_mem u hv)
    refine ⟨a :: as, by rw [List.map_cons, List.map_cons, ha, has], fun before => ?_⟩
    obtain ⟨c, cs, hcs⟩ := Token.exists_write_eq_cons ht.isWritable
    have hne : t.write ≠ [] := by simp [hcs]
    rw [List.foldl_cons, hwrite, endsAlphanumeric_append before hne, ← argumentGap,
      ← List.append_assoc, hfold, argumentsBehind]
    simp only [List.append_assoc]

/-- Arguments are written like their tokens. -/
theorem exists_text_eq {ts : List Token} (h : ∀ t ∈ ts, t.IsPlainArgument) :
    ∃ as : List Argument, ts.map ofToken? = as.map some ∧
      text as = String.ofList (argumentsText ts) := by
  cases ts with
  | nil => exact ⟨[], rfl, rfl⟩
  | cons t ts =>
    have ht := h t List.mem_cons_self
    obtain ⟨a, ha, hwrite⟩ := exists_ofToken? ht
    obtain ⟨as, has, hfold⟩ := exists_foldl_write ht fun u hu => h u (List.mem_cons_of_mem t hu)
    refine ⟨a :: as, by rw [List.map_cons, List.map_cons, ha, has], ?_⟩
    have hfirst : a.write [] = [] ++ t.write := by
      rw [hwrite]
      simp [endsAlphanumeric]
    rw [text, List.foldl_cons, hfirst, hfold]
    rfl

end Grammar.Argument

namespace Grammar

open SchemaDiagram.Parser
open Token (IsPlainArgument argumentsText)

/-- The text of arguments between parentheses is that of their tokens. -/
theorem typeArguments_eq {o c : Located} {args rest : List Located}
    (ho : o.token = .symbol .openParen) (hc : c.token = .symbol .closeParen)
    (h : ∀ t ∈ args, t.token.IsPlainArgument) :
    typeArguments (o :: (args ++ c :: rest)) =
      .ok (some (String.ofList (argumentsText (args.map (·.token)))), rest) := by
  have hplain : ∀ t ∈ args.map (·.token), t.IsPlainArgument := by simpa using h
  obtain ⟨as, has, htext⟩ := Argument.exists_text_eq hplain
  rw [List.map_map] at has
  have hstops : Stops (fun t => (Argument.ofToken? t).isSome) (c :: rest) := by
    rw [stops_cons, hc]
    rfl
  rw [typeArguments, accept_then_of_true (is_eq_true.2 ho), bind_of_ok (takeAll_append has hstops),
    bind_of_ok (symbol_of_eq hc), htext]
  rfl

end Grammar

end SchemaDiagram
