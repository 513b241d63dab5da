import SchemaDiagram.Proofs.Parser.Follows

/-!
# SchemaDiagram.Proofs.Grammar.Walk

The grammar as walks of a cursor.

Each walk follows the parser of the same name.  They differ where a place shows what a list of
tokens does not: a field is passed before it is known to be a name, a block is passed token by token
with its depth at hand, the words of a key are counted when they are passed, and the list of fields
of a path and the parenthesis behind arguments are passed in the last round of a loop.
-/

namespace SchemaDiagram.Grammar

open SchemaDiagram.Parser

variable {t u : Located} {ts : List Located}

/-! ## Parsers in the shape of loops -/

/-- The names of fields between parentheses, the opening one taken. -/
def fieldNames : Parser (List String) := do
  let first ← name .fieldName
  let more ← namesAfter .comma (fun _ => false) .fieldName
  symbol .closeParen .closeFields
  return first :: more

/-- Reading the names of fields leaves no more tokens than there were. -/
theorem shrinks_fieldNames : Shrinks fieldNames :=
  (advances_name _).shrinks.bind fun _ => (shrinks_namesAfter _ _ _).bind fun _ =>
    (advances_symbol _ _).shrinks.bind fun _ => shrinks_pure _

/-- Behind a point and a parenthesis a list of fields is the names up to the one that closes. -/
theorem fieldList_of_begins (ht : is .dot t.token = true) (hu : is .openParen u.token = true) :
    fieldList (t :: u :: ts) = (do let fields ← fieldNames; return some fields) ts := by
  rw [fieldList, acceptBoth_then_of_true ht hu, fieldNames]
  simp only [bind_assoc, pure_bind]

/-- What the names of a path and its list of fields are, those that have been read included. -/
def pathNamesFrom : List String × Option (List String) → Parser (List String × Option (List String))
  | (names, some fields) => pure (names, some fields)
  | (names, none) => do
    let more ← namesAfter .dot (is .openParen) .pathName
    let fields ← fieldList
    return (names ++ more, fields)

/-- A path is a first name and a loop that has read nothing yet. -/
theorem path_eq_loop : path = (do
    let first ← name .tableName
    let s ← pathNamesFrom ([], none)
    return .ofNames first s.1 s.2) := by
  simp only [path, pathNamesFrom, bind_assoc, pure_bind, List.nil_append]

/-- Behind a separator comes a name, unless what follows the separator passes the test. -/
theorem namesAfter_of_separator {separator : Symbol} {stop : Token → Bool} {e : Expected}
    (ht : is separator t.token = true) (hs : Stops stop ts) :
    namesAfter separator stop e (t :: ts) =
      (do let n ← name e; let ns ← namesAfter separator stop e; return n :: ns) ts := by
  cases ts with
  | nil => rw [namesAfter_of_no_name ht (stops_nil _)]; rfl
  | cons u ts =>
    rw [stops_cons] at hs
    cases hn : u.token.name? with
    | none => rw [namesAfter_of_no_name ht (by simp [hs, hn]), bind_of_error (name_of_none hn)]
    | some n => rw [namesAfter_of_name ht hs hn, bind_of_ok (name_of_some hn)]

section

variable {names : List String}

/-- A round of the loop: behind the point a parenthesis opens, and the loop is over. -/
theorem pathNamesFrom_of_fields (ht : is .dot t.token = true) (hu : is .openParen u.token = true) :
    pathNamesFrom (names, none) (t :: u :: ts) =
      (do let fields ← fieldNames; return (names, some fields)) ts := by
  rw [pathNamesFrom, bind_of_ok (namesAfter_of_begins hu),
    bind_congr_left (fieldList_of_begins ht hu), bind_assoc]
  simp only [pure_bind, List.append_nil]

/-- A round of the loop: behind the point comes a name, and the loop goes on with it. -/
theorem pathNamesFrom_of_name (ht : is .dot t.token = true) (hs : Stops (is .openParen) ts) :
    pathNamesFrom (names, none) (t :: ts) =
      (do let n ← name .pathName; pathNamesFrom (names ++ [n], none)) ts := by
  rw [pathNamesFrom, bind_congr_left (namesAfter_of_separator ht hs)]
  simp only [bind_assoc, pure_bind, pathNamesFrom, List.append_assoc, List.singleton_append]

/-- Without a point the loop is over, with the names that have been read. -/
theorem pathNamesFrom_of_stops (hs : Stops (is .dot) ts) :
    pathNamesFrom (names, none) ts = .ok ((names, none), ts) := by
  rw [pathNamesFrom, bind_of_ok (namesAfter_of_stops hs), fieldList,
    bind_of_ok (acceptBoth_then_of_not (not_beginsBoth_of_stops hs)), List.append_nil]
  rfl

end

/-- The words of a key are all words that are there, and there has to be one. -/
theorem settingKey_eq_loop : settingKey = (do
    let words ← takeAll Token.word?
    if words.isEmpty then fail .settingName
    else return joinWords (words.map fun w => String.ofList (Text.lower w.toList))) := by
  funext ts
  rcases begins_or_stops (fun t => t.word?.isSome) ts with ⟨t, ts, rfl, ht⟩ | hs
  · obtain ⟨w, hw⟩ := Option.isSome_iff_exists.1 ht
    rw [settingKey, bind_of_ok (take_of_some hw), bind_congr_left (takeAll_of_some hw), bind_assoc]
    simp only [pure_bind, List.isEmpty_cons, Bool.false_eq_true, if_false]
  · rw [settingKey, bind_of_error (take_of_stops hs), bind_of_ok (takeAll_of_stops hs)]
    rfl

/-- The text of arguments up to the parenthesis behind them, the text before them included. -/
def argumentsFrom : List Char × Bool → Parser (List Char × Bool)
  | (text, true) => pure (text, true)
  | (text, false) => do
    let args ← takeAll Argument.ofToken?
    symbol .closeParen .closeArguments
    return (args.foldl Argument.write text, true)

/-- Arguments are a loop over their text that has read nothing yet. -/
theorem typeArguments_eq_loop : typeArguments = (do
    if ← accept (is .openParen) then
      let s ← argumentsFrom ([], false)
      return some (String.ofList s.1)
    else
      return none) := by
  simp only [typeArguments, argumentsFrom, bind_assoc, pure_bind, Argument.text]

/-- The next token ends the arguments or is one of them. -/
theorem argumentsFrom_step (text : List Char) :
    argumentsFrom (text, false) = (do
      if ← accept (is .closeParen) then
        return (text, true)
      else
        let a ← take Argument.ofToken? .closeArguments
        argumentsFrom (Argument.write text a, false)) := by
  funext ts
  rcases begins_or_stops (is .closeParen) ts with ⟨t, ts, rfl, ht⟩ | hs
  · have ha : Argument.ofToken? t.token = none := by rw [is_eq_true.1 ht]; rfl
    have hs : Stops (fun t => (Argument.ofToken? t).isSome) (t :: ts) := by simp [ha]
    rw [accept_then_of_true ht, argumentsFrom, bind_of_ok (takeAll_of_stops hs),
      bind_of_ok (symbol_of_eq (is_eq_true.1 ht))]
    rfl
  rw [accept_then_of_stops hs]
  rcases begins_or_stops (fun t => (Argument.ofToken? t).isSome) ts with ⟨t, ts, rfl, ht⟩ | ha
  · obtain ⟨a, ha⟩ := Option.isSome_iff_exists.1 ht
    rw [bind_of_ok (take_of_some ha), argumentsFrom, bind_congr_left (takeAll_of_some ha),
      argumentsFrom]
    simp only [bind_assoc, pure_bind, List.foldl_cons]
  · rw [bind_of_error (take_of_stops ha), argumentsFrom, bind_of_ok (takeAll_of_stops ha),
      bind_of_error (symbol_of_stops hs)]

/-- How many blocks are open behind a token. -/
def depthBehind (depth : Nat) (t : Token) : Nat :=
  if is .openBrace t then depth + 1 else if is .closeBrace t then depth - 1 else depth

/-- As many blocks as are open. -/
def openBlocks : Nat → Parser Nat
  | 0 => pure 0
  | depth + 1 => do
    blockBody depth
    return 0

/-- Any token is passed inside a block, and only braces change the depth. -/
theorem openBlocks_cons (depth : Nat) :
    openBlocks (depth + 1) (t :: ts) = openBlocks (depthBehind (depth + 1) t.token) ts := by
  by_cases ho : t.token = .symbol .openBrace
  · rw [openBlocks, bind_congr_left (blockBody_of_open ho depth), depthBehind,
      if_pos (is_eq_true.2 ho), openBlocks]
  by_cases hc : t.token = .symbol .closeBrace
  · rw [depthBehind, if_neg (by simp [is, ho]), if_pos (is_eq_true.2 hc), Nat.add_sub_cancel]
    cases depth with
    | zero => exact bind_of_ok (blockBody_of_close hc)
    | succ depth => rw [openBlocks, bind_congr_left (blockBody_of_close_inner hc depth), openBlocks]
  · rw [openBlocks, bind_congr_left (blockBody_of_other ho hc depth), depthBehind,
      if_neg (by simp [is, ho]), if_neg (by simp [is, hc]), openBlocks]

end SchemaDiagram.Grammar

namespace SchemaDiagram.Walk

open SchemaDiagram.Parser (is)
open Grammar (Argument Setting TableItem)
open Document (Declarations Enumeration Field FieldType Path Reference Relation Table)

/-! ## Names -/

/-- The name of a table or an enumeration, with the schema in front of it or without. -/
def qualifiedName (e : Expected) : Walk (Option String × String) := do
  let first ← name e
  if ← accept (is .dot) then
    let second ← name e
    return (some first, second)
  else
    return (none, first)

/-- The walk of a table's name looks for the point as the parser does. -/
theorem follows_qualifiedName {e : Expected} (he : e ≠ .closeBlock) :
    Follows (qualifiedName e) (Grammar.qualifiedName e) :=
  (follows_name he).bind fun _ => (follows_accept _).bind fun _ =>
    ((follows_name he).bind fun _ => follows_pure _).ite (follows_pure _)

/-! ## Paths and relations -/

/-- The names of fields behind the first. -/
def moreFieldNames (first : String) : Walk (List String) :=
  repeatWhile (fun _ t? => t?.any (is .comma)) (fun names => do
    let _ ← advance
    let more ← name .fieldName
    return names ++ [more]) [first]

/-- The names of fields between parentheses, the opening one passed. -/
def fieldNames : Walk (List String) := do
  let first ← name .fieldName
  let names ← moreFieldNames first
  symbol .closeParen .closeFields
  return names

/-- The names behind points.  A list of fields in place of a name ends them. -/
def pathNames : Walk (List String × Option (List String)) :=
  repeatWhile (fun s t? => s.2.isNone && t?.any (is .dot)) (fun s => do
    let _ ← advance
    if ← accept (is .openParen) then
      let fields ← fieldNames
      return (s.1, some fields)
    else
      let more ← name .pathName
      return (s.1 ++ [more], none)) ([], none)

/-- The place that a path stands for. -/
def path : Walk Path := do
  let first ← name .tableName
  let s ← pathNames
  return .ofNames first s.1 s.2

/-- The sign between two paths. -/
def relation : Walk Relation := take Grammar.relation? .relation

/-- Names behind commas unfold as a loop that passes the comma and then reads a name. -/
theorem isLoop_moreFieldNames :
    IsLoop (fun _ t? => t?.any (is .comma))
      (fun names => do
        let _ ← anyToken
        let more ← Parser.name .fieldName
        return names ++ [more])
      (fun names => do
        let more ← Parser.namesAfter .comma (fun _ => false) .fieldName
        return names ++ more) := by
  refine isLoop_of_anyToken (fun _ => rfl)
    (fun _ _ => (Parser.advances_name _).shrinks.bind fun _ => Parser.shrinks_pure _) ?_ ?_
  · intro names t ts ht
    rw [Parser.bind_congr_left (Grammar.namesAfter_of_separator ht fun _ _ => rfl)]
    simp only [bind_assoc, pure_bind, List.append_assoc, List.singleton_append]
  · intro names ts hgo
    rw [Parser.bind_of_ok (Parser.namesAfter_of_stops (stops_iff_first?.2 hgo)), List.append_nil]
    rfl

/-- The loop over the names of fields reads what `namesAfter` reads. -/
theorem follows_moreFieldNames (first : String) :
    Follows (moreFieldNames first) (do
      let more ← Parser.namesAfter .comma (fun _ => false) .fieldName
      return first :: more) :=
  follows_repeatWhile_advance (fun _ => rfl) isLoop_moreFieldNames rfl fun _ _ =>
    (follows_name (by decide)).bind fun _ => follows_pure _

/-- The walk over the names of fields keeps the first apart, as the parser does not. -/
theorem follows_fieldNames : Follows fieldNames Grammar.fieldNames := by
  refine Follows.of_eq ((follows_name (by decide)).bind fun first =>
    (follows_moreFieldNames first).bind fun names =>
      (follows_symbol .closeParen (by decide)).bind fun _ => follows_pure names) ?_
  simp only [Grammar.fieldNames, bind_assoc, pure_bind]

/-- The names of a path unfold as a loop that passes the point and then reads a name, or the list of
fields, which ends it. -/
theorem isLoop_pathNames :
    IsLoop (fun s t? => s.2.isNone && t?.any (is .dot))
      (fun s => do
        let _ ← anyToken
        if ← Parser.accept (is .openParen) then
          let fields ← Grammar.fieldNames
          return (s.1, some fields)
        else
          let more ← Parser.name .pathName
          return (s.1 ++ [more], none))
      Grammar.pathNamesFrom := by
  refine isLoop_of_anyToken (fun s => Bool.and_false _) (fun s _ => ?_) ?_ ?_
  · refine (Parser.shrinks_accept _).bind fun b => ?_
    split
    · exact Grammar.shrinks_fieldNames.bind fun _ => Parser.shrinks_pure _
    · exact (Parser.advances_name _).shrinks.bind fun _ => Parser.shrinks_pure _
  · intro s t ts hgo
    obtain ⟨names, fields⟩ := s
    obtain ⟨hfields, ht⟩ := Bool.and_eq_true_iff.1 hgo
    obtain rfl : fields = none := Option.isNone_iff_eq_none.1 hfields
    rw [bind_assoc]
    -- Behind the point stands the list of fields, which ends the path, or one more name.
    rcases Parser.begins_or_stops (is .openParen) ts with ⟨u, ts, rfl, hu⟩ | hs
    · rw [Grammar.pathNamesFrom_of_fields ht hu, Parser.bind_of_ok (Parser.accept_of_true hu),
        if_pos rfl]
      simp only [bind_assoc, pure_bind, Grammar.pathNamesFrom]
    · rw [Grammar.pathNamesFrom_of_name ht hs, Parser.bind_of_ok (Parser.accept_of_stops hs)]
      simp only [bind_assoc, pure_bind, Bool.false_eq_true, if_false]
  · intro s ts hgo
    obtain ⟨names, fields⟩ := s
    cases fields with
    | some fields => rfl
    | none => exact Grammar.pathNamesFrom_of_stops (stops_iff_first?.2 hgo)

/-- The walk's loop over the names of a path reads the names and the list of fields at once. -/
theorem follows_pathNames : Follows pathNames (Grammar.pathNamesFrom ([], none)) :=
  follows_repeatWhile_advance (fun _ => Bool.and_false _) isLoop_pathNames rfl fun _ _ =>
    (follows_accept _).bind fun _ =>
      (follows_fieldNames.bind fun _ => follows_pure _).ite
        ((follows_name (by decide)).bind fun _ => follows_pure _)

/-- A path is walked over as it is parsed, with its list of fields in the last round of the loop. -/
theorem follows_path : Follows path Grammar.path :=
  Follows.of_eq ((follows_name (by decide)).bind fun _ => follows_pathNames.bind fun _ =>
    follows_pure _) Grammar.path_eq_loop.symm

theorem follows_relation : Follows relation Grammar.relation := follows_take _ (by decide)

/-! ## Settings -/

/-- The words of a key, of which there has to be one. -/
def settingKey : Walk String := do
  let words ← takeAll Token.word?
  if words.isEmpty then fail .settingName
  else return Grammar.joinWords (words.map fun w => String.ofList (Text.lower w.toList))

/-- The words of a key may be counted behind them: where there is none, nothing has been passed. -/
theorem follows_settingKey : Follows settingKey Grammar.settingKey :=
  Follows.of_eq ((follows_takeAll _).bind fun _ =>
    (follows_fail (by decide)).ite (follows_pure _)) Grammar.settingKey_eq_loop.symm

/-- The number behind a dash. -/
def negative : Walk String := do
  let number ← take Token.number? .numberAfterDash
  return "-" ++ number

/-- The words of a value, of which there has to be one. -/
def wordsValue : Walk String := do
  let first ← take Token.word? .settingValue
  let more ← takeAll Token.word?
  return Grammar.joinWords (first :: more)

/-- The text of a setting: a literal, a number behind a dash, or words. -/
def settingText : Walk String := do
  match ← take? Token.literal? with
  | some text => return text
  | none => if ← accept (is .dash) then negative else wordsValue

/-- The text of a setting is walked over by the same choices as it is parsed. -/
theorem follows_settingText : Follows settingText Grammar.settingText := by
  refine (follows_take? _).bind fun text => ?_
  cases text with
  | some text => exact follows_pure _
  | none =>
    refine (follows_accept _).bind fun _ => Follows.ite ?_ ?_
    · exact (follows_take _ (by decide)).bind fun _ => follows_pure _
    · exact (follows_take _ (by decide)).bind fun _ => (follows_takeAll _).bind fun _ =>
        follows_pure _

/-- The value of a setting: a relation and a path for a reference, a text otherwise. -/
def settingValue (key : String) : Walk Setting.Value := do
  if key = "ref" then
    let r ← relation
    let target ← path
    return .link r target
  else
    let text ← settingText
    return .text text

theorem follows_settingValue (key : String) :
    Follows (settingValue key) (Grammar.settingValue key) :=
  Follows.ite
    (follows_relation.bind fun _ => follows_path.bind fun _ => follows_pure _)
    (follows_settingText.bind fun _ => follows_pure _)

/-- The value behind a colon; none without a colon. -/
def optionalValue (key : String) : Walk (Option Setting.Value) := do
  if ← accept (is .colon) then
    let value ← settingValue key
    return some value
  else
    return none

/-- Without a colon neither the walk nor the parser goes on. -/
theorem follows_optionalValue (key : String) :
    Follows (optionalValue key) (Grammar.optionalValue key) :=
  (follows_accept _).bind fun _ =>
    ((follows_settingValue key).bind fun _ => follows_pure _).ite (follows_pure _)

/-- Past the comma behind a setting.  The bracket that closes the list is left. -/
def settingEnd : Walk Unit := do
  if (← peek).any (is .closeBracket) then return () else symbol .comma .closeSettings

/-- The end of a setting is told by the next token, which the bracket is left at. -/
theorem follows_settingEnd : Follows settingEnd Grammar.settingEnd := by
  intro c hc
  have hpeek := begins_eq_first? .closeBracket c.rest
  have hcomma := follows_symbol .comma (e := .closeSettings) (by decide) hc
  cases hb : Parser.begins .closeBracket c.rest with
  | true =>
    exact followsAt_of_ok (a := ()) (by rw [Grammar.settingEnd, if_pos hb])
      (by rw [settingEnd, peek_then, ← hpeek, if_pos hb]; rfl) hc.reaches_self
  | false =>
    exact hcomma.of_reaches hc.reaches_self
      (by rw [settingEnd, peek_then, ← hpeek, if_neg (by simp [hb])])
      (by rw [Grammar.settingEnd, if_neg (by simp [hb])])

/-- A setting, with the comma behind it. -/
def setting : Walk Setting := do
  let key ← settingKey
  let value ← optionalValue key
  settingEnd
  return ⟨key, value⟩

theorem follows_setting : Follows setting Grammar.setting :=
  follows_settingKey.bind fun key => (follows_optionalValue key).bind fun _ =>
    follows_settingEnd.bind fun _ => follows_pure _

/-- Settings behind the opening bracket, and past the closing one. -/
def settingsBody : Walk (List Setting) := manyUntil .closeBracket setting

theorem follows_settingsBody : Follows settingsBody Grammar.settingsBody :=
  follows_setting.manyUntil

/-- A list of settings, if a bracket opens. -/
def settings : Walk (List Setting) := do
  if ← accept (is .openBracket) then settingsBody else return []

theorem follows_settings : Follows settings Grammar.settings :=
  (follows_accept _).bind fun _ => follows_settingsBody.ite (follows_pure _)

/-! ## Types -/

/-- The second part of a type's name, behind a point. -/
def typeQualifier : Walk String := do
  if ← accept (is .dot) then
    let more ← name .typeName
    return "." ++ more
  else
    return ""

/-- The text of arguments, and past the parenthesis behind them. -/
def argumentsText : Walk (List Char × Bool) :=
  repeatWhile (fun s _ => !s.2) (fun s => do
    if ← accept (is .closeParen) then
      return (s.1, true)
    else
      let a ← take Argument.ofToken? .closeArguments
      return (Argument.write s.1 a, false)) ([], false)

/-- Arguments unfold as a loop that passes an argument or the parenthesis, which ends it. -/
theorem isLoop_argumentsText :
    IsLoop (fun s _ => !s.2)
      (fun s => do
        if ← Parser.accept (is .closeParen) then
          return (s.1, true)
        else
          let a ← Parser.take Argument.ofToken? .closeArguments
          return (Argument.write s.1 a, false))
      Grammar.argumentsFrom where
  advances _ hr :=
    Parser.advances_accept_then (Parser.shrinks_pure _)
      ((Parser.advances_take _ _).bind fun _ => Parser.shrinks_pure _) hr
  again {s ts} hgo := by
    obtain ⟨text, closed⟩ := s
    cases closed with
    | true => contradiction
    | false =>
      rw [Grammar.argumentsFrom_step, bind_assoc]
      refine congrFun (bind_congr fun b => ?_) ts
      cases b <;> simp [Grammar.argumentsFrom]
  stop {s ts} hgo := by
    obtain ⟨text, closed⟩ := s
    cases closed with
    | true => rfl
    | false => contradiction

/-- The loop over arguments writes the text that the parser writes. -/
theorem follows_argumentsText : Follows argumentsText (Grammar.argumentsFrom ([], false)) :=
  follows_repeatWhile isLoop_argumentsText rfl fun _ _ hc _ =>
    ((follows_accept _).bind fun _ => (follows_pure _).ite
      ((follows_take _ (by decide)).bind fun _ => follows_pure _)) hc

/-- The text of the arguments of a type, if a parenthesis opens. -/
def typeArguments : Walk (Option String) := do
  if ← accept (is .openParen) then
    let s ← argumentsText
    return some (String.ofList s.1)
  else
    return none

/-- Arguments are walked over as they are parsed, with their parenthesis in the last round. -/
theorem follows_typeArguments : Follows typeArguments Grammar.typeArguments :=
  Follows.of_eq ((follows_accept _).bind fun _ =>
    (follows_argumentsText.bind fun _ => follows_pure _).ite (follows_pure _))
    Grammar.typeArguments_eq_loop.symm

/-- A type that begins with a word. -/
def typeExpression (first : String) : Walk FieldType := do
  let qualifier ← typeQualifier
  let args ← typeArguments
  let isArray ← acceptBoth (is .openBracket) (is .closeBracket)
  let applied := match args with
    | some text => "(" ++ text ++ ")"
    | none => ""
  return .expression (first ++ qualifier ++ applied ++ (if isArray then "[]" else "")) args

/-- A type that begins with a word is walked over part by part. -/
theorem follows_typeExpression (first : String) :
    Follows (typeExpression first) (Grammar.typeExpression first) := by
  have hqualifier : Follows typeQualifier Grammar.typeQualifier :=
    (follows_accept _).bind fun _ =>
      ((follows_name (by decide)).bind fun _ => follows_pure _).ite (follows_pure _)
  exact hqualifier.bind fun _ => follows_typeArguments.bind fun _ =>
    (follows_acceptBoth _ _).bind fun _ => follows_pure _

/-- The type of a field, which has to stand on the line of the field's name. -/
def fieldType (line : Nat) : Walk FieldType := do
  let here ← position
  if here.line = line then
    match ← take? Token.quoted? with
    | some text => return .quoted text
    | none =>
      match ← take? Token.word? with
      | some first => typeExpression first
      | none => return .absent
  else
    return .absent

/-- The walk asks for the line of the end mark too, where the parser has no line to ask for. -/
theorem follows_fieldType (line : Nat) :
    Follows (fieldType line) (Grammar.fieldType (some line)) := by
  refine Follows.onLine ((follows_take? _).bind fun text => ?_) rfl
  cases text with
  | some text => exact follows_pure _
  | none =>
    refine (follows_take? _).bind fun first => ?_
    cases first with
    | some first => exact follows_typeExpression first
    | none => exact follows_pure _

/-! ## Blocks -/

/-- Past the block whose opening brace has been passed.  A block that lacks its end is found out at
the place behind the end mark. -/
def skipBlock : Walk Unit := do
  let _ ← repeatWhile (fun depth _ => 0 < depth) (fun depth => do
    match ← advance with
    | some t => return Grammar.depthBehind depth t.token
    | none => fail .closeBlock) 1
  return ()

/-- Blocks that are open unfold as a loop over tokens, with their number at hand. -/
theorem isLoop_openBlocks :
    IsLoop (fun depth _ => 0 < depth)
      (fun depth => Parser.take (fun t => some (Grammar.depthBehind depth t)) .closeBlock)
      Grammar.openBlocks where
  advances _ hr := Parser.advances_take _ _ hr
  again {depth ts} hgo := by
    obtain ⟨depth, rfl⟩ := Nat.exists_eq_succ_of_ne_zero (Nat.ne_of_gt (of_decide_eq_true hgo))
    cases ts with
    | nil => rfl
    | cons t ts => exact Grammar.openBlocks_cons depth
  stop {depth ts} hgo := by
    obtain rfl : depth = 0 := by simpa using hgo
    rfl

/-- A block is passed over token by token up to the depth at which it began. -/
theorem follows_skipBlock : Follows skipBlock (Grammar.blockBody 0) := by
  have hloop := follows_repeatWhile (s := 1) isLoop_openBlocks rfl fun depth _ hc _ =>
    followsAt_advance_closeBlock hc (Grammar.depthBehind depth)
  exact (hloop.bind fun _ => follows_pure ()).of_eq (by simp [Grammar.openBlocks])

/-- A part of what stands in front of a block: a list of settings, or any token. -/
def blockHead : Walk Unit := do
  if ← accept (is .openBracket) then
    let _ ← settingsBody
    return ()
  else
    take (fun _ => some ()) .openBlock

theorem follows_blockHead : Follows blockHead Grammar.blockHead :=
  (follows_accept _).bind fun _ =>
    (follows_settingsBody.bind fun _ => follows_pure _).ite (follows_take _ (by decide))

/-- Past a declaration that says nothing. -/
def skipped : Walk Unit := do
  let _ ← manyUntil .openBrace blockHead
  skipBlock

theorem follows_skipped : Follows skipped Grammar.skipped :=
  follows_blockHead.manyUntil.bind fun _ => follows_skipBlock

/-! ## Tables -/

/-- A field.  Whatever is there is passed, and has to be a name. -/
def field (schemaName : Option String) (tableName : String) : Walk (Field × List Reference) := do
  let t? ← advance
  match t?, t?.bind (·.token.name?) with
  | some t, some fieldName =>
    let type ← fieldType t.position.line
    let settings ← settings
    let source : Path := ⟨schemaName, tableName, [fieldName]⟩
    return (settings.foldl (fun f s => s.applyTo f) { name := fieldName, type },
      settings.filterMap (·.reference? source))
  | _, _ => failAt t? .fieldName

/-- A field is walked over as it is parsed, but its first token is passed before it is known to be a
name; so the walk must not begin at the end mark. -/
theorem followsBeforeEnd_field (schemaName : Option String) (tableName : String) :
    FollowsBeforeEnd (field schemaName tableName) (Grammar.field schemaName tableName) := by
  intro c hc h
  cases hr : c.rest with
  | nil => contradiction
  | cons t ts =>
    have hnext := hc.reaches_next hr
    cases hn : t.token.name? with
    | none =>
      have he : Expected.fieldName ≠ .closeBlock := by decide
      refine followsAt_of_error (m := ⟨.fieldName, t :: ts⟩) ?_ ?_
        (hnext.halts (hnext.sound.halts_self he))
      · rw [hr, Grammar.field, Parser.line?_then, Parser.bind_of_error (Parser.name_of_none hn)]
      · rw [field, advance_then, hr, List.head?_cons, Option.bind_some, hn]
        rfl
    | some n =>
      have h := (follows_fieldType t.position.line).bind fun type => follows_settings.bind fun s =>
        follows_pure (s.foldl (fun f s => s.applyTo f) ({ name := n, type } : Field),
          s.filterMap (·.reference? ⟨schemaName, tableName, [n]⟩))
      refine (h hnext.sound).of_reaches hnext ?_ ?_
      · rw [field, advance_then, hr, List.head?_cons, Option.bind_some, hn]
      · rw [hr, Grammar.field, Parser.line?_then, Parser.bind_of_ok (Parser.name_of_some hn),
          hnext.rest]
        rfl

/-- The text of a note. -/
def noteText : Walk String := take Token.text? .noteText

/-- An item of a table: a note, a block of indexes or a field. -/
def tableItem (schemaName : Option String) (tableName : String) : Walk TableItem := do
  if ← acceptBoth (·.isKeyword .note) (is .colon) then
    let text ← noteText
    return .note text
  else if ← acceptBoth (·.isKeyword .note) (is .openBrace) then
    let text ← noteText
    symbol .closeBrace .closeNote
    return .note text
  else if ← acceptBoth (·.isKeyword .indexes) (is .openBrace) then
    skipBlock
    return .indexes
  else
    let (decl, references) ← field schemaName tableName
    return .field decl references

/-- An item is walked over as it is parsed wherever there is a token. -/
theorem followsBeforeEnd_tableItem (schemaName : Option String) (tableName : String) :
    FollowsBeforeEnd (tableItem schemaName tableName) (Grammar.tableItem schemaName tableName) := by
  have htext : Follows noteText Grammar.noteText := follows_take _ (by decide)
  refine .acceptBoth_then (htext.bind fun _ => follows_pure _) ?_
  refine .acceptBoth_then (htext.bind fun _ => (follows_symbol _ (by decide)).bind fun _ =>
    follows_pure _) ?_
  refine .acceptBoth_then (follows_skipBlock.bind fun _ => follows_pure _) ?_
  exact (followsBeforeEnd_field schemaName tableName).bind fun _ => follows_pure _

/-- The other name of a table, behind `as`. -/
def tableAlias : Walk (Option String) := do
  if ← accept (·.isKeyword .as) then
    let aliasName ← name .tableAlias
    return some aliasName
  else
    return none

theorem follows_tableAlias : Follows tableAlias Grammar.tableAlias :=
  (follows_accept _).bind fun _ =>
    ((follows_name (by decide)).bind fun _ => follows_pure _).ite (follows_pure _)

/-- The items of a table up to its closing brace, and past it. -/
def tableBody (schemaName : Option String) (tableName : String) : Walk (List TableItem) :=
  manyUntil .closeBrace ((tableItem schemaName tableName).beforeEnd .closeTable)

/-- The walk looks for the end of the input before each item, so an item begins at a token. -/
theorem follows_tableBody (schemaName : Option String) (tableName : String) :
    Follows (tableBody schemaName tableName) (Grammar.tableBody schemaName tableName) :=
  ((followsBeforeEnd_tableItem schemaName tableName).beforeEnd (by decide)).manyUntil

/-- A table, its keyword passed. -/
def table : Walk Declarations := do
  let (schemaName, tableName) ← qualifiedName .tableName
  let aliasName ← tableAlias
  let settings ← settings
  symbol .openBrace .openTable
  let items ← tableBody schemaName tableName
  let decl : Table := {
    name := tableName
    schemaName
    aliasName
    headerColor := Setting.lastText "headercolor" settings
    note := (items.filterMap (·.note?)).getLast?.or (Setting.lastText "note" settings)
    fields := items.filterMap (·.field?)
  }
  return { tables := [decl], references := items.flatMap (·.references) }

/-- A table is walked over part by part. -/
theorem follows_table : Follows table Grammar.table :=
  (follows_qualifiedName (by decide)).bind fun (schemaName, tableName) =>
    follows_tableAlias.bind fun _ => follows_settings.bind fun _ =>
      (follows_symbol _ (by decide)).bind fun _ =>
        (follows_tableBody schemaName tableName).bind fun _ => follows_pure _

/-! ## References and enumerations -/

/-- A reference: two paths with a relation between them, and settings that say nothing. -/
def reference (referenceName : Option String) : Walk Reference := do
  let source ← path
  let r ← relation
  let target ← path
  let _ ← settings
  return .of referenceName source r target

theorem follows_reference (referenceName : Option String) :
    Follows (reference referenceName) (Grammar.reference referenceName) :=
  follows_path.bind fun _ => follows_relation.bind fun _ => follows_path.bind fun _ =>
    follows_settings.bind fun _ => follows_pure _

/-- References, their keyword passed: one behind a colon or any number between braces. -/
def references : Walk (List Reference) := do
  let referenceName ← take? Token.name?
  if ← accept (is .colon) then
    let r ← reference referenceName
    return [r]
  else
    symbol .openBrace .referenceBody
    manyUntil .closeBrace ((reference referenceName).beforeEnd .closeReferences)

/-- References are walked over on their line, or between braces. -/
theorem follows_references : Follows references Grammar.references :=
  (follows_take? _).bind fun referenceName => (follows_accept _).bind fun _ =>
    ((follows_reference referenceName).bind fun _ => follows_pure _).ite
      ((follows_symbol _ (by decide)).bind fun _ =>
        ((follows_reference referenceName).followsBeforeEnd.beforeEnd (by decide)).manyUntil)

/-- A value of an enumeration, and settings that say nothing. -/
def enumValue : Walk String := do
  let value ← name .enumValue
  let _ ← settings
  return value

theorem follows_enumValue : Follows enumValue Grammar.enumValue :=
  (follows_name (by decide)).bind fun _ => follows_settings.bind fun _ => follows_pure _

/-- An enumeration, its keyword passed. -/
def enumeration : Walk Enumeration := do
  let (schemaName, enumName) ← qualifiedName .enumName
  symbol .openBrace .openEnum
  let values ← manyUntil .closeBrace enumValue
  return ⟨schemaName, enumName, values⟩

theorem follows_enumeration : Follows enumeration Grammar.enumeration :=
  (follows_qualifiedName (by decide)).bind fun _ => (follows_symbol _ (by decide)).bind fun _ =>
    follows_enumValue.manyUntil.bind fun _ => follows_pure _

/-! ## Declarations -/

/-- One declaration, whose keyword tells what it declares. -/
def declaration : Walk Declarations := do
  if ← accept (·.isKeyword .table) then table
  else if ← accept (·.isKeyword .ref) then
    let references ← references
    return { references }
  else if ← accept (·.isKeyword .enum) then
    let e ← enumeration
    return { enumerations := [e] }
  else if ← accept Grammar.isSkipped then
    skipped
    return {}
  else
    fail .declaration

/-- The keyword of a declaration leads the walk where it leads the parser. -/
theorem follows_declaration : Follows declaration Grammar.declaration :=
  (follows_accept _).bind fun _ => follows_table.ite <|
    (follows_accept _).bind fun _ => (follows_references.bind fun _ => follows_pure _).ite <|
      (follows_accept _).bind fun _ => (follows_enumeration.bind fun _ => follows_pure _).ite <|
        (follows_accept _).bind fun _ =>
          (follows_skipped.bind fun _ => follows_pure _).ite (follows_fail (by decide))

/-- All declarations, up to the end mark. -/
def declarations : Walk Declarations := do
  let ds ← repeatUntil (·.isNone) declaration
  return .concat ds

/-- All declarations are walked over as they are parsed, up to the end mark. -/
theorem follows_declarations : Follows declarations Grammar.declarations :=
  (follows_declaration.repeatUntil fun ts => by cases ts <;> rfl).bind fun _ => follows_pure _

end SchemaDiagram.Walk
