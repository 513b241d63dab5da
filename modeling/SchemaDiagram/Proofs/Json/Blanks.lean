import SchemaDiagram.Json.Float
import SchemaDiagram.Json.Writer
import SchemaDiagram.Proofs.Token.Reading

/-!
# SchemaDiagram.Proofs.Json.Blanks

The two written forms of a JSON value differ in blanks between strings only.

`withoutBlanks` reads a JSON text character by character and drops the blanks outside its strings.
For that it has to know where it is (`Place`): a quote begins or ends a string, but not behind a
backslash in one.  What it leaves of the indented form is the compact form (`withoutBlanks_pretty`),
for every value whose numbers are made of digits, signs, points and exponents (`HasDecimals`).
-/

namespace SchemaDiagram.Json

open Text (isBlank)

/-! ## Texts without blanks -/

/-- Where a reader of a JSON text is. -/
inductive Place where
  | outside
  | inside
  /-- In a string, behind a backslash. -/
  | escaped
  deriving DecidableEq, Repr

/-- The place behind a character. -/
def Place.next (c : Char) : Place → Place
  | outside => if c = '"' then inside else outside
  | inside => if c = '\\' then escaped else if c = '"' then outside else inside
  | escaped => inside

/-- A text without its blanks outside strings, read from a place on. -/
def withoutBlanksFrom : Place → List Char → List Char
  | _, [] => []
  | place, c :: cs =>
    if place = .outside ∧ isBlank c = true then withoutBlanksFrom place cs
    else c :: withoutBlanksFrom (place.next c) cs

/-- A JSON text without the blanks outside its strings. -/
def withoutBlanks (text : String) : String :=
  String.ofList (withoutBlanksFrom .outside text.toList)

/-- A text is left with another one when its blanks are dropped, whatever follows it. -/
def Condenses (text left : List Char) : Prop :=
  ∀ rest, withoutBlanksFrom .outside (text ++ rest) = left ++ withoutBlanksFrom .outside rest

section

variable {cs text text' left left' : List Char}

/-- What is left of two texts is what is left of each. -/
theorem Condenses.append (h : Condenses text left) (h' : Condenses text' left') :
    Condenses (text ++ text') (left ++ left') := fun rest => by
  rw [List.append_assoc, h, h', List.append_assoc]

/-- Of blanks outside strings nothing is left. -/
theorem condenses_blanks (h : ∀ c ∈ cs, isBlank c = true) : Condenses cs [] := fun rest => by
  induction cs with
  | nil => rfl
  | cons c cs ih =>
    rw [List.cons_append, withoutBlanksFrom, if_pos ⟨rfl, h c List.mem_cons_self⟩,
      ih fun d hd => h d (List.mem_cons_of_mem c hd)]

/-- A character that stays where it is outside a string, and does not begin one. -/
def IsPlain (c : Char) : Prop := isBlank c = false ∧ c ≠ '"'

instance (c : Char) : Decidable (IsPlain c) := inferInstanceAs (Decidable (_ ∧ _))

/-- Characters that are plain are all left. -/
theorem condenses_plain (h : ∀ c ∈ cs, IsPlain c) : Condenses cs cs := fun rest => by
  induction cs with
  | nil => rfl
  | cons c cs ih =>
    obtain ⟨hblank, hquote⟩ := h c List.mem_cons_self
    rw [List.cons_append, withoutBlanksFrom, if_neg (by simp [hblank]), Place.next, if_neg hquote,
      ih fun d hd => h d (List.mem_cons_of_mem c hd), List.cons_append]

/-- A text is plain if a test of its characters says so. -/
theorem condenses_of_all (h : cs.all (fun c => decide (IsPlain c)) = true) : Condenses cs cs :=
  condenses_plain fun c hc => of_decide_eq_true (List.all_eq_true.1 h c hc)

theorem condenses_singleton {c : Char} (h : IsPlain c) : Condenses [c] [c] :=
  condenses_plain fun d hd => by rwa [List.mem_singleton.1 hd]

/-- A bracket, a comma or a colon, behind which a text goes on. -/
theorem Condenses.cons {c : Char} (hc : IsPlain c) (h : Condenses text left) :
    Condenses (c :: text) (c :: left) := (condenses_singleton hc).append h

end

/-! ## Strings -/

/-- Inside a string every character is left, a blank too. -/
theorem withoutBlanksFrom_inside (c : Char) (cs : List Char) :
    withoutBlanksFrom .inside (c :: cs) = c :: withoutBlanksFrom (Place.inside.next c) cs := by
  rw [withoutBlanksFrom, if_neg (by simp)]

/-- Behind a backslash a character does not change where the reader is. -/
theorem withoutBlanksFrom_escaped (c : Char) (cs : List Char) :
    withoutBlanksFrom .inside ('\\' :: c :: cs) = '\\' :: c :: withoutBlanksFrom .inside cs := by
  rw [withoutBlanksFrom_inside, Place.next, if_pos rfl, withoutBlanksFrom, if_neg (by simp)]
  rfl

/-- A character that means itself inside a string. -/
theorem withoutBlanksFrom_literal {c : Char} (hslash : c ≠ '\\') (hquote : c ≠ '"')
    (cs : List Char) :
    withoutBlanksFrom .inside (c :: cs) = c :: withoutBlanksFrom .inside cs := by
  rw [withoutBlanksFrom_inside, Place.next, if_neg hslash, if_neg hquote]

/-- A digit of an escaped character is neither backslash nor quote. -/
theorem digitChar_ne : ∀ n < 16, Nat.digitChar n ≠ '\\' ∧ Nat.digitChar n ≠ '"' := by decide

/-- An escaped character does not end the string that it stands in. -/
theorem withoutBlanksFrom_escape (c : Char) (rest : List Char) :
    withoutBlanksFrom .inside (Json.escaped c ++ rest) =
      Json.escaped c ++ withoutBlanksFrom .inside rest := by
  unfold Json.escaped
  split
  case h_8 =>
    rename_i hquote hslash _ _ _ _ _
    split
    · rename_i hcontrol
      obtain ⟨hhigh, hhigh'⟩ := digitChar_ne (c.toNat / 16) (by omega)
      obtain ⟨hlow, hlow'⟩ := digitChar_ne (c.toNat % 16) (by omega)
      simp only [List.cons_append, List.nil_append]
      rw [withoutBlanksFrom_escaped, withoutBlanksFrom_literal (by decide) (by decide),
        withoutBlanksFrom_literal (by decide) (by decide), withoutBlanksFrom_literal hhigh hhigh',
        withoutBlanksFrom_literal hlow hlow']
    · exact withoutBlanksFrom_literal (fun h => hslash h) (fun h => hquote h) rest
  all_goals exact withoutBlanksFrom_escaped _ rest

/-- A string stays as it is. -/
theorem condenses_quote (s : String) : Condenses (quote s) (quote s) := fun rest => by
  have hbody (cs : List Char) : withoutBlanksFrom .inside (cs.flatMap Json.escaped ++ '"' :: rest) =
      cs.flatMap Json.escaped ++ '"' :: withoutBlanksFrom .outside rest := by
    induction cs with
    | nil => exact withoutBlanksFrom_inside '"' rest
    | cons c cs ih =>
      rw [List.flatMap_cons, List.append_assoc, withoutBlanksFrom_escape, ih, List.append_assoc]
  rw [quote, List.cons_append, List.cons_append, List.append_assoc, List.singleton_append,
    withoutBlanksFrom, if_neg (by decide)]
  change '"' :: withoutBlanksFrom .inside _ = _
  rw [hbody, List.cons_append, List.append_assoc, List.singleton_append]

/-! ## Numbers -/

/-- A numeral whose digits are decimal digits. -/
structure Numeral.IsDecimal (n : Numeral) : Prop where
  whole : ∀ c ∈ n.whole, Text.isDigit c = true
  fraction : ∀ c ∈ n.fraction, Text.isDigit c = true

/-- Digits are plain. -/
theorem isPlain_of_isDigit {c : Char} (h : Text.isDigit c = true) : IsPlain c :=
  of_decide_eq_true (Text.of_isDigit (p := fun c => decide (IsPlain c)) (by decide) h)

/-- A number is written with digits. -/
theorem isDigit_of_mem_toDigits {c : Char} {n : Nat} (h : c ∈ Nat.toDigits 10 n) :
    Text.isDigit c = true := by
  have hdigit : c.isDigit = true := Nat.isDigit_of_mem_toDigits (by decide) (by decide) h
  simpa [Text.isDigit, Char.isDigit, Char.le_def] using hdigit

/-- Numerals have no blanks. -/
theorem Numeral.IsDecimal.isPlain_text {n : Numeral} (h : n.IsDecimal) :
    ∀ c ∈ n.text, IsPlain c := by
  have hdigits : ∀ m : Nat, ∀ c ∈ Nat.toDigits 10 m, IsPlain c := fun m c hc =>
    isPlain_of_isDigit (isDigit_of_mem_toDigits hc)
  intro c hc
  simp only [text, List.mem_append] at hc
  rcases hc with ((hsign | hwhole) | hfraction) | hexponent
  · split at hsign
    · rw [List.mem_singleton.1 hsign]
      decide
    · contradiction
  · exact isPlain_of_isDigit (h.whole c hwhole)
  · split at hfraction
    · contradiction
    · rcases List.mem_cons.1 hfraction with rfl | hmem
      · decide
      · exact isPlain_of_isDigit (h.fraction c hmem)
  · split at hexponent
    · contradiction
    · rename_i e _
      rcases List.mem_cons.1 hexponent with rfl | hexponent
      · decide
      · rcases List.mem_cons.1 hexponent with rfl | hmem
        · split <;> decide
        · exact hdigits _ c hmem

theorem Numeral.isDecimal_ofNat (n : Nat) : (ofNat n).IsDecimal :=
  ⟨fun _ => isDigit_of_mem_toDigits, by simp [ofNat]⟩

/-- Digits with a point put among them, or with an exponent, are a decimal numeral. -/
theorem Numeral.isDecimal_ofDigits {digits : List Char} (negative : Bool)
    (h : ∀ c ∈ digits, Text.isDigit c = true) (e : Int) :
    (ofDigits negative digits e).IsDecimal := by
  have htake (n : Nat) : ∀ c ∈ digits.take n, Text.isDigit c = true := fun c hc =>
    h c (List.mem_of_mem_take hc)
  have hdrop (n : Nat) : ∀ c ∈ digits.drop n, Text.isDigit c = true := fun c hc =>
    h c (List.mem_of_mem_drop hc)
  have hzeros (n : Nat) : ∀ c ∈ List.replicate n '0', Text.isDigit c = true := fun c hc => by
    rw [List.eq_of_mem_replicate hc]
    decide
  have hzero : ∀ c ∈ ['0'], Text.isDigit c = true := List.all_eq_true.1 (by decide)
  unfold ofDigits
  dsimp only
  split
  · split
    · exact ⟨List.forall_mem_append.2 ⟨h, hzeros _⟩, hzero⟩
    · split
      · exact ⟨htake _, hdrop _⟩
      · exact ⟨hzero, List.forall_mem_append.2 ⟨hzeros _, h⟩⟩
  · exact ⟨htake _, hdrop _⟩

/-- The numeral of a floating-point number is decimal, whatever the number is. -/
theorem Numeral.isDecimal_ofFloat (x : Float) : (ofFloat x).IsDecimal := by
  have hzero : ∀ c ∈ ['0'], Text.isDigit c = true := List.all_eq_true.1 (by decide)
  unfold ofFloat
  dsimp only
  split
  · exact ⟨hzero, hzero⟩
  · exact isDecimal_ofDigits _ (fun _ => isDigit_of_mem_toDigits) _

/-! ## Values -/

/-- A value whose numbers are made of decimal digits. -/
inductive HasDecimals : Json → Prop where
  | null : HasDecimals .null
  | bool (b : Bool) : HasDecimals (.bool b)
  | number {n : Numeral} (h : n.IsDecimal) : HasDecimals (.number n)
  | string (s : String) : HasDecimals (.string s)
  | array {items : List Json} (h : ∀ v ∈ items, HasDecimals v) : HasDecimals (.array items)
  | object {members : List (String × Json)} (h : ∀ m ∈ members, HasDecimals m.2) :
    HasDecimals (.object members)

@[simp] theorem hasDecimals_string (s : String) : (Json.string s).HasDecimals := .string s

@[simp] theorem hasDecimals_bool (b : Bool) : (Json.bool b).HasDecimals := .bool b

@[simp] theorem hasDecimals_nat (n : Nat) : (nat n).HasDecimals :=
  .number (Numeral.isDecimal_ofNat n)

/-- A floating-point number is written with decimals, or as `null`. -/
@[simp] theorem hasDecimals_float (x : Float) : (float x).HasDecimals := by
  unfold float
  split
  · exact .number (Numeral.isDecimal_ofFloat x)
  · exact .null

/-- A member that may be absent has decimals if its value has. -/
theorem hasDecimals_optional (key : String) {f : α → Json} (h : ∀ a, (f a).HasDecimals)
    (value : Option α) : ∀ m ∈ optional key f value, m.2.HasDecimals := by
  cases value <;> simp [optional, h]

/-- Of a line feed and the blanks behind it nothing is left. -/
theorem condenses_newLine (level : Nat) : Condenses (newLine level) [] := by
  refine condenses_blanks fun c hc => ?_
  rcases List.mem_cons.1 hc with rfl | hc
  · decide
  · rw [List.eq_of_mem_replicate hc]
    decide

/-- Of the indented items of a list the compact ones are left, if that is so of each. -/
theorem condenses_items {items : List Json}
    (h : ∀ v ∈ items, ∀ level, Condenses (prettyChars level v) (compactChars v)) (level : Nat) :
    Condenses (prettyItems level items) (compactItems items) := by
  induction items with
  | nil => exact fun rest => rfl
  | cons item items ih =>
    have hitem := h item List.mem_cons_self level
    have hitems := ih fun v hv => h v (List.mem_cons_of_mem item hv)
    cases items with
    | nil => simpa only [prettyItems, compactItems] using hitem
    | cons next items =>
      rw [prettyItems, compactItems, List.append_assoc]
      exact hitem.append (.cons (by decide) ((condenses_newLine level).append hitems))

/-- Of the indented members of an object the compact ones are left, if that is so of each. -/
theorem condenses_members {members : List (String × Json)}
    (h : ∀ m ∈ members, ∀ level, Condenses (prettyChars level m.2) (compactChars m.2))
    (level : Nat) : Condenses (prettyMembers level members) (compactMembers members) := by
  have hblank : Condenses [' '] [] := condenses_blanks (List.all_eq_true.1 (by decide))
  induction members with
  | nil => exact fun rest => rfl
  | cons member members ih =>
    obtain ⟨key, value⟩ := member
    have hvalue : Condenses (':' :: ' ' :: prettyChars level value) (':' :: compactChars value) :=
      .cons (by decide) (hblank.append (h (key, value) List.mem_cons_self level))
    have hmember := (condenses_quote key).append hvalue
    have hmembers := ih fun m hm => h m (List.mem_cons_of_mem _ hm)
    cases members with
    | nil => simpa only [prettyMembers, compactMembers] using hmember
    | cons next members =>
      have hcomma : IsPlain ',' := by decide
      have := hmember.append (.cons hcomma ((condenses_newLine level).append hmembers))
      simpa only [prettyMembers, compactMembers, List.cons_append, List.append_assoc,
        List.nil_append] using this

/-- Lines between brackets; the last bracket stands on a line of its own. -/
theorem condenses_bracketed {opening closing : Char} {text left : List Char}
    (hopening : IsPlain opening) (hclosing : IsPlain closing) (h : Condenses text left)
    (level : Nat) :
    Condenses (opening :: newLine (level + 1) ++ text ++ newLine level ++ [closing])
      (opening :: left ++ [closing]) := by
  have hlast := (condenses_newLine level).append (condenses_singleton hclosing)
  have := Condenses.cons hopening ((condenses_newLine (level + 1)).append (h.append hlast))
  simpa only [List.cons_append, List.append_assoc, List.nil_append] using this

/-- Of the indented form of a value the compact form is left, at every depth. -/
theorem HasDecimals.condenses {v : Json} (h : v.HasDecimals) (level : Nat) :
    Condenses (prettyChars level v) (compactChars v) := by
  induction h generalizing level with
  | null =>
    rw [prettyChars, compactChars]
    exact condenses_of_all (by decide)
  | bool b =>
    rw [prettyChars, compactChars]
    exact condenses_of_all (by cases b <;> decide)
  | number h =>
    rw [prettyChars, compactChars]
    exact condenses_plain h.isPlain_text
  | string s =>
    rw [prettyChars, compactChars]
    exact condenses_quote s
  | @array items _ ih =>
    cases items with
    | nil =>
      rw [prettyChars, compactChars]
      exact condenses_of_all (by decide)
    | cons item items =>
      rw [prettyChars, compactChars]
      exact condenses_bracketed (by decide) (by decide) (condenses_items ih (level + 1)) level
  | @object members _ ih =>
    cases members with
    | nil =>
      rw [prettyChars, compactChars]
      exact condenses_of_all (by decide)
    | cons member members =>
      rw [prettyChars, compactChars]
      exact condenses_bracketed (by decide) (by decide) (condenses_members ih (level + 1)) level

/-- What is left of a text when nothing follows it. -/
theorem withoutBlanks_of_condenses {text left : List Char} (h : Condenses text left) :
    withoutBlanks (String.ofList text) = String.ofList left := by
  have := h []
  rw [List.append_nil] at this
  rw [withoutBlanks, String.toList_ofList, this, withoutBlanksFrom, List.append_nil]

/-- Without its blanks the indented form is the compact one. -/
theorem withoutBlanks_pretty {v : Json} (h : v.HasDecimals) : withoutBlanks v.pretty = v.compact :=
  withoutBlanks_of_condenses (h.condenses 0)

/-- The same behind which a line ends. -/
theorem withoutBlanks_pretty_newline {v : Json} (h : v.HasDecimals) :
    withoutBlanks (v.pretty ++ "\n") = v.compact := by
  have hline : Condenses ['\n'] [] := condenses_blanks (List.all_eq_true.1 (by decide))
  have := withoutBlanks_of_condenses ((h.condenses 0).append hline)
  rwa [List.append_nil, String.ofList_append] at this

end SchemaDiagram.Json
