import SchemaDiagram.Json
import SchemaDiagram.Text.Blank
import SchemaDiagram.Text.Letter

/-!
# SchemaDiagram.Json.Reader

The reader of JSON texts.

1. The grammar is the strict one: no comments, no comma after the last item, no zeros in front of a
   number, digits on both sides of a point, no control characters inside strings.
2. Objects keep repeated members.
3. Half of a surrogate pair is refused in the keys of the document itself; further inside, where a
   reader may pass a value over, it stands for U+FFFD.

Every reader returns what is left of the text, with the proof that it is shorter.
-/

namespace SchemaDiagram.Json

/-- What is left of a text after something was read from it. -/
abbrev Rest (cs : List Char) := { rest : List Char // rest.length < cs.length }

/-- A blank between the parts of a JSON text. -/
def isSpace (c : Char) : Bool := c = ' ' || c = '\t' || c = '\n' || c = '\r'

/-- Drops the blanks in front. -/
def skipSpace (cs : List Char) : List Char := cs.dropWhile isSpace

theorem length_skipSpace_le (cs : List Char) : (skipSpace cs).length ≤ cs.length :=
  Text.length_dropWhile_le isSpace cs

/-! ## Literals -/

/-- The text after a word that it must begin with. -/
def afterWord : List Char → List Char → Option (List Char)
  | [], cs => some cs
  | w :: word, c :: cs => if w = c then afterWord word cs else none
  | _ :: _, [] => none

/-- What is left is shorter by the word. -/
theorem length_afterWord {word cs rest : List Char} (h : afterWord word cs = some rest) :
    rest.length + word.length = cs.length := by
  induction word generalizing cs with
  | nil => simp [afterWord] at h; simp [h]
  | cons w word ih =>
    cases cs with
    | nil => simp [afterWord] at h
    | cons c cs =>
      simp only [afterWord] at h
      split at h
      · have := ih h; simp only [List.length_cons]; omega
      · contradiction

/-- A word that stands for a value, given its first letter and the letters that must follow. -/
def literal? (c : Char) (ending : String) (value : Json) (after : List Char) :
    Option (Json × Rest (c :: after)) :=
  match h : afterWord ending.toList after with
  | none => none
  | some rest => some (value, ⟨rest, by
      have := length_afterWord h
      simp only [List.length_cons]
      omega⟩)

/-! ## Numbers -/

/-- One or more digits. -/
def digits? (cs : List Char) : Option (List Char × Rest cs) :=
  match cs with
  | [] => none
  | c :: rest =>
    if Text.isDigit c then
      some (c :: rest.takeWhile Text.isDigit,
        ⟨rest.dropWhile Text.isDigit, Text.length_dropWhile_lt Text.isDigit c rest⟩)
    else none

/-- The digits before a point: a single zero, or digits that do not begin with one. -/
def whole? (cs : List Char) : Option (List Char × Rest cs) :=
  match digits? cs with
  | some (['0'], rest) => some (['0'], rest)
  | some ('0' :: _, _) => none
  | other => other

/-- The digits after a point, or none without a point. -/
def fraction? (cs : List Char) : Option (List Char × { rest : List Char // rest.length ≤ cs.length }) :=
  match cs with
  | '.' :: after =>
    (digits? after).map fun (ds, rest) =>
      (ds, ⟨rest.1, by have := rest.2; simp only [List.length_cons]; omega⟩)
  | cs => some ([], ⟨cs, Nat.le_refl _⟩)

/-- The value of a list of digits. -/
def digitsValue (ds : List Char) : Nat :=
  ds.foldl (fun n c => n * 10 + (c.toNat - '0'.toNat)) 0

/-- Drops a sign; whether it was a minus. -/
def sign (cs : List Char) : Bool × { rest : List Char // rest.length ≤ cs.length } :=
  match cs with
  | '-' :: rest => (true, ⟨rest, by simp⟩)
  | '+' :: rest => (false, ⟨rest, by simp⟩)
  | cs => (false, ⟨cs, Nat.le_refl _⟩)

/-- The exponent, if there is one. -/
def exponent? (cs : List Char) :
    Option (Option Int × { rest : List Char // rest.length ≤ cs.length }) :=
  match cs with
  | [] => some (none, ⟨[], Nat.le_refl _⟩)
  | c :: after =>
    if c = 'e' || c = 'E' then
      let (negative, unsigned) := sign after
      (digits? unsigned.1).map fun (ds, rest) =>
        let n : Int := digitsValue ds
        (some (if negative then -n else n), ⟨rest.1, by
          have := rest.2; have := unsigned.2; simp only [List.length_cons]; omega⟩)
    else some (none, ⟨c :: after, Nat.le_refl _⟩)

/-- A number without its sign. -/
def unsigned? (negative : Bool) (cs : List Char) : Option (Json × Rest cs) := do
  let (whole, r₁) ← whole? cs
  let (fraction, r₂) ← fraction? r₁.1
  let (exponent, r₃) ← exponent? r₂.1
  return (.number ⟨negative, whole, fraction, exponent⟩, ⟨r₃.1, by
    have := r₁.2; have := r₂.2; have := r₃.2; omega⟩)

/-- A number. -/
def number? (cs : List Char) : Option (Json × Rest cs) :=
  match cs with
  | '-' :: after =>
    (unsigned? true after).map fun (n, rest) =>
      (n, ⟨rest.1, by have := rest.2; simp only [List.length_cons]; omega⟩)
  | cs => unsigned? false cs

/-! ## Strings -/

/-- The value of a digit in base sixteen. -/
def hexValue? (c : Char) : Option Nat :=
  if '0' ≤ c ∧ c ≤ '9' then some (c.toNat - '0'.toNat)
  else if 'a' ≤ c ∧ c ≤ 'f' then some (c.toNat - 'a'.toNat + 10)
  else if 'A' ≤ c ∧ c ≤ 'F' then some (c.toNat - 'A'.toNat + 10)
  else none

/-- The value of four such digits. -/
def hexUnit? (a b c d : Char) : Option Nat := do
  return ((← hexValue? a) * 16 + (← hexValue? b)) * 256 + ((← hexValue? c) * 16 + (← hexValue? d))

/-- The character that a letter stands for behind a backslash. -/
def escapedChar? (c : Char) : Option Char :=
  match c with
  | '"' | '\\' | '/' => some c
  | 'b' => some '\x08'
  | 'f' => some '\x0c'
  | 'n' => some '\n'
  | 'r' => some '\r'
  | 't' => some '\t'
  | _ => none

/-- The character of a surrogate pair, if the units make one. -/
def pair? (high low : Nat) : Option Char :=
  if 0xD800 ≤ high ∧ high < 0xDC00 ∧ 0xDC00 ≤ low ∧ low < 0xE000 then
    some (Char.ofNat (0x10000 + (high - 0xD800) * 0x400 + (low - 0xDC00)))
  else none

/-- Whether a unit is half of a pair. -/
def isSurrogate (unit : Nat) : Bool := 0xD800 ≤ unit && unit < 0xE000

/-- The character of a unit on its own; half of a pair is refused or replaced. -/
def unitChar? (strict : Bool) (unit : Nat) : Option Char :=
  if isSurrogate unit then (if strict then none else some '\ufffd') else some (Char.ofNat unit)

/-- The text after an opening quote, up to and without the closing one. -/
def stringBody? (strict : Bool) (cs : List Char) : Option (List Char × Rest cs) :=
  match cs with
  | [] => none
  | '"' :: rest => some ([], ⟨rest, by simp⟩)
  | '\\' :: 'u' :: a :: b :: c :: d :: '\\' :: 'u' :: e :: f :: g :: h :: rest =>
    match hexUnit? a b c d with
    | none => none
    | some high =>
      match (hexUnit? e f g h).bind (pair? high) with
      | some x => (stringBody? strict rest).map fun (xs, r) =>
          (x :: xs, ⟨r.1, by have := r.2; simp only [List.length_cons]; omega⟩)
      | none =>
        match unitChar? strict high with
        | none => none
        | some x => (stringBody? strict ('\\' :: 'u' :: e :: f :: g :: h :: rest)).map fun (xs, r) =>
            (x :: xs, ⟨r.1, by have := r.2; simp only [List.length_cons] at *; omega⟩)
  | '\\' :: 'u' :: a :: b :: c :: d :: rest =>
    match (hexUnit? a b c d).bind (unitChar? strict) with
    | none => none
    | some x => (stringBody? strict rest).map fun (xs, r) =>
        (x :: xs, ⟨r.1, by have := r.2; simp only [List.length_cons]; omega⟩)
  | '\\' :: c :: rest =>
    match escapedChar? c with
    | none => none
    | some x => (stringBody? strict rest).map fun (xs, r) =>
        (x :: xs, ⟨r.1, by have := r.2; simp only [List.length_cons]; omega⟩)
  | c :: rest =>
    if c.toNat < 0x20 || c = '\\' then none
    else (stringBody? strict rest).map fun (xs, r) =>
      (c :: xs, ⟨r.1, by have := r.2; simp only [List.length_cons]; omega⟩)
termination_by cs.length

/-- A string. -/
def string? (strict : Bool) (cs : List Char) : Option (String × Rest cs) :=
  match cs with
  | '"' :: after =>
    (stringBody? strict after).map fun (s, rest) =>
      (String.ofList s, ⟨rest.1, by have := rest.2; simp only [List.length_cons]; omega⟩)
  | _ => none

/-! ## Values -/

/-- The key of a member, and the text behind its colon. -/
def key? (strict : Bool) (cs : List Char) : Option (String × Rest cs) :=
  match string? strict cs with
  | none => none
  | some (key, after) =>
    match h : skipSpace after.1 with
    | ':' :: rest => some (key, ⟨skipSpace rest, by
        have h₁ := length_skipSpace_le after.1
        have h₂ := length_skipSpace_le rest
        have h₃ := after.2
        rw [h] at h₁
        simp only [List.length_cons] at h₁
        omega⟩)
    | _ => none

/-- Whether a list of items goes on after one of them, and the text behind the comma or the closing
bracket. -/
def separator? (close : Char) (cs : List Char) : Option (Bool × Rest cs) :=
  match h : skipSpace cs with
  | [] => none
  | c :: rest =>
    have shorter : (skipSpace rest).length < cs.length := by
      have h₁ := length_skipSpace_le cs
      have h₂ := length_skipSpace_le rest
      rw [h] at h₁
      simp only [List.length_cons] at h₁
      omega
    if c = ',' then some (true, ⟨skipSpace rest, shorter⟩)
    else if c = close then some (false, ⟨rest, by
      have h₁ := length_skipSpace_le cs
      rw [h] at h₁
      simp only [List.length_cons] at h₁
      omega⟩)
    else none

mutual

/-- A value that begins with the text. -/
def value? (strict : Bool) (cs : List Char) : Option (Json × Rest cs) :=
  match cs with
  | '[' :: after =>
    match h : skipSpace after with
    | ']' :: rest => some (.array [], ⟨rest, by
        have := length_skipSpace_le after
        rw [h] at this
        simp only [List.length_cons] at this ⊢
        omega⟩)
    | begun =>
      have : begun.length < ('[' :: after).length := by
        have := length_skipSpace_le after
        rw [h] at this
        simp only [List.length_cons]
        omega
      (items? begun).map fun (vs, rest) => (.array vs, ⟨rest.1, by have := rest.2; omega⟩)
  | '{' :: after =>
    match h : skipSpace after with
    | '}' :: rest => some (.object [], ⟨rest, by
        have := length_skipSpace_le after
        rw [h] at this
        simp only [List.length_cons] at this ⊢
        omega⟩)
    | begun =>
      have : begun.length < ('{' :: after).length := by
        have := length_skipSpace_le after
        rw [h] at this
        simp only [List.length_cons]
        omega
      (members? strict begun).map fun (ms, rest) => (.object ms, ⟨rest.1, by have := rest.2; omega⟩)
  | '"' :: after =>
    (string? false ('"' :: after)).map fun (s, rest) => (.string s, rest)
  | 'n' :: after => literal? 'n' "ull" .null after
  | 't' :: after => literal? 't' "rue" (.bool true) after
  | 'f' :: after => literal? 'f' "alse" (.bool false) after
  | cs => number? cs
termination_by (cs.length, 0)

/-- One or more items and the bracket that closes them. -/
def items? (cs : List Char) : Option (List Json × Rest cs) :=
  match value? false cs with
  | none => none
  | some (v, after) =>
    match separator? ']' after.1 with
    | none => none
    | some (false, rest) => some ([v], ⟨rest.1, by have := rest.2; have := after.2; omega⟩)
    | some (true, next) =>
      have : next.1.length < cs.length := by have := next.2; have := after.2; omega
      (items? next.1).map fun (vs, rest) => (v :: vs, ⟨rest.1, by have := rest.2; omega⟩)
termination_by (cs.length, 1)

/-- One or more members and the brace that closes them. -/
def members? (strict : Bool) (cs : List Char) : Option (List (String × Json) × Rest cs) :=
  match key? strict cs with
  | none => none
  | some (key, begun) =>
    match value? false begun.1 with
    | none => none
    | some (v, after) =>
      match separator? '}' after.1 with
      | none => none
      | some (false, rest) => some ([(key, v)], ⟨rest.1, by
          have := rest.2; have := after.2; have := begun.2; omega⟩)
      | some (true, next) =>
        have : next.1.length < cs.length := by
          have := next.2; have := after.2; have := begun.2; omega
        (members? strict next.1).map fun (ms, rest) =>
          ((key, v) :: ms, ⟨rest.1, by have := rest.2; omega⟩)
termination_by (cs.length, 1)

end

/-- A text that is one value, with blanks around it at most. -/
def read? (text : String) : Option Json :=
  match value? true (skipSpace text.toList) with
  | some (v, rest) => if (skipSpace rest.1).isEmpty then some v else none
  | none => none

end SchemaDiagram.Json
