import SchemaDiagram.CommandLine.Options

/-!
# SchemaDiagram.Proofs.CommandLine.Arguments

What arguments say about each option.

Behind the document, arguments are read in pairs of an option and its value.  So the options that
they stand for have the last value that is given to each flag (`value?_ofArgs`), and a flag can be
left out with all its values, which changes nothing about the others (`exists_ofArgs_without`).
-/

namespace SchemaDiagram.CommandLine

/-! ## Values of flags -/

/-- The name of a format. -/
def Format.name : Format → String
  | json => "json"
  | mermaid => "mermaid"

/-- A format is found by its own name only. -/
theorem Format.name_of_ofName? {s : String} {f : Format} (h : ofName? s = some f) : f.name = s := by
  unfold ofName? at h
  split at h
  · rename_i hs
    cases h
    exact hs.symm
  · split at h
    · rename_i hs
      cases h
      exact hs.symm
    · contradiction

/-- Formats are told apart by their names. -/
theorem Format.name_inj {f g : Format} (h : f.name = g.name) : f = g := by
  cases f <;> cases g <;> first | rfl | exact absurd h (by decide)

namespace Flag

/-- The values that pairs of arguments give to a flag, in order. -/
def values (flag : Flag) : List String → List String
  | [] | [_] => []
  | arg :: value :: rest => (if ofArg? arg = some flag then [value] else []) ++ values flag rest

/-- The values that arguments give to a flag: the first argument is the document. -/
def given (flag : Flag) (args : List String) : List String := flag.values (args.drop 1)

/-- Pairs of arguments without those of a flag. -/
def remove (flag : Flag) : List String → List String
  | [] => []
  | [arg] => [arg]
  | arg :: value :: rest =>
    if ofArg? arg = some flag then remove flag rest else arg :: value :: remove flag rest

/-- Arguments without a flag. -/
def without (flag : Flag) (args : List String) : List String :=
  args.take 1 ++ flag.remove (args.drop 1)

/-- A flag that is removed has no values, and the others keep theirs. -/
theorem values_remove (flag g : Flag) (args : List String) :
    g.values (flag.remove args) = if g = flag then [] else g.values args := by
  fun_induction remove flag args with
  | case1 => simp [values]
  | case2 arg => simp [values]
  | case3 arg value rest h ih =>
    rw [ih, values, h]
    by_cases hg : g = flag
    · simp [hg]
    · simp [hg, Ne.symm hg]
  | case4 arg value rest h ih =>
    rw [values, ih]
    by_cases hg : g = flag
    · subst hg
      simp [h]
    · simp [hg, values]

end Flag

namespace Options

/-- The value of an option, if it has one. -/
def value? (o : Options) : Flag → Option String
  | .output => o.output
  | .theme => some o.theme
  | .layout => o.layout
  | .format => some o.format.name
  | .locate => o.locate

variable {o o' p : Options} {flag : Flag} {value : String} {args : List String}

/-- Options are the same that have the same document and the same values. -/
theorem eq_of_value? (hinput : o.input = p.input) (h : ∀ flag, o.value? flag = p.value? flag) :
    o = p := by
  obtain ⟨input, output, theme, layout, format, locate⟩ := o
  have houtput : output = p.output := h .output
  have htheme : theme = p.theme := Option.some.inj (h .theme)
  have hlayout : layout = p.layout := h .layout
  have hformat : format = p.format := Format.name_inj (Option.some.inj (h .format))
  have hlocate : locate = p.locate := h .locate
  subst houtput htheme hlayout hformat hlocate
  cases hinput
  rfl

/-! ## Setting options -/

/-- Setting an option changes that option alone. -/
theorem value?_set (h : o.set flag value = .ok o') (g : Flag) :
    o'.value? g = if g = flag then some value else o.value? g := by
  unfold set at h
  cases flag with
  | format =>
    dsimp only at h
    split at h
    · rename_i format hformat
      cases h
      cases g <;> simp [value?, Format.name_of_ofName? hformat]
    · contradiction
  | output | theme | layout | locate =>
    cases h
    cases g <;> rfl

/-- It never changes the document. -/
theorem input_set (h : o.set flag value = .ok o') : o'.input = o.input := by
  unfold set at h
  cases flag with
  | format =>
    dsimp only at h
    split at h
    · cases h
      rfl
    · contradiction
  | output | theme | layout | locate =>
    cases h
    rfl

/-- Whether a value can be set does not depend on the other options. -/
theorem exists_set (h : o.set flag value = .ok o') (p : Options) :
    ∃ p', p.set flag value = .ok p' := by
  unfold set at h ⊢
  cases flag with
  | format =>
    dsimp only at h ⊢
    split at h
    · exact ⟨_, rfl⟩
    · contradiction
  | output | theme | layout | locate => exact ⟨_, rfl⟩

/-! ## Adding arguments -/

/-- Arguments are added pair by pair. -/
theorem addArgs_eq_ok_cons {arg : String} {rest : List String} :
    o.addArgs (arg :: value :: rest) = .ok p ↔
      ∃ flag o', Flag.ofArg? arg = some flag ∧ o.set flag value = .ok o' ∧
        o'.addArgs rest = .ok p := by
  rw [addArgs]
  split
  · simp [*]
  · split
    · simp [*]
    · simp [*]

/-- A single argument behind the pairs is an error. -/
theorem addArgs_singleton_ne_ok (arg : String) : o.addArgs [arg] ≠ .ok p := by
  rw [addArgs]
  split <;> simp

/-- The last value that is given to a flag holds, or the one that the options had before. -/
theorem value?_addArgs (h : o.addArgs args = .ok p) (g : Flag) :
    p.value? g = (g.values args).getLast?.or (o.value? g) := by
  fun_induction Flag.values g args generalizing o with
  | case1 =>
    cases h
    rfl
  | case2 arg => exact absurd h (addArgs_singleton_ne_ok arg)
  | case3 arg value rest ih =>
    obtain ⟨flag, o', hflag, hset, hrest⟩ := addArgs_eq_ok_cons.1 h
    rw [ih hrest, value?_set hset, hflag, List.getLast?_append]
    by_cases hg : g = flag
    · simp [hg]
    · simp [hg, Ne.symm hg]

/-- The document is the first argument, whatever stands behind it. -/
theorem input_addArgs (h : o.addArgs args = .ok p) : p.input = o.input := by
  fun_induction addArgs o args with
  | case1 o =>
    cases h
    rfl
  | case2 | case3 | case4 | case5 => contradiction
  | case6 o arg value rest flag hflag o' hset ih => rw [ih h, input_set hset]

/-- What can be added can be added without a flag, to any options. -/
theorem exists_addArgs_remove (h : o.addArgs args = .ok p) (flag : Flag) (q : Options) :
    ∃ q', q.addArgs (flag.remove args) = .ok q' := by
  fun_induction Flag.remove flag args generalizing o q with
  | case1 => exact ⟨q, rfl⟩
  | case2 arg => exact absurd h (addArgs_singleton_ne_ok arg)
  | case3 arg value rest hflag ih =>
    obtain ⟨_, o', _, _, hrest⟩ := addArgs_eq_ok_cons.1 h
    exact ih hrest q
  | case4 arg value rest hflag ih =>
    obtain ⟨g, o', hg, hset, hrest⟩ := addArgs_eq_ok_cons.1 h
    obtain ⟨q₁, hq₁⟩ := exists_set hset q
    obtain ⟨q₂, hq₂⟩ := ih hrest q₁
    exact ⟨q₂, addArgs_eq_ok_cons.2 ⟨g, q₁, hg, hq₁, hq₂⟩⟩

/-! ## All arguments -/

/-- Without a flag, arguments stand for options that lack its values and are otherwise the same. -/
theorem exists_ofArgs_without (h : ofArgs args = .ok o) (flag : Flag) :
    ∃ p, ofArgs (flag.without args) = .ok p ∧ p.input = o.input ∧
      ∀ g, p.value? g = if g = flag then ({ input := o.input } : Options).value? g
        else o.value? g := by
  cases args with
  | nil => contradiction
  | cons input args =>
    rw [ofArgs] at h
    have hinput : o.input = input := input_addArgs h
    obtain ⟨p, hp⟩ := exists_addArgs_remove h flag { input }
    refine ⟨p, hp, (input_addArgs hp).trans hinput.symm, fun g => ?_⟩
    rw [value?_addArgs hp, value?_addArgs h, Flag.values_remove, hinput]
    by_cases hg : g = flag <;> simp [hg]

/-- The options have the last value that is given to each flag, or the usual one. -/
theorem value?_ofArgs (h : ofArgs args = .ok o) (flag : Flag) :
    o.value? flag =
      (flag.given args).getLast?.or (({ input := o.input } : Options).value? flag) := by
  cases args with
  | nil => contradiction
  | cons input args =>
    have hinput : o.input = input := input_addArgs h
    rw [hinput]
    exact value?_addArgs h flag

end Options

end SchemaDiagram.CommandLine
