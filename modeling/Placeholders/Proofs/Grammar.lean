import Mathlib.Logic.Basic
import Mathlib.Logic.ExistsUnique
import Placeholders.Expression

set_option autoImplicit false

namespace Placeholders.Expression

def CastChar (c : Char) : Prop :=
  ('A' ≤ c ∧ c ≤ 'Z') ∨ ('a' ≤ c ∧ c ≤ 'z') ∨ ('0' ≤ c ∧ c ≤ '9') ∨ c = '_' ∨ c = '.'

def NameChar (c : Char) : Prop :=
  CastChar c ∨ c = '(' ∨ c = ')'

def ArgumentChar (c : Char) : Prop :=
  CastChar c ∨ c ∈ [',', '+', '-', '\'', ' ', '\t']

/-- A text over an alphabet that is not empty. -/
def Word (alphabet : Char → Prop) (cs : List Char) : Prop :=
  cs ≠ [] ∧ ∀ c ∈ cs, alphabet c

/-- What may follow a name: nothing, or `:` and an argument clause. -/
inductive Tail : List Char → Prop
  | absent : Tail []
  | clause {clause : List Char} (chars : ∀ c ∈ clause, ArgumentChar c) : Tail (':' :: clause)

/-- The arguments that stand in a tail: none if it is empty or its clause is blank, else the
trimmed pieces between the commas. -/
inductive Lists : List Char → List String → Prop
  | absent : Lists [] []
  | blank {clause : List Char} (blank : ∀ c ∈ clause, Text.isBlank c = true) :
      Lists (':' :: clause) []
  | pieces {clause : List Char} {pieces : List (List Char)}
      (written : ∃ c ∈ clause, Text.isBlank c = false) (joined : [','].intercalate pieces = clause)
      (apart : ∀ piece ∈ pieces, ',' ∉ piece) :
      Lists (':' :: clause) (pieces.map fun piece => String.ofList (Text.trim piece))

structure BareForm (cs name tail : List Char) : Prop where
  layout : cs = name ++ tail
  name : Word NameChar name
  tail : Tail tail

structure CastForm (cs cast name tail : List Char) : Prop where
  layout : cs = '(' :: cast ++ ')' :: (name ++ tail)
  cast : Word CastChar cast
  name : Word NameChar name
  tail : Tail tail

theorem isCastChar_iff (c : Char) : isCastChar c = true ↔ CastChar c := by
  have upper : c.isUpper = true ↔ 'A' ≤ c ∧ c ≤ 'Z' := decide_eq_true_iff
  have lower : c.isLower = true ↔ 'a' ≤ c ∧ c ≤ 'z' :=
    Bool.and_eq_true_iff.trans (and_congr decide_eq_true_iff decide_eq_true_iff)
  have digit : c.isDigit = true ↔ '0' ≤ c ∧ c ≤ '9' :=
    Bool.and_eq_true_iff.trans (and_congr decide_eq_true_iff decide_eq_true_iff)
  have alphanum : c.isAlphanum = (c.isUpper || c.isLower || c.isDigit) := rfl
  simp only [isCastChar, CastChar, alphanum, Bool.or_eq_true, beq_iff_eq, upper, lower, digit,
    or_assoc]

theorem isNameChar_iff (c : Char) : isNameChar c = true ↔ NameChar c := by
  simp [isNameChar, NameChar, isCastChar_iff, or_assoc]

theorem isArgumentChar_iff (c : Char) : isArgumentChar c = true ↔ ArgumentChar c := by
  simp [isArgumentChar, ArgumentChar, isCastChar_iff, or_assoc]

theorem Tail.head_not_name {tail : List Char} (here : Tail tail) :
    ∀ c ∈ tail.head?, isNameChar c = false := by
  cases here with
  | absent => simp
  | clause chars =>
      intro c first
      obtain rfl := Option.some.inj first
      decide

theorem takeCast?_eq_some_iff (cs cast rest : List Char) :
    takeCast? cs = some (cast, rest) ↔ cs = '(' :: cast ++ ')' :: rest ∧ Word CastChar cast := by
  constructor
  · intro taken
    unfold takeCast? at taken
    split at taken
    · rename_i after
      split at taken
      · rename_i c cs' rest' front back
        simp only [Option.some.injEq, Prod.mk.injEq] at taken
        obtain ⟨rfl, rfl⟩ := taken
        have split := after.takeWhile_append_dropWhile (p := isCastChar)
        have inside : ∀ d ∈ after.takeWhile isCastChar, isCastChar d = true :=
          List.all_eq_true.mp List.all_takeWhile
        rw [front] at inside
        rw [front, back] at split
        refine ⟨by rw [← split]; rfl, by simp, ?_⟩
        intro d member
        exact (isCastChar_iff d).mp (inside d member)
      · cases taken
    · cases taken
  · rintro ⟨rfl, nonempty, chars⟩
    obtain ⟨c, cast, rfl⟩ := List.exists_cons_of_ne_nil nonempty
    have inside : ∀ d ∈ c :: cast, isCastChar d = true := fun d member =>
      (isCastChar_iff d).mpr (chars d member)
    have stop : ∀ d ∈ (')' :: rest).head?, isCastChar d = false := by
      simp only [List.head?_cons, Option.mem_def, Option.some.injEq, forall_eq']
      decide
    obtain ⟨front, back⟩ := Text.span_append inside stop
    simp only [takeCast?, List.cons_append] at front back ⊢
    rw [front, back]
    rfl

theorem bareForm_iff (cs name tail : List Char) :
    BareForm cs name tail ↔
      name = cs.takeWhile isNameChar ∧ tail = cs.dropWhile isNameChar ∧ name ≠ [] ∧ Tail tail := by
  constructor
  · rintro ⟨rfl, ⟨nonempty, chars⟩, here⟩
    have inside : ∀ c ∈ name, isNameChar c = true := fun c member =>
      (isNameChar_iff c).mpr (chars c member)
    obtain ⟨front, back⟩ := Text.span_append inside here.head_not_name
    exact ⟨front.symm, back.symm, nonempty, here⟩
  · rintro ⟨rfl, rfl, nonempty, here⟩
    refine ⟨List.takeWhile_append_dropWhile.symm, ⟨nonempty, ?_⟩, here⟩
    intro c member
    exact (isNameChar_iff c).mp (List.all_eq_true.mp List.all_takeWhile c member)

theorem castForm_iff (cs cast name tail : List Char) :
    CastForm cs cast name tail ↔
      ∃ rest, takeCast? cs = some (cast, rest) ∧ BareForm rest name tail := by
  simp only [takeCast?_eq_some_iff]
  constructor
  · intro form
    exact ⟨name ++ tail, ⟨form.layout, form.cast⟩, ⟨rfl, form.name, form.tail⟩⟩
  · rintro ⟨rest, ⟨layout, cast⟩, bare⟩
    exact ⟨by rw [layout, bare.layout], cast, bare.name, bare.tail⟩

theorem BareForm.unique {cs name tail name' tail' : List Char} (form : BareForm cs name tail)
    (other : BareForm cs name' tail') : name = name' ∧ tail = tail' := by
  obtain ⟨rfl, rfl, -, -⟩ := (bareForm_iff _ _ _).mp form
  obtain ⟨rfl, rfl, -, -⟩ := (bareForm_iff _ _ _).mp other
  exact ⟨rfl, rfl⟩

theorem CastForm.unique {cs cast name tail cast' name' tail' : List Char}
    (form : CastForm cs cast name tail) (other : CastForm cs cast' name' tail') :
    cast = cast' ∧ name = name' ∧ tail = tail' := by
  obtain ⟨rest, taken, bare⟩ := (castForm_iff _ _ _ _).mp form
  obtain ⟨rest', taken', bare'⟩ := (castForm_iff _ _ _ _).mp other
  rw [taken, Option.some.injEq, Prod.mk.injEq] at taken'
  obtain ⟨rfl, rfl⟩ := taken'
  exact ⟨rfl, bare.unique bare'⟩

theorem commaPieces_eq_splitOn (cs : List Char) : commaPieces cs = cs.splitOn ',' := by
  induction cs with
  | nil => rfl
  | cons c cs ih =>
      rw [commaPieces, ih]
      simp [List.splitOn_eq_splitOnP, List.splitOnP_cons_eq_if_modifyHead]

theorem not_mem_of_mem_commaPieces {cs piece : List Char} (member : piece ∈ commaPieces cs) :
    ',' ∉ piece := by
  induction cs generalizing piece with
  | nil => simp_all [commaPieces]
  | cons c cs ih =>
      rw [commaPieces] at member
      split at member
      · rcases List.mem_cons.mp member with rfl | later
        · simp
        · exact ih later
      · rename_i other
        cases pieces : commaPieces cs with
        | nil => simp [pieces] at member
        | cons first others =>
            rw [pieces] at ih member
            rcases List.mem_cons.mp member with rfl | later
            · simp [Ne.symm other, ih (List.mem_cons_self ..)]
            · exact ih (List.mem_cons_of_mem _ later)

theorem lists_clause_iff (clause : List Char) (arguments : List String) :
    Lists (':' :: clause) arguments ↔ splitArguments clause = arguments := by
  rw [splitArguments]
  constructor
  · intro lists
    cases lists with
    | blank blank => rw [if_pos ((Text.isBlankText_iff clause).mpr blank)]
    | @pieces _ pieces written joined apart =>
        obtain ⟨c, member, solid⟩ := written
        have notBlank : ¬ Text.isBlankText clause = true := by
          intro blank
          rw [(Text.isBlankText_iff clause).mp blank c member] at solid
          cases solid
        have nonempty : pieces ≠ [] := by
          rintro rfl
          subst joined
          cases member
        rw [if_neg notBlank, commaPieces_eq_splitOn, ← joined,
          List.splitOn_intercalate ',' apart nonempty]
  · intro split
    split at split
    · rename_i blank
      subst split
      exact .blank ((Text.isBlankText_iff clause).mp blank)
    · rename_i notBlank
      subst split
      refine .pieces ?_ ?_ fun piece => not_mem_of_mem_commaPieces
      · simpa [Text.isBlankText_iff] using notBlank
      · rw [commaPieces_eq_splitOn, List.intercalate_splitOn]

theorem readArguments?_eq_some_iff (tail : List Char) (arguments : List String) :
    readArguments? tail = some arguments ↔ Tail tail ∧ Lists tail arguments := by
  unfold readArguments?
  split
  · constructor
    · intro read
      obtain rfl := Option.some.inj read
      exact ⟨.absent, .absent⟩
    · rintro ⟨-, lists⟩
      cases lists
      rfl
  · rename_i clause
    rw [lists_clause_iff, Option.ite_none_right_eq_some, List.all_eq_true]
    simp only [isArgumentChar_iff]
    apply and_congr
    · exact ⟨.clause, fun here => by cases here with | clause chars => exact chars⟩
    · rw [Option.some.injEq]
  · rename_i c rest notColon
    simp only [reduceCtorEq, false_iff, not_and]
    intro here
    cases here
    exact absurd rfl notColon

theorem Tail.existsUnique_lists {tail : List Char} (here : Tail tail) :
    ∃! arguments, Lists tail arguments := by
  cases here with
  | absent => exact ⟨[], .absent, fun _ lists => by cases lists; rfl⟩
  | @clause clause _ =>
      exact ⟨splitArguments clause, (lists_clause_iff _ _).mpr rfl, fun arguments lists =>
        ((lists_clause_iff _ _).mp lists).symm⟩

theorem readName?_eq_some_iff (cast : Option String) (cs : List Char) (e : Expression) :
    readName? cast cs = some e ↔
      ∃ name tail arguments, BareForm cs name tail ∧ Lists tail arguments ∧
        e = ⟨cast, String.ofList name, arguments⟩ := by
  simp only [readName?, bareForm_iff]
  split
  · rename_i empty
    simp only [reduceCtorEq, false_iff]
    rintro ⟨_, _, _, ⟨rfl, -, nonempty, -⟩, -, -⟩
    exact nonempty empty
  · rename_i nonempty
    rw [Option.map_eq_some_iff]
    constructor
    · rintro ⟨arguments, read, rfl⟩
      obtain ⟨here, lists⟩ := (readArguments?_eq_some_iff _ _).mp read
      exact ⟨_, _, arguments, ⟨rfl, rfl, nonempty, here⟩, lists, rfl⟩
    · rintro ⟨_, _, arguments, ⟨rfl, rfl, -, here⟩, lists, rfl⟩
      exact ⟨arguments, (readArguments?_eq_some_iff _ _).mpr ⟨here, lists⟩, rfl⟩

def HasCastForm (cs : List Char) : Prop :=
  ∃ cast name tail, CastForm cs cast name tail

/-- The first attempt of the reader finds the form with a cast. -/
theorem readCast?_eq_some_iff (cs : List Char) (e : Expression) :
    ((takeCast? cs).bind fun (cast, rest) => readName? (some (String.ofList cast)) rest) = some e ↔
      ∃ cast name tail arguments, CastForm cs cast name tail ∧ Lists tail arguments ∧
        e = ⟨some (String.ofList cast), String.ofList name, arguments⟩ := by
  simp only [Option.bind_eq_some_iff, readName?_eq_some_iff, castForm_iff, Prod.exists]
  constructor
  · rintro ⟨cast, rest, taken, name, tail, arguments, bare, lists, rfl⟩
    exact ⟨cast, name, tail, arguments, ⟨rest, taken, bare⟩, lists, rfl⟩
  · rintro ⟨cast, name, tail, arguments, ⟨rest, taken, bare⟩, lists, rfl⟩
    exact ⟨cast, rest, taken, name, tail, arguments, bare, lists, rfl⟩

theorem readCast?_eq_none_iff (cs : List Char) :
    ((takeCast? cs).bind fun (cast, rest) => readName? (some (String.ofList cast)) rest) = none ↔
      ¬ HasCastForm cs := by
  rw [← not_iff_not, not_not, ← ne_eq, Option.ne_none_iff_exists']
  simp only [readCast?_eq_some_iff]
  constructor
  · rintro ⟨_, cast, name, tail, _, form, -, -⟩
    exact ⟨cast, name, tail, form⟩
  · rintro ⟨cast, name, tail, form⟩
    obtain ⟨arguments, lists, -⟩ := form.tail.existsUnique_lists
    exact ⟨_, cast, name, tail, arguments, form, lists, rfl⟩

/-- The reader gives the form with a cast if there is one, else the form without. -/
theorem parse?_eq_some_iff (s : String) (e : Expression) :
    parse? s = some e ↔
      (∃ cast name tail arguments, CastForm s.toList cast name tail ∧ Lists tail arguments ∧
        e = ⟨some (String.ofList cast), String.ofList name, arguments⟩) ∨
      ¬ HasCastForm s.toList ∧
        ∃ name tail arguments, BareForm s.toList name tail ∧ Lists tail arguments ∧
          e = ⟨none, String.ofList name, arguments⟩ := by
  rw [parse?, read?, Option.orElse_eq_orElse, Option.orElse_eq_or, Option.or_eq_some_iff,
    readCast?_eq_some_iff, readCast?_eq_none_iff, readName?_eq_some_iff]

/-- Reading accepts exactly the grammar and prefers a cast. A text has at most one form of each
sort, and its tail determines the arguments. -/
theorem parse?_grammar (s : String) :
    (∀ cast name arguments, parse? s = some ⟨some cast, name, arguments⟩ ↔
      ∃ tail, CastForm s.toList cast.toList name.toList tail ∧ Lists tail arguments) ∧
    (∀ name arguments, parse? s = some ⟨none, name, arguments⟩ ↔
      ¬ HasCastForm s.toList ∧
        ∃ tail, BareForm s.toList name.toList tail ∧ Lists tail arguments) ∧
    (parse? s = none ↔
      ¬ HasCastForm s.toList ∧ ¬ ∃ name tail, BareForm s.toList name tail) ∧
    (∀ cast name tail cast' name' tail', CastForm s.toList cast name tail →
      CastForm s.toList cast' name' tail' → cast = cast' ∧ name = name' ∧ tail = tail') ∧
    (∀ name tail name' tail', BareForm s.toList name tail → BareForm s.toList name' tail' →
      name = name' ∧ tail = tail') ∧
    ∀ tail, Tail tail → ∃! arguments, Lists tail arguments := by
  refine ⟨?_, ?_, ?_, fun _ _ _ _ _ _ => CastForm.unique, fun _ _ _ _ => BareForm.unique,
    fun _ => Tail.existsUnique_lists⟩
  · intro cast name arguments
    rw [parse?_eq_some_iff]
    constructor
    · rintro (⟨cast', name', tail, arguments', form, lists, same⟩ | ⟨-, _, _, _, -, -, same⟩)
      · simp only [mk.injEq, Option.some.injEq] at same
        obtain ⟨rfl, rfl, rfl⟩ := same
        simp only [String.toList_ofList]
        exact ⟨tail, form, lists⟩
      · cases same
    · rintro ⟨tail, form, lists⟩
      exact Or.inl ⟨_, _, tail, arguments, form, lists, by simp only [String.ofList_toList]⟩
  · intro name arguments
    rw [parse?_eq_some_iff]
    constructor
    · rintro (⟨_, _, _, _, -, -, same⟩ | ⟨bare, name', tail, arguments', form, lists, same⟩)
      · cases same
      · simp only [mk.injEq, true_and] at same
        obtain ⟨rfl, rfl⟩ := same
        rw [String.toList_ofList]
        exact ⟨bare, tail, form, lists⟩
    · rintro ⟨bare, tail, form, lists⟩
      exact Or.inr ⟨bare, _, tail, arguments, form, lists, by simp only [String.ofList_toList]⟩
  · rw [Option.eq_none_iff_forall_ne_some]
    simp only [ne_eq, parse?_eq_some_iff, not_or]
    constructor
    · intro unread
      have noCast : ¬ HasCastForm s.toList := by
        rintro ⟨cast, name, tail, form⟩
        obtain ⟨arguments, lists, -⟩ := form.tail.existsUnique_lists
        exact (unread _).1 ⟨cast, name, tail, arguments, form, lists, rfl⟩
      refine ⟨noCast, ?_⟩
      rintro ⟨name, tail, form⟩
      obtain ⟨arguments, lists, -⟩ := form.tail.existsUnique_lists
      exact (unread _).2 ⟨noCast, name, tail, arguments, form, lists, rfl⟩
    · rintro ⟨noCast, noBare⟩ e
      constructor
      · rintro ⟨cast, name, tail, -, form, -⟩
        exact noCast ⟨cast, name, tail, form⟩
      · rintro ⟨-, name, tail, -, form, -⟩
        exact noBare ⟨name, tail, form⟩

/-- A cast of a name in parentheses, parentheses that are no cast for want of a name, and a text
with neither form. -/
theorem parse?_grammar_parentheses :
    (∃ tail, CastForm "(x)(y): a, ,b".toList ['x'] ['(', 'y', ')'] tail ∧
      Lists tail ["a", "", "b"]) ∧
    (¬ HasCastForm "(x):1".toList ∧
      ∃ tail, BareForm "(x):1".toList ['(', 'x', ')'] tail ∧ Lists tail ["1"]) ∧
    ¬ HasCastForm "(x)y!".toList ∧ ¬ ∃ name tail, BareForm "(x)y!".toList name tail := by
  refine ⟨?_, ?_, ?_⟩
  · exact ((parse?_grammar "(x)(y): a, ,b").1 "x" "(y)" ["a", "", "b"]).mp (by decide +kernel)
  · exact ((parse?_grammar "(x):1").2.1 "(x)" ["1"]).mp (by decide +kernel)
  · exact (parse?_grammar "(x)y!").2.2.1.mp (by decide +kernel)

end Placeholders.Expression
