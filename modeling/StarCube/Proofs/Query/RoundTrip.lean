import StarCube.Proofs.Query.Reading
import StarCube.Proofs.Query.Spelling

/-!
Queries written as text and read back. A query is written by the tokens of one of its trees, each
spelled in any way it can be. Every spelling gives the query back, unless a condition compares with
a whole number that has too many digits: then none does.
-/

namespace StarCube

namespace Value

/-- A value that query text can write. -/
inductive Writable : Value → Prop where
  | bool (b : Bool) : Writable (.bool b)
  | int (n : Int) : Writable (.int n)
  | float (decimal : PlainDecimal) : Writable (.float decimal.toBinary64)
  | text {content : String} (hline : '\n' ∉ content.toList) : Writable (.text content)

end Value

instance : DecidablePred Reserved := fun name =>
  decidable_of_iff (name.toList.map Char.toLower = "measures".toList) (reserved_iff name)

/-- A level that query text can refer to. -/
structure LevelRef.Writable (ref : LevelRef) : Prop where
  dimension : Enclosable ref.dimension
  free : ¬ Reserved ref.dimension
  level : Enclosable ref.level
  hierarchy : ∀ name ∈ ref.hierarchy, Enclosable name

/-- An item that query text can select. -/
inductive SelectItem.Writable : SelectItem → Prop where
  | measure {name : String} (h : Enclosable name) : Writable (.measure name)
  | level {ref : LevelRef} (h : ref.Writable) : Writable (.level ref)

/-- A condition that query text can make. -/
structure Predicate.Writable (predicate : Predicate) : Prop where
  ref : predicate.ref.Writable
  nonempty : predicate.values ≠ []
  values : ∀ value ∈ predicate.values, value.Writable

namespace Query

/-- A query that can be written as text. -/
structure Writable (query : Query) : Prop where
  nonempty : query.select ≠ []
  items : ∀ item ∈ query.select, item.Writable
  cube : Enclosable query.cube
  conditions : ∀ predicate ∈ query.conditions, predicate.Writable

/-- A text writes a query: its tokens are those of a tree that stands for the query. -/
def WrittenAs (query : Query) (text : String) : Prop :=
  ∃ tree : QueryTree, tree.query = query ∧ WrittenBy tree.kinds text.toList

/-- No condition compares with a whole number that has more digits than are read. -/
def Legible (query : Query) : Prop :=
  ∀ predicate ∈ query.conditions, ∀ n : Int, Value.int n ∈ predicate.values →
    (Nat.toDigits 10 n.natAbs).length ≤ ConversionFault.digitLimit

end Query

/-- A token that can be written. -/
def TokenKind.Spellable (kind : TokenKind) : Prop :=
  ∃ spelling, kind.SpelledBy spelling

namespace TokenKind

theorem spellable_name {name : String} (h : Enclosable name) : Spellable (.name name) :=
  ⟨_, .name h⟩

theorem spellable_mark (mark : Mark) : Spellable (.mark mark) :=
  ⟨_, .mark mark⟩

theorem spellable_keyword (keyword : Keyword) : Spellable (.keyword keyword) := by
  refine ⟨keyword.spelling.toList, .keyword ?_⟩
  exact List.forall₂_same.2 fun _ _ => .inl rfl

end TokenKind

open TokenKind

theorem exists_writtenBy {kinds : List TokenKind} (hne : kinds ≠ [])
    (h : ∀ kind ∈ kinds, kind.Spellable) : ∃ text, WrittenBy kinds text := by
  induction kinds with
  | nil => exact absurd rfl hne
  | cons kind kinds ih =>
      rw [List.forall_mem_cons] at h
      obtain ⟨spelling, hspelling⟩ := h.1
      by_cases hlast : kinds = []
      · subst hlast
        exact ⟨spelling, .last hspelling⟩
      · obtain ⟨text, htext⟩ := ih hlast h.2
        exact ⟨_, .more hspelling ⟨List.cons_ne_nil ' ' [], by simp [Separating]⟩ htext⟩

/-- A value has a tree that stands for it and whose tokens can be written. -/
def Drawn {α β : Type} (form : α → List TokenKind) (meaning : α → β) (value : β) : Prop :=
  ∃ tree, meaning tree = value ∧ ∀ kind ∈ form tree, kind.Spellable

namespace Drawn

variable {α β : Type} {form : α → List TokenKind} {meaning : α → β}

/-- Values that are drawn one by one are drawn as a list. -/
theorem listed {separator : TokenKind} (hseparator : separator.Spellable) {values : List β}
    (hne : values ≠ []) (h : ∀ value ∈ values, Drawn form meaning value) :
    Drawn (Listed.kinds separator form) (fun listed => listed.toList.map meaning) values := by
  induction values with
  | nil => exact absurd rfl hne
  | cons value values ih =>
      rw [List.forall_mem_cons] at h
      obtain ⟨tree, rfl, htree⟩ := h.1
      by_cases hlast : values = []
      · subst hlast
        exact ⟨⟨tree, []⟩, rfl, by simpa [Listed.kinds] using htree⟩
      · obtain ⟨others, rfl, hothers⟩ := ih hlast h.2
        refine ⟨⟨tree, others.toList⟩, rfl, ?_⟩
        intro kind hkind
        rcases List.mem_append.1 hkind with hkind | hkind
        · exact htree kind hkind
        · rcases List.mem_cons.1 hkind with rfl | hkind
          · exact hseparator
          · exact hothers kind hkind

end Drawn

theorem LevelRef.Writable.drawn {ref : LevelRef} (h : ref.Writable) :
    ∃ tree : MemberTree, tree.ref = ref ∧ ¬ Reserved tree.dimension ∧
      ∀ kind ∈ tree.kinds, kind.Spellable := by
  obtain ⟨dimension, level, hierarchy⟩ := ref
  have hdimension := spellable_name h.dimension
  have hlevel := spellable_name h.level
  have hpoint := spellable_mark .point
  cases hierarchy with
  | none =>
      refine ⟨⟨dimension, level, none⟩, rfl, h.free, ?_⟩
      simp [MemberTree.kinds, hdimension, hlevel, hpoint]
  | some name =>
      have hname := spellable_name (h.hierarchy name rfl)
      refine ⟨⟨dimension, name, some level⟩, rfl, h.free, ?_⟩
      simp [MemberTree.kinds, hdimension, hlevel, hpoint, hname]

theorem SelectItem.Writable.drawn {item : SelectItem} (h : item.Writable) :
    Drawn ItemTree.kinds ItemTree.item item := by
  cases h with
  | measure h =>
      have hword : Enclosable "Measures" := by decide
      refine ⟨.measure "Measures" _ (by decide), rfl, ?_⟩
      simp [ItemTree.kinds, spellable_name hword, spellable_mark, spellable_name h]
  | level h =>
      obtain ⟨tree, rfl, hfree, hkinds⟩ := h.drawn
      exact ⟨.member tree hfree, rfl, hkinds⟩

theorem Value.Writable.drawn {value : Value} (h : value.Writable) :
    Drawn (fun literal : LiteralTree => [literal.kind]) LiteralTree.value value := by
  cases h with
  | bool b =>
      refine ⟨.truth b, rfl, ?_⟩
      cases b <;> simp [LiteralTree.kind, spellable_keyword]
  | int n => exact ⟨.integer n, rfl, by simpa using ⟨_, .integer n⟩⟩
  | float decimal => exact ⟨.real _, rfl, by simpa using ⟨_, .real decimal⟩⟩
  | text hline => exact ⟨.string _, rfl, by simpa using ⟨_, .string (.inl rfl) hline⟩⟩

theorem Predicate.Writable.drawn {predicate : Predicate} (h : predicate.Writable) :
    Drawn PredicateTree.kinds PredicateTree.predicate predicate := by
  cases predicate with
  | equals ref value =>
      obtain ⟨member, rfl, hfree, hmember⟩ := h.ref.drawn
      obtain ⟨literal, rfl, hliteral⟩ := (h.values value (List.mem_singleton_self value)).drawn
      refine ⟨⟨member, hfree, .equals literal⟩, rfl, ?_⟩
      refine List.forall_mem_append.2 ⟨hmember, List.forall_mem_cons.2 ⟨spellable_mark _, hliteral⟩⟩
  | among ref values =>
      obtain ⟨member, rfl, hfree, hmember⟩ := h.ref.drawn
      obtain ⟨literals, rfl, hliterals⟩ := Drawn.listed (spellable_mark .comma) h.nonempty
        fun value hvalue => (h.values value hvalue).drawn
      refine ⟨⟨member, hfree, .among literals⟩, rfl, ?_⟩
      simp only [PredicateTree.kinds, ComparisonTree.kinds, List.forall_mem_append]
      refine ⟨hmember, ⟨?_, hliterals⟩, ?_⟩
      · simp [spellable_keyword, spellable_mark]
      · simp [spellable_mark]

namespace Query

theorem Writable.drawn {query : Query} (h : query.Writable) :
    Drawn QueryTree.kinds QueryTree.query query := by
  obtain ⟨select, cube, conditions⟩ := query
  obtain ⟨items, rfl, hitems⟩ := Drawn.listed (spellable_mark .comma) h.nonempty
    fun item hitem => (h.items item hitem).drawn
  have hfront : ∀ kind ∈ [TokenKind.keyword .select] ++ items.kinds (.mark .comma) ItemTree.kinds ++
      [.keyword .from] ++ [.name cube], kind.Spellable := by
    simp only [List.forall_mem_append]
    refine ⟨⟨⟨?_, hitems⟩, ?_⟩, ?_⟩
    · simp [spellable_keyword]
    · simp [spellable_keyword]
    · simp [spellable_name h.cube]
  by_cases hnone : conditions = []
  · subst hnone
    refine ⟨⟨items, .bracketed cube, none, false⟩, rfl, ?_⟩
    simpa [QueryTree.kinds, QueryTree.frontKinds, QueryTree.conditionKinds,
      QueryTree.semicolonKinds, CubeTree.kind] using hfront
  · obtain ⟨predicates, rfl, hpredicates⟩ := Drawn.listed (spellable_keyword .and) hnone
      fun predicate hpredicate => (h.conditions predicate hpredicate).drawn
    refine ⟨⟨items, .bracketed cube, some predicates, false⟩, rfl, ?_⟩
    have hwhole := List.forall_mem_append.2
      ⟨hfront, List.forall_mem_cons.2 ⟨spellable_keyword .where, hpredicates⟩⟩
    simpa [QueryTree.kinds, QueryTree.frontKinds, QueryTree.conditionKinds,
      QueryTree.semicolonKinds, CubeTree.kind] using hwhole

theorem Writable.exists_writtenAs {query : Query} (h : query.Writable) :
    ∃ text, query.WrittenAs text := by
  obtain ⟨tree, htree, hkinds⟩ := h.drawn
  obtain ⟨text, htext⟩ := exists_writtenBy (by simp [QueryTree.kinds, QueryTree.frontKinds]) hkinds
  exact ⟨String.ofList text, tree, htree, by simpa using htext⟩

end Query

/-! ### Whole numbers of a text and of its query -/

theorem Listed.mem_kinds_iff {α : Type} {form : α → List TokenKind} {kind separator : TokenKind}
    (hkind : kind ≠ separator) (listed : Listed α) :
    kind ∈ listed.kinds separator form ↔ ∃ tree ∈ listed.toList, kind ∈ form tree := by
  simp [kinds, toList, hkind]

theorem LiteralTree.kind_eq_integer_iff {literal : LiteralTree} {n : Int} :
    literal.kind = .integer n ↔ literal.value = .int n := by
  cases literal with
  | truth b => cases b <;> simp [kind, value]
  | _ => simp [kind, value]

theorem MemberTree.integer_not_mem_kinds (tree : MemberTree) (n : Int) :
    .integer n ∉ tree.kinds := by
  obtain ⟨dimension, second, third⟩ := tree
  cases third <;> simp [kinds]

theorem ItemTree.integer_not_mem_kinds (tree : ItemTree) (n : Int) : .integer n ∉ tree.kinds := by
  cases tree with
  | measure word name reserved => simp [kinds]
  | member tree free => exact tree.integer_not_mem_kinds n

theorem PredicateTree.integer_mem_kinds_iff (tree : PredicateTree) (n : Int) :
    .integer n ∈ tree.kinds ↔ .int n ∈ tree.predicate.values := by
  obtain ⟨member, free, comparison⟩ := tree
  cases comparison with
  | equals literal =>
      simp [kinds, ComparisonTree.kinds, member.integer_not_mem_kinds, predicate,
        ComparisonTree.predicate, Predicate.values, LiteralTree.kind_eq_integer_iff,
        @eq_comm _ (TokenKind.integer n), @eq_comm _ (Value.int n)]
  | among literals =>
      simp [kinds, ComparisonTree.kinds, member.integer_not_mem_kinds, predicate,
        ComparisonTree.predicate, Predicate.values, Listed.mem_kinds_iff,
        LiteralTree.kind_eq_integer_iff, @eq_comm _ (TokenKind.integer n)]

/-- The whole numbers that a text holds are those with which the conditions of its query compare. -/
theorem QueryTree.integer_mem_kinds_iff (tree : QueryTree) (n : Int) :
    .integer n ∈ tree.kinds ↔ ∃ predicate ∈ tree.query.conditions, .int n ∈ predicate.values := by
  obtain ⟨items, cube, conditions, semicolon⟩ := tree
  have hitems : .integer n ∉ items.kinds (.mark .comma) ItemTree.kinds := by
    simp [Listed.mem_kinds_iff, ItemTree.integer_not_mem_kinds]
  have hcube : .integer n ≠ cube.kind := by cases cube <;> simp [CubeTree.kind]
  have hend : .integer n ∉ semicolonKinds semicolon := by cases semicolon <;> simp [semicolonKinds]
  have hkinds : .integer n ∈ (QueryTree.mk items cube conditions semicolon).kinds ↔
      .integer n ∈ conditionKinds conditions := by
    simp [kinds, frontKinds, hitems, hcube, hend]
  rw [hkinds]
  cases conditions with
  | none => simp [conditionKinds, query, predicates]
  | some conditions =>
      simp [conditionKinds, query, predicates, Listed.mem_kinds_iff,
        PredicateTree.integer_mem_kinds_iff]

theorem QueryTree.legible_iff (tree : QueryTree) :
    tree.query.Legible ↔ ∀ kind ∈ tree.kinds, kind.digits ≤ ConversionFault.digitLimit := by
  constructor
  · intro h kind hkind
    cases kind with
    | integer n =>
        obtain ⟨predicate, hpredicate, hn⟩ := (tree.integer_mem_kinds_iff n).1 hkind
        exact h predicate hpredicate n hn
    | _ => exact Nat.zero_le _
  · intro h predicate hpredicate n hn
    exact h (.integer n) ((tree.integer_mem_kinds_iff n).2 ⟨predicate, hpredicate, hn⟩)

namespace Query

variable {query : Query} {text : String}

theorem WrittenAs.parse_eq_ok (h : query.WrittenAs text) (hlegible : query.Legible) :
    parse text = .ok query := by
  obtain ⟨tree, rfl, htext⟩ := h
  obtain ⟨tokens, hscan, hkinds⟩ := Token.scanFrom_written htext (tree.legible_iff.1 hlegible)
  rw [parse, Token.scan, hscan]
  exact ofTokens_complete hkinds

/-- A query that is not legible fails with the digits of its first number that is too long. -/
theorem WrittenAs.parse_eq_error (h : query.WrittenAs text) (hlegible : ¬ query.Legible) :
    ∃ count, ConversionFault.digitLimit < count ∧
      parse text = .error (.numeral (.tooManyDigits count)) := by
  obtain ⟨tree, rfl, htext⟩ := h
  rw [tree.legible_iff] at hlegible
  cases hfind : tree.kinds.find? fun kind => ConversionFault.digitLimit < kind.digits with
  | none =>
      apply absurd _ hlegible
      intro kind hkind
      exact Nat.not_lt.1 (by simpa using List.find?_eq_none.1 hfind kind hkind)
  | some kind =>
      refine ⟨kind.digits, by simpa using List.find?_some hfind, ?_⟩
      rw [parse, Token.scan, Token.scanFrom_overlong htext hfind]
      rfl

/-- Reading undoes writing: a query can be written, and from every text that writes it the same
query is read, if all its whole numbers are short enough. If one is not, it is read from none of
them. -/
theorem parse_written_iff (hquery : query.Writable) :
    (∃ text, query.WrittenAs text) ∧
      ∀ text, query.WrittenAs text → (parse text = .ok query ↔ query.Legible) := by
  refine ⟨hquery.exists_writtenAs, ?_⟩
  intro text htext
  constructor
  · intro hparse
    by_contra hlegible
    obtain ⟨count, -, herror⟩ := htext.parse_eq_error hlegible
    rw [herror] at hparse
    exact absurd hparse (by simp)
  · exact htext.parse_eq_ok

/-- Names with brackets, points and quotes that are keywords, and literals of every kind. -/
def awkward : Query where
  select := [.level ⟨"O'Neil \"[x", "from", some "a.b"⟩, .measure "Measures"]
  cube := "select"
  conditions :=
    [.among ⟨"In", "''", none⟩
      [.text "'it''s' \"so\"\"", .text "", .int (-5),
        .float (PlainDecimal.mk true [0] [5, 0] (by decide) (by decide)).toBinary64],
      .equals ⟨"in", "where", some "["⟩ (.bool true)]

theorem awkward_writable : awkward.Writable where
  nonempty := by simp [awkward]
  items := by
    simp only [awkward, List.forall_mem_cons, List.not_mem_nil, false_implies, implies_true,
      and_true]
    exact ⟨.level ⟨by decide, by decide, by decide, by decide⟩, .measure (by decide)⟩
  cube := by decide
  conditions := by
    simp only [awkward, List.forall_mem_cons, List.not_mem_nil, false_implies, implies_true,
      and_true]
    refine ⟨⟨⟨by decide, by decide, by decide, by decide⟩, by simp [Predicate.values], ?_⟩,
      ⟨by decide, by decide, by decide, by decide⟩, by simp [Predicate.values], ?_⟩
    · simp only [Predicate.values, List.forall_mem_cons, List.not_mem_nil, false_implies,
        implies_true, and_true]
      exact ⟨.text (by decide), .text (by decide), .int _, .float _⟩
    · simpa [Predicate.values] using Value.Writable.bool true

theorem awkward_legible : awkward.Legible := by
  have hfive : Nat.toDigits 10 5 = ['5'] := by decide
  simp [awkward, Legible, Predicate.values, ConversionFault.digitLimit, hfive]

theorem parse_awkward :
    awkward.Writable ∧ (∃ text, awkward.WrittenAs text) ∧
      ∀ text, awkward.WrittenAs text → parse text = .ok awkward :=
  ⟨awkward_writable, (parse_written_iff awkward_writable).1,
    fun text htext => ((parse_written_iff awkward_writable).2 text htext).2 awkward_legible⟩

/-- A comparison with a whole number of one digit more than are read. -/
def overlong : Query where
  select := [.measure "POAmount"]
  cube := "MaritimeProcurement"
  conditions :=
    [.equals ⟨"Vessel", "Flag", none⟩ (.int (10 ^ ConversionFault.digitLimit : Nat))]

theorem overlong_writable : overlong.Writable where
  nonempty := List.cons_ne_nil _ _
  items := List.forall_mem_singleton.2 (.measure (by decide))
  cube := by decide
  conditions := by
    refine List.forall_mem_singleton.2 ⟨⟨by decide, by decide, by decide, by decide⟩,
      List.cons_ne_nil _ _, ?_⟩
    exact List.forall_mem_singleton.2 (.int _)

theorem overlong_not_legible : ¬ overlong.Legible := by
  intro h
  have hdigits := h _ (List.mem_singleton_self _) _ (List.mem_singleton_self _)
  rw [Int.natAbs_natCast, Nat.length_toDigits_le_iff (by decide) (by decide)] at hdigits
  exact Nat.lt_irrefl _ hdigits

theorem overlong_not_read :
    overlong.Writable ∧ ∃ text, overlong.WrittenAs text ∧ parse text ≠ .ok overlong := by
  obtain ⟨text, htext⟩ := overlong_writable.exists_writtenAs
  refine ⟨overlong_writable, text, htext, ?_⟩
  obtain ⟨count, -, herror⟩ := htext.parse_eq_error overlong_not_legible
  rw [herror]
  simp

end Query

end StarCube
