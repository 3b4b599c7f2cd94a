import Mathlib.Data.List.Forall2
import StarCube.Query
import StarCube.Query.Token

/-!
The grammar of queries as trees. A tree keeps every token of its text except the last: `kinds` reads
them off in order, and the query of a tree has one item, predicate and value for each of its
subtrees. No two trees have the same tokens, so a text has one derivation at most.
-/

namespace StarCube

/-- A name that spells `measures`, each letter in either case. It is kept for measures. -/
def Reserved (name : String) : Prop :=
  List.Forall₂ (fun c letter => c = letter ∨ c = letter.toUpper) name.toList "measures".toList

/-- One form or more, with a separator between each two. -/
structure Listed (α : Type) where
  first : α
  others : List α

namespace Listed

variable {α β : Type}

def toList (listed : Listed α) : List α :=
  listed.first :: listed.others

/-- The tokens of all forms with the separators. -/
def kinds (separator : TokenKind) (form : α → List TokenKind) (listed : Listed α) :
    List TokenKind :=
  form listed.first ++ listed.others.flatMap fun other => separator :: form other

end Listed

/-- A reference: `[dimension].[level]` or `[dimension].[hierarchy].[level]`. -/
structure MemberTree where
  dimension : String
  second : String
  third : Option String

namespace MemberTree

def kinds (tree : MemberTree) : List TokenKind :=
  [.name tree.dimension, .mark .point, .name tree.second] ++
    match tree.third with
    | none => []
    | some name => [.mark .point, .name name]

/-- The level that is referred to. -/
def ref (tree : MemberTree) : LevelRef :=
  match tree.third with
  | none => ⟨tree.dimension, tree.second, none⟩
  | some level => ⟨tree.dimension, level, some tree.second⟩

end MemberTree

/-- An item of a select list: `[Measures].[name]` or a reference to a level. -/
inductive ItemTree where
  | measure (word name : String) (reserved : Reserved word)
  | member (tree : MemberTree) (free : ¬ Reserved tree.dimension)

namespace ItemTree

def kinds : ItemTree → List TokenKind
  | .measure word name _ => [.name word, .mark .point, .name name]
  | .member tree _ => tree.kinds

def item : ItemTree → SelectItem
  | .measure _ name _ => .measure name
  | .member tree _ => .level tree.ref

end ItemTree

/-- A literal. -/
inductive LiteralTree where
  | string (content : String)
  | integer (n : Int)
  | real (x : Binary64)
  | truth (b : Bool)

namespace LiteralTree

def kind : LiteralTree → TokenKind
  | .string content => .string content
  | .integer n => .integer n
  | .real x => .real x
  | .truth true => .keyword .true
  | .truth false => .keyword .false

def value : LiteralTree → Value
  | .string content => .text content
  | .integer n => .int n
  | .real x => .float x
  | .truth b => .bool b

end LiteralTree

/-- What a condition compares a level with. -/
inductive ComparisonTree where
  | equals (literal : LiteralTree)
  | among (literals : Listed LiteralTree)

namespace ComparisonTree

def kinds : ComparisonTree → List TokenKind
  | .equals literal => [.mark .equals, literal.kind]
  | .among literals =>
      [.keyword .in, .mark .openParenthesis] ++
        literals.kinds (.mark .comma) (fun literal => [literal.kind]) ++ [.mark .closeParenthesis]

def predicate (ref : LevelRef) : ComparisonTree → Predicate
  | .equals literal => .equals ref literal.value
  | .among literals => .among ref (literals.toList.map LiteralTree.value)

end ComparisonTree

/-- A condition on the members of a level. -/
structure PredicateTree where
  member : MemberTree
  free : ¬ Reserved member.dimension
  comparison : ComparisonTree

namespace PredicateTree

def kinds (tree : PredicateTree) : List TokenKind :=
  tree.member.kinds ++ tree.comparison.kinds

def predicate (tree : PredicateTree) : Predicate :=
  tree.comparison.predicate tree.member.ref

end PredicateTree

/-- The name of a cube, between brackets or as a word. -/
inductive CubeTree where
  | bracketed (name : String)
  | word (name : String)

namespace CubeTree

def kind : CubeTree → TokenKind
  | .bracketed name => .name name
  | .word name => .word name

def name : CubeTree → String
  | .bracketed name => name
  | .word name => name

end CubeTree

/-- A query. -/
structure QueryTree where
  items : Listed ItemTree
  cube : CubeTree
  conditions : Option (Listed PredicateTree)
  semicolon : Bool

namespace QueryTree

/-- The tokens of the conditions, if there are any. -/
def conditionKinds : Option (Listed PredicateTree) → List TokenKind
  | none => []
  | some conditions => .keyword .where :: conditions.kinds (.keyword .and) PredicateTree.kinds

def semicolonKinds : Bool → List TokenKind
  | true => [.mark .semicolon]
  | false => []

/-- The tokens of a query up to its semicolon. -/
def frontKinds (tree : QueryTree) : List TokenKind :=
  [.keyword .select] ++ (tree.items.kinds (.mark .comma) ItemTree.kinds ++
    ([.keyword .from] ++ ([tree.cube.kind] ++ conditionKinds tree.conditions)))

/-- The tokens of a query without its end. -/
def kinds (tree : QueryTree) : List TokenKind :=
  tree.frontKinds ++ semicolonKinds tree.semicolon

def predicates : Option (Listed PredicateTree) → List Predicate
  | none => []
  | some conditions => conditions.toList.map PredicateTree.predicate

/-- The query that a tree stands for: its items and conditions in the order of the text. -/
def query (tree : QueryTree) : Query :=
  ⟨tree.items.toList.map ItemTree.item, tree.cube.name, predicates tree.conditions⟩

/-- A tree derives tokens if they are its own, and then their end. -/
def Derives (tree : QueryTree) (tokens : List Token) : Prop :=
  tokens.map Token.kind = tree.kinds ++ [.finish]

end QueryTree

/-- The tokens do not start with one of the given kinds. -/
def Unextended (blocked kinds : List TokenKind) : Prop :=
  ∀ kind ∈ blocked, kinds.head? ≠ some kind

theorem unextended_nil (kinds : List TokenKind) : Unextended [] kinds := by
  simp [Unextended]

theorem unextended_cons_iff {blocked kinds : List TokenKind} {kind : TokenKind} :
    Unextended blocked (kind :: kinds) ↔ kind ∉ blocked := by
  simp only [Unextended, List.head?_cons, ne_eq, Option.some.injEq]
  exact ⟨fun h hmem => h kind hmem rfl, fun h other hother heq => h (heq ▸ hother)⟩

theorem Unextended.of_cons {blocked kinds : List TokenKind} {kind : TokenKind}
    (h : Unextended (kind :: blocked) kinds) : Unextended blocked kinds :=
  fun other hother => h other (List.mem_cons_of_mem kind hother)

/-- A form can be told from what follows it, as long as that does not start with a kind by which
the form might go on. -/
def PrefixFree {α : Type} (form : α → List TokenKind) (blocked : List TokenKind) : Prop :=
  ∀ {left right : α} {after after' : List TokenKind},
    form left ++ after = form right ++ after' → Unextended blocked after →
      Unextended blocked after' → left = right ∧ after = after'

namespace Listed

variable {α : Type} {form : α → List TokenKind} {separator : TokenKind}
  {blocked : List TokenKind}

theorem unextended_others (hseparator : separator ∉ blocked) (others : List α)
    {after : List TokenKind} (hafter : Unextended blocked after) :
    Unextended blocked ((others.flatMap fun other => separator :: form other) ++ after) := by
  cases others with
  | nil => simpa using hafter
  | cons other others =>
      simp only [List.flatMap_cons, List.cons_append]
      exact unextended_cons_iff.2 hseparator

theorem others_eq_of_append_eq (hform : PrefixFree form blocked)
    (hseparator : separator ∉ blocked) {left right : List α} {after after' : List TokenKind}
    (h : (left.flatMap fun other => separator :: form other) ++ after =
      (right.flatMap fun other => separator :: form other) ++ after')
    (hafter : Unextended (separator :: blocked) after)
    (hafter' : Unextended (separator :: blocked) after') : left = right ∧ after = after' := by
  induction left generalizing right with
  | nil =>
      cases right with
      | nil => exact ⟨rfl, h⟩
      | cons other others =>
          rw [List.flatMap_nil, List.nil_append] at h
          rw [h] at hafter
          exact absurd List.mem_cons_self (unextended_cons_iff.1 hafter)
  | cons first others ih =>
      cases right with
      | nil =>
          rw [List.flatMap_nil, List.nil_append] at h
          rw [← h] at hafter'
          exact absurd List.mem_cons_self (unextended_cons_iff.1 hafter')
      | cons first' others' =>
          simp only [List.flatMap_cons, List.cons_append, List.append_assoc, List.cons.injEq,
            true_and] at h
          obtain ⟨rfl, hrest⟩ := hform h (unextended_others hseparator others hafter.of_cons)
            (unextended_others hseparator others' hafter'.of_cons)
          obtain ⟨rfl, rfl⟩ := ih hrest
          exact ⟨rfl, rfl⟩

theorem kinds_prefixFree (hform : PrefixFree form blocked) (hseparator : separator ∉ blocked) :
    PrefixFree (kinds separator form) (separator :: blocked) := by
  intro left right after after' h hafter hafter'
  obtain ⟨first, others⟩ := left
  obtain ⟨first', others'⟩ := right
  simp only [kinds, List.append_assoc] at h
  obtain ⟨rfl, hrest⟩ := hform h (unextended_others hseparator others hafter.of_cons)
    (unextended_others hseparator others' hafter'.of_cons)
  obtain ⟨rfl, rfl⟩ := others_eq_of_append_eq hform hseparator hrest hafter hafter'
  exact ⟨rfl, rfl⟩

end Listed

theorem MemberTree.kinds_prefixFree : PrefixFree MemberTree.kinds [.mark .point] := by
  rintro ⟨dimension, second, third⟩ ⟨dimension', second', third'⟩ after after' h hafter hafter'
  cases third with
  | none =>
      cases third' with
      | none => simp_all [kinds]
      | some name =>
          obtain ⟨-, -, rfl⟩ : dimension = dimension' ∧ second = second' ∧
              after = .mark .point :: .name name :: after' := by simpa [kinds] using h
          exact absurd List.mem_cons_self (unextended_cons_iff.1 hafter)
  | some name =>
      cases third' with
      | none =>
          obtain ⟨-, -, rfl⟩ : dimension = dimension' ∧ second = second' ∧
              .mark .point :: .name name :: after = after' := by simpa [kinds] using h
          exact absurd List.mem_cons_self (unextended_cons_iff.1 hafter')
      | some name' => simp_all [kinds]

theorem ItemTree.kinds_prefixFree : PrefixFree ItemTree.kinds [.mark .point] := by
  intro left right after after' h hafter hafter'
  cases left with
  | measure word name reserved =>
      cases right with
      | measure word' name' reserved' => simp_all [kinds]
      | member tree free =>
          -- A measure has just the two names, so the reference would start with a reserved one.
          have hmember : (MemberTree.mk word name none).kinds ++ after = tree.kinds ++ after' := h
          obtain ⟨rfl, -⟩ := MemberTree.kinds_prefixFree hmember hafter hafter'
          exact absurd reserved free
  | member tree free =>
      cases right with
      | measure word' name' reserved' =>
          have hmember : tree.kinds ++ after = (MemberTree.mk word' name' none).kinds ++ after' := h
          obtain ⟨rfl, -⟩ := MemberTree.kinds_prefixFree hmember hafter hafter'
          exact absurd reserved' free
      | member tree' free' =>
          obtain ⟨rfl, rfl⟩ := MemberTree.kinds_prefixFree h hafter hafter'
          exact ⟨rfl, rfl⟩

theorem LiteralTree.kind_injective {left right : LiteralTree} (h : left.kind = right.kind) :
    left = right := by
  cases left with
  | truth b => cases b <;> cases right with
    | truth b' => cases b' <;> simp_all [kind]
    | _ => simp [kind] at h
  | _ => cases right with
    | truth b' => cases b' <;> simp [kind] at h
    | _ => simp_all [kind]

theorem LiteralTree.kinds_prefixFree :
    PrefixFree (fun literal : LiteralTree => [literal.kind]) [] := by
  intro left right after after' h _ _
  rw [List.singleton_append, List.singleton_append, List.cons.injEq] at h
  exact ⟨kind_injective h.1, h.2⟩

theorem ComparisonTree.kinds_prefixFree : PrefixFree ComparisonTree.kinds [] := by
  intro left right after after' h _ _
  cases left with
  | equals literal =>
      cases right with
      | equals literal' =>
          obtain ⟨hkind, rfl⟩ : literal.kind = literal'.kind ∧ after = after' := by
            simpa [kinds] using h
          exact ⟨congrArg equals (LiteralTree.kind_injective hkind), rfl⟩
      | among literals' => simp [kinds] at h
  | among literals =>
      cases right with
      | equals literal' => simp [kinds] at h
      | among literals' =>
          simp only [kinds, List.append_assoc, List.cons_append, List.nil_append, List.cons.injEq,
            true_and] at h
          have hclose (kinds : List TokenKind) :
              Unextended [.mark .comma] (.mark .closeParenthesis :: kinds) :=
            unextended_cons_iff.2 (by simp)
          obtain ⟨rfl, hrest⟩ := Listed.kinds_prefixFree LiteralTree.kinds_prefixFree
            List.not_mem_nil h (hclose after) (hclose after')
          exact ⟨rfl, (List.cons.inj hrest).2⟩

/-- What a condition compares with starts with neither a point nor a semicolon. -/
theorem ComparisonTree.unextended_point (comparison : ComparisonTree) (after : List TokenKind) :
    Unextended [.mark .point] (comparison.kinds ++ after) := by
  cases comparison <;> exact unextended_cons_iff.2 (by simp)

theorem PredicateTree.kinds_prefixFree : PrefixFree PredicateTree.kinds [] := by
  rintro ⟨member, free, comparison⟩ ⟨member', free', comparison'⟩ after after' h hafter hafter'
  simp only [kinds, List.append_assoc] at h
  obtain ⟨rfl, hrest⟩ := MemberTree.kinds_prefixFree h (comparison.unextended_point after)
    (comparison'.unextended_point after')
  obtain ⟨rfl, rfl⟩ := ComparisonTree.kinds_prefixFree hrest hafter hafter'
  exact ⟨rfl, rfl⟩

theorem CubeTree.kind_injective {left right : CubeTree} (h : left.kind = right.kind) :
    left = right := by
  cases left <;> cases right <;> simp_all [kind]

namespace QueryTree

/-- The end of a query goes on no list of conditions. -/
theorem unextended_end (semicolon : Bool) :
    Unextended [.keyword .and] (semicolonKinds semicolon ++ [.finish]) := by
  cases semicolon <;> exact unextended_cons_iff.2 (by simp)

theorem semicolon_eq_of_append_eq {left right : Bool} {after : List TokenKind}
    (h : semicolonKinds left ++ after = semicolonKinds right ++ after) : left = right := by
  cases left <;> cases right <;> simp_all [semicolonKinds]

theorem conditions_eq_of_append_eq {left right : Option (Listed PredicateTree)}
    {semicolon semicolon' : Bool}
    (h : conditionKinds left ++ (semicolonKinds semicolon ++ [.finish]) =
      conditionKinds right ++ (semicolonKinds semicolon' ++ [.finish])) :
    left = right ∧ semicolon = semicolon' := by
  cases left with
  | none =>
      cases right with
      | none => exact ⟨rfl, semicolon_eq_of_append_eq h⟩
      | some conditions => cases semicolon <;> simp [conditionKinds, semicolonKinds] at h
  | some conditions =>
      cases right with
      | none => cases semicolon' <;> simp [conditionKinds, semicolonKinds] at h
      | some conditions' =>
          simp only [conditionKinds, List.cons_append, List.cons.injEq, true_and] at h
          obtain ⟨rfl, hrest⟩ := Listed.kinds_prefixFree PredicateTree.kinds_prefixFree
            List.not_mem_nil h (unextended_end semicolon) (unextended_end semicolon')
          exact ⟨rfl, semicolon_eq_of_append_eq hrest⟩

/-- A text has one derivation at most. -/
theorem eq_of_kinds_eq {left right : QueryTree}
    (h : left.kinds ++ [.finish] = right.kinds ++ [.finish]) : left = right := by
  have hfrom (kinds : List TokenKind) :
      Unextended [.mark .comma, .mark .point] (.keyword .from :: kinds) :=
    unextended_cons_iff.2 (by simp)
  simp only [kinds, frontKinds, List.cons_append, List.nil_append, List.append_assoc,
    List.cons.injEq, true_and] at h
  obtain ⟨hitems, hrest⟩ := Listed.kinds_prefixFree ItemTree.kinds_prefixFree (by simp) h
    (hfrom _) (hfrom _)
  simp only [List.cons.injEq, true_and] at hrest
  obtain ⟨hcube, hrest⟩ := hrest
  obtain ⟨hconditions, hsemicolon⟩ := conditions_eq_of_append_eq hrest
  obtain ⟨items, cube, conditions, semicolon⟩ := left
  obtain ⟨items', cube', conditions', semicolon'⟩ := right
  simp only at hitems hcube hconditions hsemicolon
  rw [hitems, CubeTree.kind_injective hcube, hconditions, hsemicolon]

end QueryTree

end StarCube
