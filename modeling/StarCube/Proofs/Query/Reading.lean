import StarCube.Proofs.Outcome
import StarCube.Proofs.Query.Grammar
import StarCube.Query.Parser

/-!
Query text is read exactly as the grammar derives it. Each reader of the parser takes the tokens of
one tree from the front and gives what the tree stands for; the readers are put together as the
trees are.
-/

namespace StarCube

theorem Char.toLower_eq_iff {c letter : Char} (h : letter.isLower = true) :
    c.toLower = letter ↔ c = letter ∨ c = letter.toUpper := by
  have hsmall : 'a'.val.toNat = 97 ∧ 'z'.val.toNat = 122 := ⟨rfl, rfl⟩
  have hcapital : 'A'.val.toNat = 65 ∧ 'Z'.val.toNat = 90 := ⟨rfl, rfl⟩
  have hdown : ('a'.val - 'A'.val).toNat = 32 := rfl
  have hup : ('A'.val - 'a'.val).toNat = 4294967264 := rfl
  delta Char.isLower at h
  simp only [Bool.and_eq_true, decide_eq_true_eq] at h
  have hrange := h
  simp only [ge_iff_le, UInt32.le_iff_toNat_le] at hrange
  delta Char.toLower Char.toUpper
  simp only [dif_pos h, Char.ext_iff, ← UInt32.toNat_inj]
  split <;> rename_i hc <;> simp only [ge_iff_le, UInt32.le_iff_toNat_le] at hc <;>
    simp only [UInt32.toNat_add] <;> omega

theorem map_toLower_eq_iff {text letters : List Char}
    (h : ∀ letter ∈ letters, letter.isLower = true) :
    text.map Char.toLower = letters ↔
      List.Forall₂ (fun c letter => c = letter ∨ c = letter.toUpper) text letters := by
  induction letters generalizing text with
  | nil => simp
  | cons letter letters ih =>
      cases text with
      | nil => simp
      | cons c text =>
          rw [List.map_cons, List.cons.injEq, List.forall₂_cons,
            Char.toLower_eq_iff (h letter List.mem_cons_self),
            ih fun other hother => h other (List.mem_cons_of_mem letter hother)]

theorem reserved_iff (name : String) :
    name.toList.map Char.toLower = "measures".toList ↔ Reserved name :=
  map_toLower_eq_iff (List.all_eq_true.1 (by decide))

/-- The parser keeps just the reserved names for measures. -/
theorem MemberPath.isMeasure_iff (path : MemberPath) :
    path.isMeasure = true ↔ Reserved path.dimension := by
  rw [isMeasure, beq_iff_eq]
  exact reserved_iff path.dimension

namespace Token

/-- Tokens of the given kinds stand in front of the rest. -/
def Splits (tokens : List Token) (kinds : List TokenKind) (rest : List Token) : Prop :=
  ∃ front, tokens = front ++ rest ∧ front.map Token.kind = kinds

namespace Splits

variable {tokens middle rest : List Token} {kinds kinds' : List TokenKind}

theorem nil (tokens : List Token) : Splits tokens [] tokens :=
  ⟨[], rfl, rfl⟩

theorem append (h : Splits tokens kinds middle) (h' : Splits middle kinds' rest) :
    Splits tokens (kinds ++ kinds') rest := by
  obtain ⟨front, rfl, rfl⟩ := h
  obtain ⟨front', rfl, rfl⟩ := h'
  exact ⟨front ++ front', by simp, by simp⟩

theorem exists_of_append (h : Splits tokens (kinds ++ kinds') rest) :
    ∃ middle, Splits tokens kinds middle ∧ Splits middle kinds' rest := by
  obtain ⟨front, rfl, hfront⟩ := h
  obtain ⟨first, second, rfl, rfl, rfl⟩ := List.map_eq_append_iff.1 hfront
  exact ⟨second ++ rest, ⟨first, by simp, rfl⟩, second, rfl, rfl⟩

theorem exists_of_cons {kind : TokenKind} (h : Splits tokens (kind :: kinds) rest) :
    ∃ middle, Splits tokens [kind] middle ∧ Splits middle kinds rest := by
  rw [← List.singleton_append] at h
  exact h.exists_of_append

theorem map_kind (h : Splits tokens kinds rest) :
    tokens.map Token.kind = kinds ++ rest.map Token.kind := by
  obtain ⟨front, rfl, rfl⟩ := h
  simp

end Splits

/-- A token of a kind stands in front, or `take?` finds none. -/
theorem take?_eq_some_iff {kind : TokenKind} {tokens rest : List Token} :
    take? kind tokens = some rest ↔ Splits tokens [kind] rest := by
  cases tokens with
  | nil => simp [take?, Splits]
  | cons token tail =>
      simp only [take?, Splits]
      constructor
      · intro h
        split at h
        · rename_i hkind
          exact ⟨[token], by simpa using h, by simpa using hkind⟩
        · simp at h
      · rintro ⟨front, heq, hfront⟩
        obtain ⟨first, rfl, hkind⟩ := List.map_eq_singleton_iff.1 hfront
        simp_all

theorem take?_eq_none_iff {kind : TokenKind} {tokens : List Token} :
    take? kind tokens = none ↔ (tokens.map Token.kind).head? ≠ some kind := by
  cases tokens with
  | nil => simp [take?]
  | cons token tail => by_cases h : token.kind = kind <;> simp [take?, h]

theorem expect_eq_ok_iff {kind : TokenKind} {reason : Found → SyntaxReason}
    {tokens rest : List Token} :
    expect kind reason tokens = .ok rest ↔ Splits tokens [kind] rest := by
  rw [← take?_eq_some_iff]
  unfold expect
  split <;> simp_all

end Token

open Token

/-- A reader takes the tokens of one tree, which go on with none of the blocked kinds, and gives
what the tree stands for. -/
structure TokenReader.Reads {α β : Type} (reader : TokenReader β) (form : α → List TokenKind)
    (meaning : α → β) (blocked : List TokenKind) : Prop where
  sound : ∀ {tokens rest : List Token} {value : β}, reader.run tokens = .ok (value, rest) →
    ∃ tree, meaning tree = value ∧ Splits tokens (form tree) rest
  complete : ∀ {tokens rest : List Token} {tree : α}, Splits tokens (form tree) rest →
    Unextended blocked (rest.map Token.kind) → reader.run tokens = .ok (meaning tree, rest)

namespace Token

theorem Splits.exists_of_singleton {tokens rest : List Token} {kind : TokenKind}
    (h : Splits tokens [kind] rest) : ∃ token, tokens = token :: rest ∧ token.kind = kind := by
  obtain ⟨front, rfl, hfront⟩ := h
  obtain ⟨token, rfl, hkind⟩ := List.map_eq_singleton_iff.1 hfront
  exact ⟨token, rfl, hkind⟩

theorem splits_cons (token : Token) (rest : List Token) :
    Splits (List.cons token rest) [token.kind] rest :=
  ⟨[token], rfl, rfl⟩

theorem readName_eq_ok_iff {role name : String} {tokens rest : List Token} :
    (readName role).run tokens = .ok (name, rest) ↔ Splits tokens [.name name] rest := by
  constructor
  · intro h
    simp only [readName] at h
    split at h
    · simp at h
    · split at h
      · rename_i token tail _ other hkind
        obtain ⟨rfl, rfl⟩ : other = name ∧ tail = rest := by simpa using h
        exact hkind ▸ splits_cons token tail
      · simp at h
  · intro h
    obtain ⟨token, rfl, hkind⟩ := h.exists_of_singleton
    simp [readName, hkind]

theorem readLiteral_reads :
    readLiteral.Reads (fun literal : LiteralTree => [literal.kind]) LiteralTree.value [] where
  sound {tokens rest value} h := by
    simp only [readLiteral] at h
    split at h
    · simp at h
    rename_i token tail
    have hsplits := splits_cons token tail
    split at h
    all_goals try simp at h
    all_goals rename_i hkind
    all_goals obtain ⟨rfl, rfl⟩ := h
    all_goals rw [hkind] at hsplits
    · exact ⟨.string _, rfl, hsplits⟩
    · exact ⟨.integer _, rfl, hsplits⟩
    · exact ⟨.real _, rfl, hsplits⟩
    · exact ⟨.truth true, rfl, hsplits⟩
    · exact ⟨.truth false, rfl, hsplits⟩
  complete {tokens rest tree} h _ := by
    obtain ⟨token, rfl, hkind⟩ := h.exists_of_singleton
    cases tree with
    | truth b => cases b <;> simp_all [readLiteral, LiteralTree.kind, LiteralTree.value]
    | _ => simp_all [readLiteral, LiteralTree.kind, LiteralTree.value]

theorem readCube_reads :
    readCube.Reads (fun cube : CubeTree => [cube.kind]) CubeTree.name [] where
  sound {tokens rest value} h := by
    simp only [readCube] at h
    split at h
    · simp at h
    rename_i token tail
    have hsplits := splits_cons token tail
    split at h
    all_goals try simp at h
    all_goals rename_i hkind
    all_goals obtain ⟨rfl, rfl⟩ := h
    all_goals rw [hkind] at hsplits
    · exact ⟨.bracketed _, rfl, hsplits⟩
    · exact ⟨.word _, rfl, hsplits⟩
  complete {tokens rest tree} h _ := by
    obtain ⟨token, rfl, hkind⟩ := h.exists_of_singleton
    cases tree <;> simp_all [readCube, CubeTree.kind, CubeTree.name]

end Token

namespace TokenReader

variable {α β : Type} {reader : TokenReader β} {form : α → List TokenKind} {meaning : α → β}
  {separator : TokenKind} {blocked : List TokenKind} {tokens rest : List Token}

theorem separatedRun_last {value : β} (hrun : reader.run tokens = .ok (value, rest))
    (hlast : take? separator rest = none) :
    reader.separatedRun separator tokens = .ok ([value], rest) := by
  rw [separatedRun]
  split
  · simp_all
  rename_i first after hfirst
  obtain ⟨rfl, rfl⟩ : first = value ∧ after = rest := by simpa [hrun] using hfirst.symm
  split
  · rfl
  · simp_all

theorem separatedRun_more {value : β} {values : List β} {after more : List Token}
    (hrun : reader.run tokens = .ok (value, after)) (hmore : take? separator after = some more)
    (hvalues : reader.separatedRun separator more = .ok (values, rest)) :
    reader.separatedRun separator tokens = .ok (value :: values, rest) := by
  rw [separatedRun]
  split
  · simp_all
  rename_i first next hfirst
  obtain ⟨rfl, rfl⟩ : first = value ∧ next = after := by simpa [hrun] using hfirst.symm
  split
  · simp_all
  · rename_i found hfound
    obtain rfl : found = more := by simpa [hmore] using hfound.symm
    simp [hvalues]

namespace Reads

theorem separatedRun_sound (h : reader.Reads form meaning blocked) {values : List β}
    (hrun : reader.separatedRun separator tokens = .ok (values, rest)) :
    ∃ listed : Listed α, listed.toList.map meaning = values ∧
      Splits tokens (listed.kinds separator form) rest := by
  fun_induction TokenReader.separatedRun reader separator tokens generalizing values with
  | case1 => simp at hrun
  | case2 tokens first after hfirst hmore =>
      obtain ⟨rfl, rfl⟩ := Prod.mk.inj (Except.ok.inj hrun)
      obtain ⟨tree, rfl, htree⟩ := h.sound hfirst
      exact ⟨⟨tree, []⟩, rfl, by simpa [Listed.kinds] using htree⟩
  | case3 => simp at hrun
  | case4 tokens first after hfirst more hmore hless others last hothers ih =>
      obtain ⟨rfl, rfl⟩ := Prod.mk.inj (Except.ok.inj hrun)
      obtain ⟨tree, rfl, htree⟩ := h.sound hfirst
      obtain ⟨listed, rfl, hlisted⟩ := ih hothers
      refine ⟨⟨tree, listed.toList⟩, rfl, htree.append ?_⟩
      exact (take?_eq_some_iff.1 hmore).append hlisted

theorem separatedRun_complete (h : reader.Reads form meaning blocked)
    (hseparator : separator ∉ blocked) {tree : α} {others : List α}
    (htokens : Splits tokens (Listed.kinds separator form ⟨tree, others⟩) rest)
    (hrest : Unextended (separator :: blocked) (rest.map Token.kind)) :
    reader.separatedRun separator tokens = .ok ((tree :: others).map meaning, rest) := by
  induction others generalizing tree tokens with
  | nil =>
      have htree : Splits tokens (form tree) rest := by simpa [Listed.kinds] using htokens
      exact separatedRun_last (h.complete htree hrest.of_cons)
        (take?_eq_none_iff.2 (hrest separator List.mem_cons_self))
  | cons other others ih =>
      obtain ⟨after, htree, hothers⟩ := htokens.exists_of_append
      have hafter : Unextended blocked (after.map Token.kind) := by
        rw [hothers.map_kind]
        exact Listed.unextended_others hseparator (other :: others) hrest.of_cons
      obtain ⟨more, hmore, hlisted⟩ := hothers.exists_of_cons
      exact separatedRun_more (h.complete htree hafter) (take?_eq_some_iff.2 hmore) (ih hlisted)

theorem separated (h : reader.Reads form meaning blocked) (hseparator : separator ∉ blocked) :
    (reader.separated separator).Reads (Listed.kinds separator form)
      (fun listed => listed.toList.map meaning) (separator :: blocked) where
  sound := h.separatedRun_sound
  complete := h.separatedRun_complete hseparator

end Reads

end TokenReader

namespace MemberPath

/-- The tree that a path was read from. -/
def tree (path : MemberPath) : MemberTree :=
  ⟨path.dimension, path.second, path.third⟩

theorem levelRef_eq (path : MemberPath) : path.levelRef = path.tree.ref :=
  rfl

theorem read_sound {tokens rest : List Token} {path : MemberPath}
    (h : MemberPath.read.run tokens = .ok (path, rest)) :
    Splits tokens path.tree.kinds rest := by
  simp only [MemberPath.read] at h
  split at h
  · simp at h
  rename_i hfirst
  split at h
  · simp at h
  rename_i hpoint
  split at h
  · simp at h
  rename_i hsecond
  have hfront := ((readName_eq_ok_iff.1 hfirst).append (expect_eq_ok_iff.1 hpoint)).append
    (readName_eq_ok_iff.1 hsecond)
  split at h
  · obtain ⟨rfl, rfl⟩ := Prod.mk.inj (Except.ok.inj h)
    exact hfront
  · rename_i hmore
    split at h
    · simp at h
    · rename_i hthird
      obtain ⟨rfl, rfl⟩ := Prod.mk.inj (Except.ok.inj h)
      exact (hfront.append (take?_eq_some_iff.1 hmore)).append (readName_eq_ok_iff.1 hthird)

theorem read_complete {tokens rest : List Token} {tree : MemberTree}
    (h : Splits tokens tree.kinds rest)
    (hrest : Unextended [.mark .point] (rest.map Token.kind)) :
    ∃ path, MemberPath.read.run tokens = .ok (path, rest) ∧ path.tree = tree := by
  obtain ⟨dimension, second, third⟩ := tree
  obtain ⟨afterSecond, hfront, hthird⟩ := h.exists_of_append
  obtain ⟨afterFirst, hfirst, hfront⟩ := hfront.exists_of_cons
  obtain ⟨afterPoint, hpoint, hsecond⟩ := hfront.exists_of_cons
  simp only [MemberPath.read, readName_eq_ok_iff.2 hfirst, expectMark, expect_eq_ok_iff.2 hpoint,
    readName_eq_ok_iff.2 hsecond]
  cases third with
  | none =>
      obtain ⟨front, rfl, hnil⟩ := hthird
      obtain rfl := List.map_eq_nil_iff.1 hnil
      rw [List.nil_append, take?_eq_none_iff.2 (hrest _ List.mem_cons_self)]
      exact ⟨_, rfl, rfl⟩
  | some name =>
      obtain ⟨more, hmore, hname⟩ := hthird.exists_of_cons
      simp only [take?_eq_some_iff.2 hmore, readName_eq_ok_iff.2 hname]
      exact ⟨_, rfl, rfl⟩

end MemberPath

theorem SelectItem.read_reads :
    SelectItem.read.Reads ItemTree.kinds ItemTree.item [.mark .point] where
  sound {tokens rest item} h := by
    simp only [SelectItem.read] at h
    split at h
    · simp at h
    rename_i path after hpath
    have hsplits := MemberPath.read_sound hpath
    simp only [MemberPath.selectItem] at h
    by_cases hmeasure : path.isMeasure = true
    · have hreserved := path.isMeasure_iff.1 hmeasure
      cases hthird : path.third with
      | none =>
          obtain ⟨rfl, rfl⟩ : SelectItem.measure path.second = item ∧ after = rest := by
            simpa [hmeasure, hthird] using h
          refine ⟨.measure path.dimension path.second hreserved, rfl, ?_⟩
          simpa [MemberPath.tree, MemberTree.kinds, ItemTree.kinds, hthird] using hsplits
      | some level => simp [hmeasure, hthird] at h
    · obtain ⟨rfl, rfl⟩ : SelectItem.level path.levelRef = item ∧ after = rest := by
        simpa [hmeasure] using h
      exact ⟨.member path.tree fun hreserved => hmeasure (path.isMeasure_iff.2 hreserved), rfl,
        hsplits⟩
  complete {tokens rest tree} h hrest := by
    cases tree with
    | measure word name reserved =>
        have hmember : Splits tokens (MemberTree.mk word name none).kinds rest := h
        obtain ⟨path, hpath, htree⟩ := MemberPath.read_complete hmember hrest
        obtain ⟨rfl, rfl, hthird⟩ := MemberTree.mk.inj htree
        simp [SelectItem.read, hpath, MemberPath.selectItem, path.isMeasure_iff.2 reserved, hthird,
          ItemTree.item]
    | member tree free =>
        obtain ⟨path, hpath, rfl⟩ := MemberPath.read_complete h hrest
        have hmeasure : ¬ path.isMeasure = true := fun h => free (path.isMeasure_iff.1 h)
        simp [SelectItem.read, hpath, MemberPath.selectItem, hmeasure, ItemTree.item,
          MemberPath.levelRef_eq]

namespace Predicate

theorem readComparison_sound {ref : LevelRef} {tokens rest : List Token} {predicate : Predicate}
    (h : (readComparison ref).run tokens = .ok (predicate, rest)) :
    ∃ tree : ComparisonTree, tree.predicate ref = predicate ∧ Splits tokens tree.kinds rest := by
  have hcomma : TokenKind.mark .comma ∉ [] := List.not_mem_nil
  simp only [readComparison] at h
  split at h
  · rename_i hequals
    split at h
    · simp at h
    · rename_i hliteral
      obtain ⟨rfl, rfl⟩ := Prod.mk.inj (Except.ok.inj h)
      obtain ⟨literal, rfl, hsplits⟩ := readLiteral_reads.sound hliteral
      exact ⟨.equals literal, rfl, (take?_eq_some_iff.1 hequals).append hsplits⟩
  · split at h
    · simp at h
    rename_i hin
    split at h
    · simp at h
    rename_i hopen
    split at h
    · simp at h
    rename_i hvalues
    split at h
    · simp at h
    rename_i hclose
    obtain ⟨rfl, rfl⟩ := Prod.mk.inj (Except.ok.inj h)
    obtain ⟨literals, rfl, hsplits⟩ := (readLiteral_reads.separated hcomma).sound hvalues
    have hfront := (take?_eq_some_iff.1 hin).append (expect_eq_ok_iff.1 hopen)
    exact ⟨.among literals, rfl, (hfront.append hsplits).append (expect_eq_ok_iff.1 hclose)⟩

theorem readComparison_complete {ref : LevelRef} {tokens rest : List Token} {tree : ComparisonTree}
    (h : Splits tokens tree.kinds rest) :
    (readComparison ref).run tokens = .ok (tree.predicate ref, rest) := by
  cases tree with
  | equals literal =>
      obtain ⟨after, hequals, hliteral⟩ := h.exists_of_cons
      simp [readComparison, take?_eq_some_iff.2 hequals,
        readLiteral_reads.complete hliteral (unextended_nil _), ComparisonTree.predicate]
  | among literals =>
      obtain ⟨afterValues, hfront, hclose⟩ := h.exists_of_append
      obtain ⟨afterOpen, hfront, hvalues⟩ := hfront.exists_of_append
      obtain ⟨afterIn, hin, hopen⟩ := hfront.exists_of_cons
      have hnone : take? (.mark .equals) tokens = none := by
        rw [take?_eq_none_iff, h.map_kind]
        simp [ComparisonTree.kinds]
      have hafter : Unextended [.mark .comma] (afterValues.map Token.kind) := by
        rw [hclose.map_kind]
        exact unextended_cons_iff.2 (by simp)
      simp [readComparison, hnone, take?_eq_some_iff.2 hin, expectMark,
        expect_eq_ok_iff.2 hopen, expect_eq_ok_iff.2 hclose, ComparisonTree.predicate,
        (readLiteral_reads.separated List.not_mem_nil).complete hvalues hafter]

theorem readComparison_reads (ref : LevelRef) :
    (readComparison ref).Reads ComparisonTree.kinds (ComparisonTree.predicate ref) [] where
  sound := readComparison_sound
  complete h _ := readComparison_complete h

theorem read_reads :
    Predicate.read.Reads PredicateTree.kinds PredicateTree.predicate [] where
  sound {tokens rest predicate} h := by
    simp only [Predicate.read] at h
    split at h
    · simp at h
    rename_i path after hpath
    split at h
    · simp at h
    rename_i hmeasure
    obtain ⟨comparison, rfl, hsplits⟩ := (readComparison_reads path.levelRef).sound h
    exact ⟨⟨path.tree, fun hreserved => hmeasure (path.isMeasure_iff.2 hreserved), comparison⟩,
      rfl, (MemberPath.read_sound hpath).append hsplits⟩
  complete {tokens rest tree} h hrest := by
    obtain ⟨member, free, comparison⟩ := tree
    obtain ⟨after, hmember, hcomparison⟩ := h.exists_of_append
    have hafter : Unextended [.mark .point] (after.map Token.kind) := by
      rw [hcomparison.map_kind]
      exact comparison.unextended_point _
    obtain ⟨path, hpath, rfl⟩ := MemberPath.read_complete hmember hafter
    have hmeasure : ¬ path.isMeasure = true := fun h => free (path.isMeasure_iff.1 h)
    simp [Predicate.read, hpath, hmeasure, PredicateTree.predicate, ← MemberPath.levelRef_eq,
      (readComparison_reads path.levelRef).complete hcomparison hrest]

end Predicate

/-- Nothing but the last token is an end. -/
def Token.Closed (tokens : List Token) : Prop :=
  ∃ front last, tokens = front ++ [last] ∧ last.kind = .finish ∧
    ∀ token ∈ front, token.kind ≠ .finish

theorem Lexeme.name_kind_ne_finish {inner : List Char} {lexeme : Lexeme}
    (h : Lexeme.name inner = .ok lexeme) : lexeme.kind ≠ .token .finish := by
  simp only [Lexeme.name] at h
  split at h
  · split at h
    · simp at h
    · obtain rfl := Except.ok.inj h
      simp
  · simp at h

theorem Lexeme.string_kind_ne_finish {quote : Char} {inner : List Char} {lexeme : Lexeme}
    (h : Lexeme.string quote inner = .ok lexeme) : lexeme.kind ≠ .token .finish := by
  simp only [Lexeme.string] at h
  split at h
  · obtain rfl := Except.ok.inj h
    simp
  · simp at h

theorem Lexeme.number_kind_ne_finish {negative : Bool} {sign text : List Char} {lexeme : Lexeme}
    (h : Lexeme.number negative sign text = .ok lexeme) : lexeme.kind ≠ .token .finish := by
  simp only [Lexeme.number] at h
  split at h
  · split at h
    · simp at h
    · obtain rfl := Except.ok.inj h
      simp
  · obtain rfl := Except.ok.inj h
    simp

theorem Lexeme.next_kind_ne_finish {c : Char} {rest : List Char} {lexeme : Lexeme}
    (h : Lexeme.next c rest = .ok lexeme) : lexeme.kind ≠ .token .finish := by
  simp only [Lexeme.next] at h
  split at h
  · obtain rfl := Except.ok.inj h
    simp
  split at h
  · obtain rfl := Except.ok.inj h
    simp
  split at h
  · exact Lexeme.name_kind_ne_finish h
  split at h
  · exact Lexeme.string_kind_ne_finish h
  split at h
  · exact Lexeme.number_kind_ne_finish h
  split at h
  · exact Lexeme.number_kind_ne_finish h
  split at h
  · obtain rfl := Except.ok.inj h
    simp only [Lexeme.word]
    split <;> simp
  split at h
  · obtain rfl := Except.ok.inj h
    simp
  · simp at h

theorem Token.closed_of_scanFrom {line column : Nat} {text : List Char} {tokens : List Token}
    (h : Token.scanFrom line column text = .ok tokens) : Token.Closed tokens := by
  fun_induction Token.scanFrom line column text generalizing tokens with
  | case1 line column =>
      obtain rfl := Except.ok.inj h
      exact ⟨[], _, rfl, rfl, by simp⟩
  | case2 => simp at h
  | case3 => simp at h
  | case4 line column c rest lexeme hnext hless hkind ih => exact ih h
  | case5 line column c rest lexeme hnext hless hkind ih => exact ih h
  | case6 line column c rest lexeme hnext hless kind hkind ih =>
      obtain ⟨others, hothers, rfl⟩ := Except.map_eq_ok_iff.1 h
      obtain ⟨front, last, rfl, hlast, hfront⟩ := ih hothers
      refine ⟨_ :: front, last, rfl, hlast, ?_⟩
      intro token htoken
      rcases List.mem_cons.1 htoken with rfl | htoken
      · exact fun hfinish => Lexeme.next_kind_ne_finish hnext (hkind.trans (congrArg _ hfinish))
      · exact hfront token htoken

/-- Where an end comes after tokens that are none, nothing follows it. -/
theorem Token.Closed.map_kind_rest {tokens rest : List Token} {kinds : List TokenKind}
    (hclosed : Token.Closed tokens) (h : Splits tokens kinds rest) (hkinds : .finish ∉ kinds)
    (hfront : (front rest).kind = .finish) : rest.map Token.kind = [.finish] := by
  obtain ⟨before, last, htokens, hlast, hbefore⟩ := hclosed
  obtain ⟨taken, rfl, rfl⟩ := h
  rcases List.eq_nil_or_concat rest with rfl | ⟨others, final, rfl⟩
  · rw [List.append_nil] at htokens
    exact absurd (List.mem_map.2 ⟨last, by simp [htokens], hlast⟩) hkinds
  · rw [List.concat_eq_append, ← List.append_assoc] at htokens
    obtain ⟨rfl, hfinal⟩ := List.append_inj' htokens rfl
    obtain rfl := List.singleton_inj.1 hfinal
    cases others with
    | nil => simpa using hlast
    | cons token others => exact absurd hfront (hbefore token (by simp))

theorem LiteralTree.kind_ne_finish (literal : LiteralTree) : literal.kind ≠ .finish := by
  cases literal with
  | truth b => cases b <;> simp [kind]
  | _ => simp [kind]

theorem Listed.finish_not_mem_kinds {α : Type} {form : α → List TokenKind}
    {separator : TokenKind} (hform : ∀ tree, .finish ∉ form tree) (hseparator : separator ≠ .finish)
    (listed : Listed α) : .finish ∉ listed.kinds separator form := by
  simp [kinds, hform, hseparator.symm]

theorem MemberTree.finish_not_mem_kinds (tree : MemberTree) : .finish ∉ tree.kinds := by
  obtain ⟨dimension, second, third⟩ := tree
  cases third <;> simp [kinds]

theorem ItemTree.finish_not_mem_kinds (tree : ItemTree) : .finish ∉ tree.kinds := by
  cases tree with
  | measure word name reserved => simp [kinds]
  | member tree free => exact tree.finish_not_mem_kinds

theorem PredicateTree.finish_not_mem_kinds (tree : PredicateTree) : .finish ∉ tree.kinds := by
  obtain ⟨member, free, comparison⟩ := tree
  have hliteral (literal : LiteralTree) : .finish ∉ [literal.kind] := by
    simpa using literal.kind_ne_finish.symm
  cases comparison with
  | equals literal =>
      simpa [kinds, ComparisonTree.kinds, member.finish_not_mem_kinds] using hliteral literal
  | among literals =>
      simp [kinds, ComparisonTree.kinds, member.finish_not_mem_kinds,
        literals.finish_not_mem_kinds hliteral]

theorem QueryTree.finish_not_mem_conditionKinds (conditions : Option (Listed PredicateTree)) :
    .finish ∉ QueryTree.conditionKinds conditions := by
  cases conditions with
  | none => simp [conditionKinds]
  | some conditions =>
      simp [conditionKinds, conditions.finish_not_mem_kinds PredicateTree.finish_not_mem_kinds]

theorem QueryTree.finish_not_mem_frontKinds (tree : QueryTree) : .finish ∉ tree.frontKinds := by
  have hcube : tree.cube.kind ≠ .finish := by cases tree.cube <;> simp [CubeTree.kind]
  simp [frontKinds, tree.items.finish_not_mem_kinds ItemTree.finish_not_mem_kinds, hcube.symm,
    finish_not_mem_conditionKinds]

namespace Query

theorem readConditions_sound {tokens rest : List Token} {predicates : List Predicate}
    (h : readConditions tokens = .ok (predicates, rest)) :
    ∃ conditions, QueryTree.predicates conditions = predicates ∧
      Splits tokens (QueryTree.conditionKinds conditions) rest := by
  simp only [readConditions] at h
  split at h
  · obtain ⟨rfl, rfl⟩ := Prod.mk.inj (Except.ok.inj h)
    exact ⟨none, rfl, Splits.nil tokens⟩
  · rename_i hwhere
    obtain ⟨conditions, rfl, hsplits⟩ :=
      (Predicate.read_reads.separated List.not_mem_nil).sound h
    exact ⟨some conditions, rfl, (take?_eq_some_iff.1 hwhere).append hsplits⟩

theorem readConditions_complete {tokens rest : List Token}
    {conditions : Option (Listed PredicateTree)}
    (h : Splits tokens (QueryTree.conditionKinds conditions) rest)
    (hrest : Unextended [.keyword .where, .keyword .and] (rest.map Token.kind)) :
    readConditions tokens = .ok (QueryTree.predicates conditions, rest) := by
  cases conditions with
  | none =>
      obtain ⟨front, rfl, hnil⟩ := h
      obtain rfl := List.map_eq_nil_iff.1 hnil
      rw [List.nil_append, readConditions, take?_eq_none_iff.2 (hrest _ List.mem_cons_self)]
      rfl
  | some conditions =>
      obtain ⟨after, hwhere, hconditions⟩ := h.exists_of_cons
      simp only [readConditions, take?_eq_some_iff.2 hwhere]
      exact (Predicate.read_reads.separated List.not_mem_nil).complete hconditions hrest.of_cons

/-- What ends a query: its semicolon if it has one, and the end of the text. -/
theorem end_eq {tokens : List Token} {semicolon : Bool}
    (h : tokens.map Token.kind = QueryTree.semicolonKinds semicolon ++ [.finish]) :
    (front ((take? (.mark .semicolon) tokens).getD tokens)).kind = .finish := by
  cases semicolon with
  | true =>
      obtain ⟨token, rest, rfl, hkind, hrest⟩ := List.map_eq_cons_iff.1 h
      obtain ⟨last, rfl, hlast⟩ := List.map_eq_singleton_iff.1 hrest
      simp [take?, hkind, front, hlast]
  | false =>
      obtain ⟨last, rfl, hlast⟩ := List.map_eq_singleton_iff.1 h
      simp [take?, front, hlast]

theorem ofTokens_sound {tokens : List Token} {query : Query} (hclosed : Token.Closed tokens)
    (h : ofTokens tokens = .ok query) :
    ∃ tree : QueryTree, tree.Derives tokens ∧ tree.query = query := by
  obtain ⟨afterSelect, hselect, h⟩ := Except.bind_eq_ok_iff.1 h
  obtain ⟨⟨select, afterItems⟩, hitems, h⟩ := Except.bind_eq_ok_iff.1 h
  obtain ⟨afterFrom, hfrom, h⟩ := Except.bind_eq_ok_iff.1 h
  obtain ⟨⟨cube, afterCube⟩, hcube, h⟩ := Except.bind_eq_ok_iff.1 h
  obtain ⟨⟨predicates, rest⟩, hpredicates, h⟩ := Except.bind_eq_ok_iff.1 h
  obtain ⟨items, rfl, hitemKinds⟩ := (SelectItem.read_reads.separated (by simp)).sound hitems
  obtain ⟨cube, rfl, hcubeKind⟩ := readCube_reads.sound hcube
  obtain ⟨conditions, rfl, hconditionKinds⟩ := readConditions_sound hpredicates
  have hsplits (semicolon : Bool) :
      Splits tokens (QueryTree.mk items cube conditions semicolon).frontKinds rest :=
    (expect_eq_ok_iff.1 hselect).append (hitemKinds.append
      ((expect_eq_ok_iff.1 hfrom).append (hcubeKind.append hconditionKinds)))
  simp only at h
  split at h
  · rename_i hlast
    obtain rfl := Except.ok.inj h
    cases hsemicolon : take? (.mark .semicolon) rest with
    | none =>
        rw [hsemicolon, Option.getD_none] at hlast
        have hrest := hclosed.map_kind_rest (hsplits false) (QueryTree.finish_not_mem_frontKinds _)
          hlast
        refine ⟨⟨items, cube, conditions, false⟩, ?_, rfl⟩
        rw [QueryTree.Derives, (hsplits false).map_kind, hrest, QueryTree.kinds,
          QueryTree.semicolonKinds, List.append_nil]
    | some after =>
        rw [hsemicolon, Option.getD_some] at hlast
        have hwhole := (hsplits true).append (take?_eq_some_iff.1 hsemicolon)
        have hrest := hclosed.map_kind_rest hwhole
          (by simpa using QueryTree.finish_not_mem_frontKinds _) hlast
        refine ⟨⟨items, cube, conditions, true⟩, ?_, rfl⟩
        rw [QueryTree.Derives, hwhole.map_kind, hrest]
        rfl
  · simp at h

theorem ofTokens_complete {tokens : List Token} {tree : QueryTree} (h : tree.Derives tokens) :
    ofTokens tokens = .ok tree.query := by
  obtain ⟨items, cube, conditions, semicolon⟩ := tree
  rw [QueryTree.Derives, QueryTree.kinds, List.append_assoc] at h
  obtain ⟨front, rest, rfl, hfront, hrest⟩ := List.map_eq_append_iff.1 h
  have hsplits : Splits (front ++ rest) _ rest := ⟨front, rfl, hfront⟩
  obtain ⟨afterSelect, hselect, hsplits⟩ := hsplits.exists_of_append
  obtain ⟨afterItems, hitems, hsplits⟩ := hsplits.exists_of_append
  obtain ⟨afterFrom, hfrom, hsplits⟩ := hsplits.exists_of_append
  obtain ⟨afterCube, hcube, hconditions⟩ := hsplits.exists_of_append
  have hafterItems : Unextended [.mark .comma, .mark .point] (afterItems.map Token.kind) := by
    rw [hfrom.map_kind]
    exact unextended_cons_iff.2 (by simp)
  have hend : Unextended [.keyword .where, .keyword .and] (rest.map Token.kind) := by
    rw [hrest]
    cases semicolon <;> exact unextended_cons_iff.2 (by simp)
  have hitems := (SelectItem.read_reads.separated (by simp)).complete hitems hafterItems
  have hcube := readCube_reads.complete hcube (unextended_nil _)
  have hconditions := readConditions_complete hconditions hend
  simp [ofTokens, expectKeyword, expect_eq_ok_iff.2 hselect, hitems, expect_eq_ok_iff.2 hfrom,
    hcube, hconditions, end_eq hrest, bind, Except.bind, pure, Except.pure, QueryTree.query]

/-- A query text is read just if it has tokens and the grammar derives them. The derivation is the
only one, and the query is the one that it stands for. -/
theorem parse_eq_ok_iff (text : String) (query : Query) :
    Query.parse text = .ok query ↔
      ∃ tokens, Token.scan text = .ok tokens ∧ ∃ tree : QueryTree, tree.Derives tokens ∧
        tree.query = query ∧ ∀ other : QueryTree, other.Derives tokens → other = tree := by
  constructor
  · intro h
    cases hscan : Token.scan text with
    | error fault => simp [parse, hscan, Except.bind] at h
    | ok tokens =>
        rw [parse, hscan] at h
        obtain ⟨tree, htree, hquery⟩ := ofTokens_sound (Token.closed_of_scanFrom hscan) h
        refine ⟨tokens, rfl, tree, htree, hquery, ?_⟩
        intro other hother
        exact QueryTree.eq_of_kinds_eq (hother.symm.trans htree)
  · rintro ⟨tokens, hscan, tree, htree, rfl, -⟩
    rw [parse, hscan]
    exact ofTokens_complete htree

end Query

end StarCube
