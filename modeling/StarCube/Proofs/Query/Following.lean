import StarCube.Proofs.Query.Expectations

/-!
The readers of the parser go from expectation to expectation, and a fault is laid on the first token
that does not meet one. There are two exceptions: the parser reads on over a point behind a measure,
and over a measure in a condition if its reference is broken off.
-/

namespace StarCube

open Token Expectation

namespace Token

theorem kind_ne_of_take? {kind : TokenKind} {tokens : List Token} (hkind : kind ≠ .finish)
    (h : take? kind tokens = none) : (front tokens).kind ≠ kind := by
  cases tokens with
  | nil => exact hkind.symm
  | cons token rest => simpa [take?, front] using h

theorem expect_eq_error {kind : TokenKind} {reason : Found → SyntaxReason} {tokens : List Token}
    {fault : QueryTextFault} (hkind : kind ≠ .finish)
    (h : expect kind reason tokens = .error fault) :
    (front tokens).kind ≠ kind ∧ fault = (front tokens).fault (reason (front tokens).found) := by
  unfold expect at h
  split at h
  · cases h
  · rename_i hnone
    exact ⟨kind_ne_of_take? hkind hnone, (Except.error.inj h).symm⟩

theorem readName_eq_error {role : String} {tokens : List Token} {fault : QueryTextFault}
    (h : (readName role).run tokens = .error fault) :
    (front tokens).kind.name? = none ∧
      fault = (front tokens).fault (.expectedName role (front tokens).found) := by
  simp only [readName] at h
  split at h
  · exact ⟨rfl, (Except.error.inj h).symm⟩
  · split at h
    · cases h
    · rename_i token rest _ hname
      refine ⟨?_, (Except.error.inj h).symm⟩
      cases hkind : token.kind <;> simp_all [front, TokenKind.name?]

theorem readLiteral_eq_error {tokens : List Token} {fault : QueryTextFault}
    (h : readLiteral.run tokens = .error fault) :
    (front tokens).kind.isLiteral = false ∧
      fault = (front tokens).fault (.expectedLiteral (front tokens).found) := by
  simp only [readLiteral] at h
  split at h
  · exact ⟨rfl, (Except.error.inj h).symm⟩
  · split at h
    all_goals try cases h
    rename_i token rest _ hstring hint hreal htrue hfalse
    refine ⟨?_, rfl⟩
    simp only [front, TokenKind.isLiteral]

theorem readCube_eq_error {tokens : List Token} {fault : QueryTextFault}
    (h : readCube.run tokens = .error fault) :
    (front tokens).kind.isCube = false ∧
      fault = (front tokens).fault (.expectedCube (front tokens).found) := by
  simp only [readCube] at h
  split at h
  · exact ⟨rfl, (Except.error.inj h).symm⟩
  · split at h
    all_goals try cases h
    rename_i token rest _ hname hword
    refine ⟨?_, rfl⟩
    simp only [front, TokenKind.isCube]

end Token

/-- A reader takes tokens as they are expected from `entry` to `exit`, and halts at the first that
is not. -/
structure TokenReader.Follows {α : Type} (reader : TokenReader α) (entry exit : Expectation) :
    Prop where
  passes : ∀ {tokens rest : List Token} {value : α}, reader.run tokens = .ok (value, rest) →
    entry.Passes exit tokens rest
  halts : ∀ {tokens : List Token} {fault : QueryTextFault}, reader.run tokens = .error fault →
    entry.Halts tokens fault

namespace Expectation

variable {entry exit : Expectation}

theorem overlooks_second_iff {purpose : Purpose} {tokens : List Token} :
    (second purpose).Overlooks tokens ↔
      purpose = .measure ∧ (front tokens).kind = .mark .point := by
  simp [Overlooks]

theorem passes_cons {token : Token} {rest : List Token} (h : entry.step token.kind = some exit)
    (hgoing : exit ≠ finished) : entry.Passes exit (token :: rest) rest :=
  .of_run [token] rfl (by simp [h]) hgoing

theorem passes_of_take? {kind : TokenKind} {tokens rest : List Token}
    (h : take? kind tokens = some rest) (hstep : entry.step kind = some exit)
    (hgoing : exit ≠ finished) : entry.Passes exit tokens rest := by
  obtain ⟨token, rfl, rfl⟩ := (take?_eq_some_iff.1 h).exists_of_singleton
  exact passes_cons hstep hgoing

theorem passes_of_expect {kind : TokenKind} {reason : Found → SyntaxReason}
    {tokens rest : List Token} (h : expect kind reason tokens = .ok rest)
    (hstep : entry.step kind = some exit) (hgoing : exit ≠ finished) :
    entry.Passes exit tokens rest :=
  passes_of_take? (take?_eq_some_iff.2 (expect_eq_ok_iff.1 h)) hstep hgoing

theorem halts_of_expect {kind : TokenKind} {reason : Found → SyntaxReason} {tokens : List Token}
    {fault : QueryTextFault} (h : expect kind reason tokens = .error fault)
    (hkind : kind ≠ .finish) (hentry : entry.heeds = true)
    (hstep : (front tokens).kind ≠ kind → entry.step (front tokens).kind = none) :
    entry.Halts tokens fault := by
  obtain ⟨hne, rfl⟩ := expect_eq_error hkind h
  exact .of_heeds hentry (hstep hne) _

end Expectation

open Expectation

theorem readLiteral_follows {entry exit : Expectation} (hentry : entry.heeds = true)
    (hliteral : ∀ kind, entry.step kind = if kind.isLiteral then some exit else none)
    (hgoing : exit ≠ finished) : readLiteral.Follows entry exit where
  passes {tokens rest value} h := by
    obtain ⟨literal, -, hsplits⟩ := readLiteral_reads.sound h
    obtain ⟨token, rfl, hkind⟩ := hsplits.exists_of_singleton
    refine passes_cons ?_ hgoing
    rw [hliteral, hkind]
    cases literal with
    | truth b => cases b <;> rfl
    | _ => rfl
  halts {tokens fault} h := by
    obtain ⟨hkind, rfl⟩ := readLiteral_eq_error h
    exact .of_heeds hentry (by simp [hliteral, hkind]) _

theorem readCube_follows : readCube.Follows source sourced where
  passes {tokens rest value} h := by
    obtain ⟨cube, -, hsplits⟩ := readCube_reads.sound h
    obtain ⟨token, rfl, hkind⟩ := hsplits.exists_of_singleton
    refine passes_cons ?_ (by decide)
    rw [hkind]
    cases cube <;> rfl
  halts {tokens fault} h := by
    obtain ⟨hkind, rfl⟩ := readCube_eq_error h
    exact .of_heeds rfl (by simp [step, hkind]) _

namespace TokenReader.Follows

variable {α : Type} {reader : TokenReader α} {entry exit : Expectation} {separator : TokenKind}

theorem separatedRun_passes (h : reader.Follows entry exit)
    (hseparator : exit.step separator = some entry) (hgoing : entry ≠ finished)
    (hfinish : separator ≠ .finish) {tokens rest : List Token} {values : List α}
    (hrun : reader.separatedRun separator tokens = .ok (values, rest)) :
    entry.Passes exit tokens rest ∧ (front rest).kind ≠ separator := by
  fun_induction TokenReader.separatedRun reader separator tokens generalizing values with
  | case1 => simp at hrun
  | case2 tokens first after hfirst hmore =>
      obtain ⟨-, rfl⟩ := Prod.mk.inj (Except.ok.inj hrun)
      exact ⟨h.passes hfirst, kind_ne_of_take? hfinish hmore⟩
  | case3 => simp at hrun
  | case4 tokens first after hfirst more hmore hless others last hothers ih =>
      obtain ⟨-, rfl⟩ := Prod.mk.inj (Except.ok.inj hrun)
      obtain ⟨hpasses, hlast⟩ := ih hothers
      exact ⟨((h.passes hfirst).trans (passes_of_take? hmore hseparator hgoing)).trans hpasses,
        hlast⟩

theorem separatedRun_halts (h : reader.Follows entry exit)
    (hseparator : exit.step separator = some entry) (hgoing : entry ≠ finished)
    {tokens : List Token} {fault : QueryTextFault}
    (hrun : reader.separatedRun separator tokens = .error fault) :
    entry.Halts tokens fault := by
  fun_induction TokenReader.separatedRun reader separator tokens with
  | case1 tokens other hother =>
      obtain rfl := Except.error.inj hrun
      exact h.halts hother
  | case2 => simp at hrun
  | case3 tokens first after hfirst more hmore hless other hothers ih =>
      obtain rfl := Except.error.inj hrun
      exact ((h.passes hfirst).trans (passes_of_take? hmore hseparator hgoing)).halts (ih hothers)
  | case4 => simp at hrun

end TokenReader.Follows

/-! ### References -/

/-- The ways in which a reference is read or is not. -/
inductive MemberPath.Course : List Token → Except QueryTextFault (MemberPath × List Token) → Prop
  where
  | first {tokens : List Token} (h : (front tokens).kind.name? = none) (reason : SyntaxReason) :
      Course tokens (.error ((front tokens).fault reason))
  | broken {token : Token} {word : String} {more rest : List Token}
      (hname : token.kind = .name word) (h : BrokenOff more rest) (reason : SyntaxReason) :
      Course (token :: more) (.error ((front rest).fault reason))
  | two {token point second : Token} {word name : String} {rest : List Token}
      (hname : token.kind = .name word) (hpoint : point.kind = .mark .point)
      (hsecond : second.kind = .name name) (h : (front rest).kind ≠ .mark .point) :
      Course (token :: point :: second :: rest) (.ok (⟨token, word, name, none⟩, rest))
  | three {token point second again third : Token} {word name level : String} {rest : List Token}
      (hname : token.kind = .name word) (hpoint : point.kind = .mark .point)
      (hsecond : second.kind = .name name) (hagain : again.kind = .mark .point)
      (hthird : third.kind = .name level) :
      Course (token :: point :: second :: again :: third :: rest)
        (.ok (⟨token, word, name, some level⟩, rest))

theorem MemberPath.read_course (tokens : List Token) :
    MemberPath.Course tokens (MemberPath.read.run tokens) := by
  have hmark : TokenKind.mark .point ≠ .finish := by simp
  simp only [MemberPath.read]
  split
  · rename_i fault hfirst
    obtain ⟨hname, rfl⟩ := readName_eq_error hfirst
    exact .first hname _
  rename_i word afterFirst hfirst
  obtain ⟨token, rfl, hword⟩ := (readName_eq_ok_iff.1 hfirst).exists_of_singleton
  split
  · rename_i fault hpoint
    obtain ⟨hne, rfl⟩ := expect_eq_error hmark hpoint
    exact .broken hword (.point hne) _
  rename_i afterPoint hpoint
  obtain ⟨point, rfl, hdot⟩ := (expect_eq_ok_iff.1 hpoint).exists_of_singleton
  split
  · rename_i fault hsecond
    obtain ⟨hnone, rfl⟩ := readName_eq_error hsecond
    exact .broken hword (.second hdot hnone) _
  rename_i name afterSecond hsecond
  obtain ⟨second, rfl, hname⟩ := (readName_eq_ok_iff.1 hsecond).exists_of_singleton
  split
  · rename_i hmore
    exact .two hword hdot hname (kind_ne_of_take? hmark hmore)
  rename_i more hmore
  obtain ⟨again, rfl, hagain⟩ := (take?_eq_some_iff.1 hmore).exists_of_singleton
  split
  · rename_i fault hthird
    obtain ⟨hnone, rfl⟩ := readName_eq_error hthird
    exact .broken hword (.third hdot hname hagain hnone) _
  · rename_i level rest hthird
    obtain ⟨third, rfl, hlevel⟩ := (readName_eq_ok_iff.1 hthird).exists_of_singleton
    exact .three hword hdot hname hagain hlevel

namespace Token.BrokenOff

/-- What is passed over is no end. -/
theorem exists_taken {more rest : List Token} (h : BrokenOff more rest) :
    ∃ taken, more = taken ++ rest ∧ ∀ token ∈ taken, token.kind ≠ .finish := by
  cases h with
  | point h => exact ⟨[], rfl, by simp⟩
  | second hpoint h => exact ⟨[_], rfl, by simp [hpoint]⟩
  | third hpoint hsecond hagain h => exact ⟨[_, _, _], rfl, by simp [hpoint, hsecond, hagain]⟩

theorem not_of_two {point second : Token} {name : String} {rest : List Token}
    (hpoint : point.kind = .mark .point) (hsecond : second.kind = .name name)
    (h : (front rest).kind ≠ .mark .point) (rest' : List Token) :
    ¬ BrokenOff (point :: second :: rest) rest' := by
  rintro (h' | ⟨_, h'⟩ | ⟨_, _, hagain, _⟩)
  · exact h' hpoint
  · simp [front, hsecond, TokenKind.name?] at h'
  · exact h hagain

theorem not_of_three {point second again third : Token} {name level : String} {rest : List Token}
    (hpoint : point.kind = .mark .point) (hsecond : second.kind = .name name)
    (hthird : third.kind = .name level) (rest' : List Token) :
    ¬ BrokenOff (point :: second :: again :: third :: rest) rest' := by
  rintro (h' | ⟨_, h'⟩ | ⟨_, _, _, h'⟩)
  · exact h' hpoint
  · simp [front, hsecond, TokenKind.name?] at h'
  · simp [front, hthird, TokenKind.name?] at h'

end Token.BrokenOff

namespace Expectation

/-- Where a reference is broken off a fault is laid on the token that breaks it off. Of a measure
this is the token behind the point that is not expected. -/
theorem named_halts (purpose : Purpose) {more rest : List Token} (h : BrokenOff more rest)
    (reason : SyntaxReason) : (named purpose).Halts more ((front rest).fault reason) := by
  cases h with
  | point h => exact .of_heeds rfl (by simp [step, h]) _
  | @second point _ hpoint h =>
      have hpasses : (named purpose).Passes (pointed purpose) (point :: rest) rest :=
        passes_cons (by simp [step, hpoint]) (by simp)
      exact hpasses.halts (.of_heeds rfl (by simp [step, h]) _)
  | @third point second again name rest hpoint hsecond hagain h =>
      have hpasses : (named purpose).Passes (.second purpose) (point :: second :: again :: rest)
          (again :: rest) :=
        .of_run [point, second] rfl (by simp [step, hpoint, hsecond, TokenKind.name?])
          (by simp)
      refine hpasses.halts ?_
      by_cases hmeasure : purpose = .measure
      · subst hmeasure
        refine ⟨[], again :: rest, _, 1, rfl, rfl, by simp, ?_, ⟨by simp [hagain], reason, rfl⟩, ?_⟩
        · simp [front, step, leave, hagain]
        · simp [overlooks_second_iff, front, hagain]
      · have hpasses' : (Expectation.second purpose).Passes (pointedAgain purpose) (again :: rest)
            rest :=
          passes_cons (by simp [step, hagain, hmeasure]) (by simp)
        exact hpasses'.halts (.of_heeds rfl (by simp [step, h]) _)

/-- Behind two names that no point follows, what is expected does not tell them from three. -/
theorem second_passes (purpose : Purpose) {tokens : List Token}
    (h : (front tokens).kind ≠ .mark .point) :
    (second purpose).Passes (third purpose) tokens tokens :=
  ⟨[], _, rfl, rfl, by simp, by simp [step, h], by
    simp [overlooks_second_iff, h, not_overlooks_of_heeds (rfl : (third purpose).heeds = true)]⟩

end Expectation

/-- The levels and the measures of a select list are followed by the same. -/
theorem Expectation.third_passes_level {purpose : Purpose} (h : purpose ≠ .filter)
    (tokens : List Token) : (third purpose).Passes (third .level) tokens tokens :=
  ⟨[], _, rfl, rfl, by simp, by simp [step, leave, h],
    iff_of_false (not_overlooks_of_heeds rfl tokens) (not_overlooks_of_heeds rfl tokens)⟩

/-- A reference that is read goes from its first name to what may follow it. A measure with a level
is no such reference, but one that the parser reads on over. -/
theorem MemberPath.passes_of_read {token : Token} {more rest : List Token} {path : MemberPath}
    (h : MemberPath.read.run (token :: more) = .ok (path, rest)) (purpose : Purpose)
    (hmeasure : purpose = .measure → path.third = none) :
    (named purpose).Passes (Expectation.third purpose) more rest := by
  have hcourse := MemberPath.read_course (token :: more)
  rw [h] at hcourse
  cases hcourse with
  | @two _ point second _ _ _ hword hpoint hname hnext =>
      have hfront : (named purpose).Passes (.second purpose) (point :: second :: rest) rest :=
        .of_run [point, second] rfl (by simp [step, hpoint, hname, TokenKind.name?])
          (by simp)
      exact hfront.trans (second_passes purpose hnext)
  | @three _ point second again third _ _ _ _ hword hpoint hname hagain hlevel =>
      have hne : purpose ≠ .measure := fun heq => by simp at hmeasure; exact hmeasure heq
      exact .of_run [point, second, again, third] rfl
        (by simp [step, hpoint, hname, hagain, hlevel, hne, TokenKind.name?]) (by simp)

/-- A reference that is read is not broken off. -/
theorem MemberPath.not_brokenOff_of_read {token : Token} {more rest : List Token}
    {path : MemberPath} (h : MemberPath.read.run (token :: more) = .ok (path, rest)) :
    token.kind = .name path.dimension ∧ ∀ rest', ¬ BrokenOff more rest' := by
  have hcourse := MemberPath.read_course (token :: more)
  rw [h] at hcourse
  cases hcourse with
  | two hword hpoint hname hnext => exact ⟨hword, BrokenOff.not_of_two hpoint hname hnext⟩
  | three hword hpoint hname hagain hlevel =>
      exact ⟨hword, BrokenOff.not_of_three hpoint hname hlevel⟩

theorem MemberPath.exists_cons_of_read {tokens rest : List Token} {path : MemberPath}
    (h : MemberPath.read.run tokens = .ok (path, rest)) :
    ∃ more, tokens = path.first :: more := by
  have hcourse := MemberPath.read_course tokens
  rw [h] at hcourse
  cases hcourse with
  | two => exact ⟨_, rfl⟩
  | three => exact ⟨_, rfl⟩

/-- A level of a measure is read on to its end, and the fault is laid on its first name. -/
theorem Expectation.item_halts_of_level {tokens rest : List Token} {path : MemberPath}
    {level : String} (h : MemberPath.read.run tokens = .ok (path, rest))
    (hreserved : Reserved path.dimension) (hthird : path.third = some level)
    (reason : SyntaxReason) : item.Halts tokens (path.first.fault reason) := by
  have hcourse := MemberPath.read_course tokens
  rw [h] at hcourse
  cases hcourse with
  | two => simp at hthird
  | @three token point second again third word name level rest hword hpoint hname hagain hlevel =>
      have hrun : item.run ([token, point, second].map Token.kind) =
          some (Expectation.second .measure) := by
        simp [step, hword, hpoint, hname, show Reserved word from hreserved, TokenKind.name?]
      refine ⟨[token, point, second], again :: third :: rest, _, 0, rfl, hrun, by simp, ?_,
        ⟨by simp, reason, rfl⟩, ?_⟩
      · simp [front, step, leave, hagain]
      · simp [overlooks_second_iff, front, hagain]

/-- A reserved name in a condition is read on over, and the fault is laid on what breaks it off. -/
theorem Expectation.condition_halts_of_broken {token : Token} {word : String}
    {more rest : List Token} (hword : token.kind = .name word) (hreserved : Reserved word)
    (hbroken : BrokenOff more rest) (reason : SyntaxReason) :
    condition.Halts (token :: more) ((front rest).fault reason) := by
  obtain ⟨taken, rfl, hopen⟩ := hbroken.exists_taken
  refine ⟨[], token :: (taken ++ rest), condition, taken.length + 1, rfl, rfl, by simp, ?_,
    ⟨?_, reason, by simp⟩, ?_⟩
  · simp [front, step, hword, hreserved, TokenKind.name?]
  · simpa [hword] using hopen
  · refine iff_of_false (by simp) (not_not_intro ?_)
    exact .inr ⟨rfl, token, _, rest, rfl, ⟨word, hword, hreserved⟩, hbroken⟩

theorem SelectItem.read_passes {tokens rest : List Token} {value : SelectItem}
    (h : SelectItem.read.run tokens = .ok (value, rest)) :
    item.Passes (third .level) tokens rest := by
  simp only [SelectItem.read] at h
  split at h
  · cases h
  rename_i path after hpath
  split at h
  · cases h
  rename_i item hitem
  obtain ⟨-, rfl⟩ := Prod.mk.inj (Except.ok.inj h)
  obtain ⟨more, rfl⟩ := MemberPath.exists_cons_of_read hpath
  obtain ⟨hword, -⟩ := MemberPath.not_brokenOff_of_read hpath
  simp only [MemberPath.selectItem, path.isMeasure_iff] at hitem
  by_cases hreserved : Reserved path.dimension
  · have hthird : path.third = none := by
      cases hlevel : path.third with
      | none => rfl
      | some level => simp [hreserved, hlevel] at hitem
    have hfirst : Expectation.item.Passes (named .measure) (path.first :: more) more :=
      passes_cons (by simp [step, hword, hreserved, TokenKind.name?]) (by simp)
    exact (hfirst.trans (MemberPath.passes_of_read hpath .measure fun _ => hthird)).trans
      (third_passes_level (by simp) _)
  · have hfirst : Expectation.item.Passes (named .level) (path.first :: more) more :=
      passes_cons (by simp [step, hword, hreserved, TokenKind.name?]) (by simp)
    exact hfirst.trans (MemberPath.passes_of_read hpath .level (by simp))

theorem SelectItem.read_halts {tokens : List Token} {fault : QueryTextFault}
    (h : SelectItem.read.run tokens = .error fault) : item.Halts tokens fault := by
  simp only [SelectItem.read] at h
  split at h
  · rename_i other hother
    obtain rfl := Except.error.inj h
    have hcourse := MemberPath.read_course tokens
    rw [hother] at hcourse
    cases hcourse with
    | first hname reason =>
        exact .of_heeds rfl (by simp [step, hname]) _
    | broken hword hbroken reason =>
        exact (passes_cons (by simp [step, hword, TokenKind.name?]; rfl) (by simp)).halts
          (named_halts _ hbroken reason)
  · rename_i path after hpath
    split at h
    · rename_i other hother
      obtain rfl := Except.error.inj h
      simp only [MemberPath.selectItem, path.isMeasure_iff] at hother
      by_cases hreserved : Reserved path.dimension
      · rw [if_pos hreserved] at hother
        split at hother
        · cases hother
        · rename_i level hthird
          obtain rfl := Except.error.inj hother
          exact item_halts_of_level hpath hreserved hthird _
      · simp [hreserved] at hother
    · cases h

theorem SelectItem.read_follows : SelectItem.read.Follows item (third .level) :=
  ⟨read_passes, read_halts⟩

namespace Predicate

theorem value_follows : readLiteral.Follows value compared :=
  readLiteral_follows rfl (fun _ => rfl) (by simp)

theorem listValue_follows : readLiteral.Follows listValue listed :=
  readLiteral_follows rfl (fun _ => rfl) (by simp)

theorem readComparison_passes {ref : LevelRef} {tokens rest : List Token} {predicate : Predicate}
    (h : (readComparison ref).run tokens = .ok (predicate, rest)) :
    (third .filter).Passes compared tokens rest := by
  simp only [readComparison] at h
  split at h
  · rename_i hequals
    split at h
    · cases h
    rename_i hliteral
    obtain ⟨-, rfl⟩ := Prod.mk.inj (Except.ok.inj h)
    exact (passes_of_take? hequals (by rfl) (by simp)).trans (value_follows.passes hliteral)
  split at h
  · cases h
  rename_i hin
  split at h
  · cases h
  rename_i hopen
  split at h
  · cases h
  rename_i hvalues
  split at h
  · cases h
  rename_i hclose
  obtain ⟨-, rfl⟩ := Prod.mk.inj (Except.ok.inj h)
  have hlist : (third .filter).Passes listValue tokens _ :=
    (passes_of_take? hin rfl (by simp)).trans (passes_of_expect hopen rfl (by simp))
  have hvalues' := (listValue_follows.separatedRun_passes rfl (by simp) (by simp) hvalues).1
  exact (hlist.trans hvalues').trans (passes_of_expect hclose rfl (by simp))

theorem readComparison_halts {ref : LevelRef} {tokens : List Token} {fault : QueryTextFault}
    (h : (readComparison ref).run tokens = .error fault) : (third .filter).Halts tokens fault := by
  simp only [readComparison] at h
  split at h
  · rename_i hequals
    split at h
    · rename_i other hliteral
      obtain rfl := Except.error.inj h
      have hequals : (third .filter).Passes value tokens _ :=
        passes_of_take? hequals rfl (by simp)
      exact hequals.halts (value_follows.halts hliteral)
    · cases h
  rename_i hequals
  have hno : (front tokens).kind ≠ .mark .equals := kind_ne_of_take? (by simp) hequals
  split at h
  · rename_i hin
    obtain rfl := Except.error.inj h
    have hno' : (front tokens).kind ≠ .keyword .in := kind_ne_of_take? (by simp) hin
    exact .of_heeds rfl (by simp [step, leave, hno, hno']) _
  rename_i hin
  have hlist : (third .filter).Passes list tokens _ := passes_of_take? hin rfl (by simp)
  split at h
  · rename_i other hopen
    obtain rfl := Except.error.inj h
    exact hlist.halts (halts_of_expect hopen (by simp) rfl fun hne => by simp [step, hne])
  rename_i hopen
  have hopened : list.Passes listValue _ _ := passes_of_expect hopen rfl (by simp)
  replace hopened := hlist.trans hopened
  split at h
  · rename_i other hvalues
    obtain rfl := Except.error.inj h
    exact hopened.halts (listValue_follows.separatedRun_halts rfl (by simp) hvalues)
  rename_i hvalues
  obtain ⟨hpasses, hcomma⟩ := listValue_follows.separatedRun_passes rfl (by simp) (by simp) hvalues
  split at h
  · rename_i other hclose
    obtain rfl := Except.error.inj h
    exact (hopened.trans hpasses).halts <|
      halts_of_expect hclose (by simp) rfl fun hne => by simp [step, hne, hcomma]
  · cases h

theorem readComparison_follows (ref : LevelRef) :
    (readComparison ref).Follows (third .filter) compared :=
  ⟨readComparison_passes, readComparison_halts⟩

theorem read_passes {tokens rest : List Token} {value : Predicate}
    (h : Predicate.read.run tokens = .ok (value, rest)) :
    condition.Passes compared tokens rest := by
  simp only [Predicate.read] at h
  split at h
  · cases h
  rename_i path after hpath
  split at h
  · cases h
  rename_i hmeasure
  rw [path.isMeasure_iff] at hmeasure
  obtain ⟨more, rfl⟩ := MemberPath.exists_cons_of_read hpath
  obtain ⟨hword, -⟩ := MemberPath.not_brokenOff_of_read hpath
  have hfirst : condition.Passes (named .filter) (path.first :: more) more :=
    passes_cons (by simp [step, hword, hmeasure, TokenKind.name?]) (by simp)
  exact (hfirst.trans (MemberPath.passes_of_read hpath .filter (by simp))).trans
    ((readComparison_follows path.levelRef).passes h)

theorem read_halts {tokens : List Token} {fault : QueryTextFault}
    (h : Predicate.read.run tokens = .error fault) : condition.Halts tokens fault := by
  simp only [Predicate.read] at h
  split at h
  · rename_i other hother
    obtain rfl := Except.error.inj h
    have hcourse := MemberPath.read_course tokens
    rw [hother] at hcourse
    cases hcourse with
    | first hname reason =>
        refine .of_step (by simp) (by simp [step, hname]) ?_ _
        rintro (⟨h, -⟩ | ⟨-, token, more, rest, rfl, ⟨word, hword, -⟩, -⟩)
        · cases h
        · simp [front, hword, TokenKind.name?] at hname
    | @broken token word more rest hword hbroken reason =>
        by_cases hreserved : Reserved word
        · exact condition_halts_of_broken hword hreserved hbroken reason
        · have hfirst : condition.Passes (named .filter) (token :: more) more :=
            passes_cons (by simp [step, hword, hreserved, TokenKind.name?]) (by simp)
          exact hfirst.halts (named_halts _ hbroken reason)
  · rename_i path after hpath
    obtain ⟨more, rfl⟩ := MemberPath.exists_cons_of_read hpath
    obtain ⟨hword, hbroken⟩ := MemberPath.not_brokenOff_of_read hpath
    split at h
    · rename_i hmeasure
      rw [path.isMeasure_iff] at hmeasure
      obtain rfl := Except.error.inj h
      have hstep : condition.step (front (path.first :: more)).kind = none := by
        simp [step, front, hword, hmeasure, TokenKind.name?]
      refine Halts.of_step (by simp) hstep ?_ .measurePredicate
      rintro (⟨h, -⟩ | ⟨-, token, more', rest', heq, -, hbroken'⟩)
      · cases h
      · obtain ⟨rfl, rfl⟩ := List.cons.inj heq
        exact hbroken rest' hbroken'
    · rename_i hmeasure
      rw [path.isMeasure_iff] at hmeasure
      have hfirst : condition.Passes (named .filter) (path.first :: more) more :=
        passes_cons (by simp [step, hword, hmeasure, TokenKind.name?]) (by simp)
      exact (hfirst.trans (MemberPath.passes_of_read hpath .filter (by simp))).halts
        ((readComparison_follows path.levelRef).halts h)

theorem read_follows : Predicate.read.Follows condition compared :=
  ⟨read_passes, read_halts⟩

end Predicate

/-! ### The whole of a query -/

namespace Query

theorem readConditions_passes {tokens rest : List Token} {predicates : List Predicate}
    (h : readConditions tokens = .ok (predicates, rest)) :
    ∃ exit, sourced.Passes exit tokens rest ∧
      (exit = sourced ∧ (front rest).kind ≠ .keyword .where ∨
        exit = compared ∧ (front rest).kind ≠ .keyword .and) := by
  simp only [readConditions] at h
  split at h
  · rename_i hwhere
    obtain ⟨-, rfl⟩ := Prod.mk.inj (Except.ok.inj h)
    exact ⟨sourced, .nil (by simp) _, .inl ⟨rfl, kind_ne_of_take? (by simp) hwhere⟩⟩
  · rename_i hwhere
    obtain ⟨hpasses, hand⟩ := Predicate.read_follows.separatedRun_passes rfl (by simp) (by simp) h
    have hcondition : sourced.Passes condition tokens _ := passes_of_take? hwhere rfl (by simp)
    exact ⟨compared, hcondition.trans hpasses, .inr ⟨rfl, hand⟩⟩

theorem readConditions_halts {tokens : List Token} {fault : QueryTextFault}
    (h : readConditions tokens = .error fault) : sourced.Halts tokens fault := by
  simp only [readConditions] at h
  split at h
  · cases h
  · rename_i hwhere
    have hcondition : sourced.Passes condition tokens _ := passes_of_take? hwhere rfl (by simp)
    exact hcondition.halts (Predicate.read_follows.separatedRun_halts rfl (by simp) h)

/-- What may close a query closes it, or is where it halts. -/
theorem step_eq_close {exit : Expectation} {kind : TokenKind}
    (h : exit = sourced ∧ kind ≠ .keyword .where ∨ exit = compared ∧ kind ≠ .keyword .and) :
    exit.step kind = close kind := by
  rcases h with ⟨rfl, hkind⟩ | ⟨rfl, hkind⟩ <;> simp [step, hkind]

theorem ofTokens_halts {tokens : List Token} {fault : QueryTextFault}
    (h : ofTokens tokens = .error fault) : start.Halts tokens fault := by
  rcases Except.bind_eq_error_iff.1 h with hselect | ⟨afterSelect, hselect, h⟩
  · exact halts_of_expect hselect (by simp) rfl fun hne => by simp [step, hne]
  have hfront : start.Passes item tokens afterSelect := passes_of_expect hselect rfl (by simp)
  rcases Except.bind_eq_error_iff.1 h with hitems | ⟨⟨select, afterItems⟩, hitems, h⟩
  · exact hfront.halts (SelectItem.read_follows.separatedRun_halts rfl (by simp) hitems)
  obtain ⟨hpasses, hcomma⟩ :=
    SelectItem.read_follows.separatedRun_passes rfl (by simp) (by simp) hitems
  replace hfront := hfront.trans hpasses
  rcases Except.bind_eq_error_iff.1 h with hfrom | ⟨afterFrom, hfrom, h⟩
  · exact hfront.halts <|
      halts_of_expect hfrom (by simp) rfl fun hne => by simp [step, leave, hne, hcomma]
  have hsource : (third .level).Passes source afterItems afterFrom :=
    passes_of_expect hfrom rfl (by simp)
  replace hfront := hfront.trans hsource
  rcases Except.bind_eq_error_iff.1 h with hcube | ⟨⟨cube, afterCube⟩, hcube, h⟩
  · exact hfront.halts (readCube_follows.halts hcube)
  replace hfront := hfront.trans (readCube_follows.passes hcube)
  rcases Except.bind_eq_error_iff.1 h with hconditions | ⟨⟨conditions, rest⟩, hconditions, h⟩
  · exact hfront.halts (readConditions_halts hconditions)
  obtain ⟨exit, hpasses, hexit⟩ := readConditions_passes hconditions
  replace hfront := hfront.trans hpasses
  have hclose := step_eq_close hexit
  have hheeds : exit.heeds = true := by rcases hexit with ⟨rfl, -⟩ | ⟨rfl, -⟩ <;> rfl
  simp only at h
  split at h
  · cases h
  rename_i hlast
  obtain rfl := Except.error.inj h
  cases hsemicolon : take? (.mark .semicolon) rest with
  | none =>
      rw [hsemicolon, Option.getD_none] at hlast
      have hne := kind_ne_of_take? (by simp) hsemicolon
      exact hfront.halts (.of_heeds hheeds (by simp [hclose, close, hne, hlast]) _)
  | some after =>
      rw [hsemicolon, Option.getD_some] at hlast
      obtain ⟨token, rfl, hkind⟩ := (take?_eq_some_iff.1 hsemicolon).exists_of_singleton
      have hended : exit.Passes ended (token :: after) after :=
        passes_cons (hclose.trans (by simp [front, close, hkind])) (by simp)
      exact (hfront.trans hended).halts (.of_heeds rfl (by simp [step, hlast]) _)

theorem ofTokens_passes {tokens : List Token} {query : Query} (hclosed : Token.Closed tokens)
    (h : ofTokens tokens = .ok query) : start.run (tokens.map Token.kind) = some finished := by
  obtain ⟨afterSelect, hselect, h⟩ := Except.bind_eq_ok_iff.1 h
  obtain ⟨⟨select, afterItems⟩, hitems, h⟩ := Except.bind_eq_ok_iff.1 h
  obtain ⟨afterFrom, hfrom, h⟩ := Except.bind_eq_ok_iff.1 h
  obtain ⟨⟨cube, afterCube⟩, hcube, h⟩ := Except.bind_eq_ok_iff.1 h
  obtain ⟨⟨conditions, rest⟩, hconditions, h⟩ := Except.bind_eq_ok_iff.1 h
  have hitem : start.Passes item tokens afterSelect := passes_of_expect hselect rfl (by simp)
  have hitems := (SelectItem.read_follows.separatedRun_passes rfl (by simp) (by simp) hitems).1
  have hsource : (third .level).Passes source afterItems afterFrom :=
    passes_of_expect hfrom rfl (by simp)
  obtain ⟨exit, hconditions, hexit⟩ := readConditions_passes hconditions
  have hfront := ((hitem.trans hitems).trans hsource).trans
    ((readCube_follows.passes hcube).trans hconditions)
  have hclose := step_eq_close hexit
  simp only at h
  split at h
  · rename_i hlast
    cases hsemicolon : take? (.mark .semicolon) rest with
    | none =>
        rw [hsemicolon, Option.getD_none] at hlast
        exact hfront.run_eq_finished hclosed hlast (by rw [← hlast, hclose, hlast]; rfl)
    | some after =>
        rw [hsemicolon, Option.getD_some] at hlast
        obtain ⟨token, rfl, hkind⟩ := (take?_eq_some_iff.1 hsemicolon).exists_of_singleton
        have hended : exit.Passes ended (token :: after) after :=
          passes_cons (hclose.trans (by simp [front, close, hkind])) (by simp)
        exact (hfront.trans hended).run_eq_finished hclosed hlast rfl
  · cases h

end Query

namespace QueryTree

theorem finish_not_mem_kinds (tree : QueryTree) : .finish ∉ tree.kinds := by
  cases hsemicolon : tree.semicolon <;>
    simpa [kinds, semicolonKinds, hsemicolon] using tree.finish_not_mem_frontKinds

/-- Tokens of given kinds. -/
def placed (kinds : List TokenKind) : List Token :=
  kinds.map fun kind => ⟨kind, 1, 1, ""⟩

theorem map_kind_placed (kinds : List TokenKind) : (placed kinds).map Token.kind = kinds := by
  rw [placed, List.map_map]
  exact List.map_id kinds

theorem closed_placed {kinds : List TokenKind} (h : .finish ∉ kinds) :
    Token.Closed (placed (kinds ++ [.finish])) := by
  refine ⟨placed kinds, ⟨.finish, 1, 1, ""⟩, by simp [placed], rfl, ?_⟩
  simp only [placed, List.forall_mem_map]
  exact fun kind hkind heq => h (heq ▸ hkind)

end QueryTree

namespace Expectation

open QueryTree

theorem step_eq_finished {expectation : Expectation} {kind : TokenKind}
    (h : expectation.step kind = some finished) : kind = .finish := by
  cases expectation <;>
    grind [step, leave, close, Option.map_eq_some_iff, Option.bind_eq_some_iff]

/-- The tokens that meet all expectations are those of the queries. -/
theorem run_eq_finished_iff {kinds : List TokenKind} :
    start.run kinds = some finished ↔ ∃ tree : QueryTree, kinds = tree.kinds ++ [.finish] := by
  constructor
  · intro h
    -- The end is the last token, and the only one of its kind.
    obtain rfl | ⟨kinds, last, rfl⟩ := List.eq_nil_or_concat kinds
    · cases h
    rw [List.concat_eq_append, run_append, Option.bind_eq_some_iff] at h
    obtain ⟨middle, hfront, hlast⟩ := h
    simp only [run_cons, run_nil, Option.bind_eq_some_iff, Option.some.injEq] at hlast
    obtain ⟨_, hstep, rfl⟩ := hlast
    obtain rfl := step_eq_finished hstep
    have hmiddle : middle ≠ finished := by
      rintro rfl
      cases hstep
    have hclosed := closed_placed (finish_not_mem hfront hmiddle)
    rw [List.concat_eq_append]
    cases hread : Query.ofTokens (placed (kinds ++ [.finish])) with
    | ok query =>
        obtain ⟨tree, htree, -⟩ := Query.ofTokens_sound hclosed hread
        exact ⟨tree, by rwa [QueryTree.Derives, map_kind_placed] at htree⟩
    | error fault =>
        obtain ⟨taken, rest, last, count, htokens, hrun, hgoing, hnone, -⟩ :=
          Query.ofTokens_halts hread
        have hkinds := congrArg (List.map Token.kind) htokens
        rw [map_kind_placed, List.map_append] at hkinds
        have hall : start.run (kinds ++ [.finish]) = some finished := by
          simp [run_append, hfront, hstep]
        rw [hkinds, run_append, hrun, Option.bind_some] at hall
        cases rest with
        | nil => exact absurd (Option.some.inj hall) hgoing
        | cons token rest =>
            rw [front] at hnone
            simp [hnone] at hall
  · rintro ⟨tree, rfl⟩
    have hderives : tree.Derives (placed (tree.kinds ++ [.finish])) := map_kind_placed _
    have hrun := Query.ofTokens_passes (closed_placed tree.finish_not_mem_kinds)
      (Query.ofTokens_complete hderives)
    rwa [map_kind_placed] at hrun

end Expectation

end StarCube
