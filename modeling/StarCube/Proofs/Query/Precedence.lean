import StarCube.Proofs.Query.Denotation

/-!
Which level a name finds where several levels or hierarchies share it: the first that is declared.
So the finest level of the first hierarchy, for which a dimension by itself stands, is found again
by its name: no coarser level of that hierarchy has the name, and what other hierarchies have comes
later.
-/

namespace StarCube

/-- An element is the first of a list that has a name. -/
structure FirstNamed {α : Type} (name : α → String) (wanted : String) (list : List α) (found : α) :
    Prop where
  name_eq : name found = wanted
  first : ∃ before after, list = before ++ found :: after ∧ ∀ other ∈ before, name other ≠ wanted

/-- The levels of a dimension in the order in which they are declared. -/
def Dimension.levels (dimension : Dimension) : List Level :=
  dimension.hierarchies.flatMap Hierarchy.levels

/-- What a name comes to in a dimension, by itself or within the first hierarchy of another name. -/
inductive Dimension.Yields (dimension : Dimension) (level : String) :
    Option String → Except ReferenceFault Level → Prop
  | found {found : Level} (h : FirstNamed Level.name level dimension.levels found) :
      Yields dimension level none (.ok found)
  | unknown (h : ∀ other ∈ dimension.levels, other.name ≠ level) :
      Yields dimension level none (.error (.unknownLevel dimension.name level none))
  | foundWithin {hierarchy : String} {among : Hierarchy} {found : Level}
      (hamong : FirstNamed Hierarchy.name hierarchy dimension.hierarchies among)
      (h : FirstNamed Level.name level among.levels found) :
      Yields dimension level (some hierarchy) (.ok found)
  | unknownWithin {hierarchy : String} {among : Hierarchy}
      (hamong : FirstNamed Hierarchy.name hierarchy dimension.hierarchies among)
      (h : ∀ other ∈ among.levels, other.name ≠ level) :
      Yields dimension level (some hierarchy)
        (.error (.unknownLevel dimension.name level (some hierarchy)))
  | unknownHierarchy {hierarchy : String}
      (h : ∀ other ∈ dimension.hierarchies, other.name ≠ hierarchy) :
      Yields dimension level (some hierarchy) (.error (.unknownHierarchy dimension.name hierarchy))

section Lookup

variable {α : Type} {name : α → String} {wanted : String} {list : List α}

theorem find?_name_eq_some_iff {found : α} :
    list.find? (name · == wanted) = some found ↔ FirstNamed name wanted list found := by
  rw [List.find?_eq_some_iff_append]
  constructor
  · rintro ⟨hname, before, after, hlist, hbefore⟩
    exact ⟨by simpa using hname, before, after, hlist, by simpa using hbefore⟩
  · rintro ⟨hname, before, after, hlist, hbefore⟩
    exact ⟨by simpa using hname, before, after, hlist, by simpa using hbefore⟩

theorem find?_name_eq_none_iff :
    list.find? (name · == wanted) = none ↔ ∀ other ∈ list, name other ≠ wanted := by
  simp

end Lookup

namespace Dimension

variable {dimension : Dimension} {level : String} {hierarchy : Option String}

theorem findLevel?_eq_find? :
    dimension.findLevel? level = dimension.levels.find? (·.name == level) := by
  rw [levels, List.find?_flatMap]
  rfl

/-- A name comes to something in every dimension. -/
theorem exists_yields (dimension : Dimension) (level : String) (hierarchy : Option String) :
    ∃ outcome, dimension.Yields level hierarchy outcome := by
  cases hierarchy with
  | none =>
      cases hfound : dimension.levels.find? (·.name == level) with
      | none => exact ⟨_, .unknown (find?_name_eq_none_iff.1 hfound)⟩
      | some found => exact ⟨_, .found (find?_name_eq_some_iff.1 hfound)⟩
  | some hierarchy =>
      cases hamong : dimension.hierarchies.find? (·.name == hierarchy) with
      | none => exact ⟨_, .unknownHierarchy (find?_name_eq_none_iff.1 hamong)⟩
      | some among =>
          have hfirst := find?_name_eq_some_iff.1 hamong
          cases hfound : among.levels.find? (·.name == level) with
          | none => exact ⟨_, .unknownWithin hfirst (find?_name_eq_none_iff.1 hfound)⟩
          | some found => exact ⟨_, .foundWithin hfirst (find?_name_eq_some_iff.1 hfound)⟩

/-- What a name comes to is what it is resolved to. -/
theorem Yields.resolveLevel_eq {outcome : Except ReferenceFault Level}
    (h : dimension.Yields level hierarchy outcome) :
    dimension.resolveLevel level hierarchy = outcome := by
  cases h with
  | found h =>
      have hfound := find?_name_eq_some_iff.2 h
      exact resolveLevel_eq_ok_iff.2 (findLevel?_eq_find?.trans hfound)
  | unknown h =>
      have hfound := findLevel?_eq_find?.trans (find?_name_eq_none_iff.2 h)
      simp [resolveLevel, hfound, pure, Except.pure, bind, Except.bind]
  | foundWithin hamong h =>
      have hamong := find?_name_eq_some_iff.2 hamong
      have hfound := find?_name_eq_some_iff.2 h
      exact resolveLevel_eq_ok_iff.2 (Option.bind_eq_some_iff.2 ⟨_, hamong, hfound⟩)
  | @unknownWithin _ among hamong h =>
      have hamong : dimension.hierarchy? _ = some among := find?_name_eq_some_iff.2 hamong
      have hfound : among.level? level = none := find?_name_eq_none_iff.2 h
      simp [resolveLevel, requireHierarchy, hamong, hfound, Except.map, bind, Except.bind]
  | unknownHierarchy h =>
      have hamong : dimension.hierarchy? _ = none := find?_name_eq_none_iff.2 h
      simp [resolveLevel, requireHierarchy, hamong, Except.map, bind, Except.bind]

/-- A name is resolved, or refused, just as what it comes to in the order of declaration. -/
theorem resolveLevel_eq_iff {outcome : Except ReferenceFault Level} :
    dimension.resolveLevel level hierarchy = outcome ↔
      dimension.Yields level hierarchy outcome := by
  constructor
  · rintro rfl
    obtain ⟨outcome, hyields⟩ := exists_yields dimension level hierarchy
    exact hyields.resolveLevel_eq.symm ▸ hyields
  · exact Yields.resolveLevel_eq

/-- The finest level of the first hierarchy is the first of its name in the dimension. -/
theorem Consistent.yields_finest (h : dimension.Consistent) {first : Hierarchy} {finest : Level}
    (hleads : dimension.hierarchies.head? = some first)
    (hends : first.levels.getLast? = some finest) :
    dimension.Yields finest.name none (.ok finest) := by
  obtain ⟨others, hhierarchies⟩ := List.head?_eq_some_iff.1 hleads
  obtain ⟨coarser, hlevels⟩ := List.getLast?_eq_some_iff.1 hends
  have hnodup := (h.hierarchies first (List.mem_of_head? hleads)).nodup_levels
  rw [hlevels, List.map_append, List.nodup_append] at hnodup
  -- What other hierarchies have is declared later, so only the coarser levels could come first.
  have hcoarser : ∀ other ∈ coarser, other.name ≠ finest.name := fun other hother =>
    hnodup.2.2 other.name (List.mem_map_of_mem hother) finest.name (by simp)
  refine .found ⟨rfl, coarser, others.flatMap Hierarchy.levels, ?_, hcoarser⟩
  rw [levels, hhierarchies, List.flatMap_cons, hlevels, List.append_assoc, List.singleton_append]

end Dimension

/-- For every consistent cube, each of its dimensions and every text: where the text is the name of
the dimension alone it refers to the finest level of the first hierarchy by the name of that level,
and the name is resolved to this very level; and the level to which any other text refers is
resolved to the first of its name, or is refused by what there is not. -/
theorem Cube.resolves_first_declared {cube : Cube} (hcube : cube.check = .ok ())
    {dimension : Dimension} (hdimension : dimension ∈ cube.dimensions) (text : String) :
    (MemberReference.parse text = .ok ⟨dimension.name, none, none⟩ →
      ∃ first finest, dimension.hierarchies.head? = some first ∧
        first.levels.getLast? = some finest ∧
        cube.levelRef text = .ok ⟨dimension.name, finest.name, none⟩ ∧
        dimension.resolveLevel finest.name none = .ok finest) ∧
      ∀ name hierarchy level, MemberReference.parse text = .ok ⟨name, hierarchy, some level⟩ →
        cube.levelRef text = .ok ⟨name, level, hierarchy⟩ ∧
          ∀ outcome, dimension.resolveLevel level hierarchy = outcome ↔
            dimension.Yields level hierarchy outcome := by
  have hconsistent := check_eq_ok_iff.1 hcube
  constructor
  · intro hreads
    obtain ⟨finest, hfinest⟩ := (hconsistent.dimensions dimension hdimension).finestLevel_eq_ok
    obtain ⟨first, hleads, hends⟩ := Dimension.finestLevel_eq_ok_iff.1 hfinest
    have hfound := hconsistent.dimension?_eq_some hdimension
    have hdenotes : cube.Denotes text ⟨dimension.name, finest.name, none⟩ :=
      .finest hreads hfound hleads hends
    have hyields := (hconsistent.dimensions dimension hdimension).yields_finest hleads hends
    exact ⟨first, finest, hleads, hends, levelRef_eq_ok_iff.2 hdenotes, hyields.resolveLevel_eq⟩
  · intro name hierarchy level hreads
    exact ⟨levelRef_eq_ok_iff.2 (.level hreads), fun _ => Dimension.resolveLevel_eq_iff⟩

/-- Time, of which three hierarchies share names and columns: two of them are named alike, and the
month of the calendar has its name in common with the fiscal one and its column with the season. -/
def Dimension.seasons : Dimension where
  name := "Time"
  table := "days"
  keyColumn := "day_key"
  nameColumn := "day"
  hierarchies :=
    [⟨"Calendar", [⟨"Year", "year", none⟩, ⟨"Month", "month", none⟩]⟩,
      ⟨"Calendar", [⟨"Day", "day", none⟩]⟩,
      ⟨"Fiscal", [⟨"Season", "month", none⟩, ⟨"Month", "fiscal_month", none⟩]⟩]
  attributes := []

/-- Stays by time. -/
def Cube.stays : Cube where
  name := "Stays"
  description := ""
  factTable := "stays"
  dimensions := [.seasons]
  measures := [⟨"Guests", "guests", .sum, .number, none⟩]
  calculatedMembers := []

/-- Time by itself is the month of the calendar; the fiscal month is found where it is asked for,
and the day is not, since the second calendar is not looked at. -/
theorem Cube.stays_resolves :
    stays.check = .ok () ∧ Dimension.seasons ∈ stays.dimensions ∧
      MemberReference.parse "Time" = .ok ⟨"Time", none, none⟩ ∧
      stays.levelRef "Time" = .ok ⟨"Time", "Month", none⟩ ∧
      Dimension.seasons.resolveLevel "Month" none = .ok ⟨"Month", "month", none⟩ ∧
      MemberReference.parse "Time.Fiscal.Month" = .ok ⟨"Time", some "Fiscal", some "Month"⟩ ∧
      Dimension.seasons.resolveLevel "Month" (some "Fiscal") = .ok ⟨"Month", "fiscal_month", none⟩ ∧
      MemberReference.parse "Time.Calendar.Day" = .ok ⟨"Time", some "Calendar", some "Day"⟩ ∧
      Dimension.seasons.resolveLevel "Day" (some "Calendar") =
        .error (.unknownLevel "Time" "Day" (some "Calendar")) := by
  have hcheck : stays.check = .ok () := by decide +kernel
  have hmem : Dimension.seasons ∈ stays.dimensions := List.mem_singleton_self _
  have hreads {text : String} {reference : MemberReference}
      (h : (MemberReference.parse text).toOption = some reference) :
      MemberReference.parse text = .ok reference := Except.toOption_eq_some_iff.1 h
  have htime : MemberReference.parse "Time" = .ok ⟨"Time", none, none⟩ := hreads (by decide +kernel)
  have hfiscal : MemberReference.parse "Time.Fiscal.Month" =
      .ok ⟨"Time", some "Fiscal", some "Month"⟩ :=
    hreads (by decide +kernel)
  have hday : MemberReference.parse "Time.Calendar.Day" =
      .ok ⟨"Time", some "Calendar", some "Day"⟩ :=
    hreads (by decide +kernel)
  obtain ⟨first, finest, hleads, hends, href, hresolves⟩ :=
    (resolves_first_declared hcheck hmem "Time").1 htime
  obtain rfl := Option.some.inj hleads
  obtain rfl := Option.some.inj hends
  have hcalendar : FirstNamed Hierarchy.name "Calendar" Dimension.seasons.hierarchies
      ⟨"Calendar", [⟨"Year", "year", none⟩, ⟨"Month", "month", none⟩]⟩ :=
    ⟨rfl, [], Dimension.seasons.hierarchies.drop 1, rfl, by decide⟩
  have hlast : FirstNamed Hierarchy.name "Fiscal" Dimension.seasons.hierarchies
      ⟨"Fiscal", [⟨"Season", "month", none⟩, ⟨"Month", "fiscal_month", none⟩]⟩ :=
    ⟨rfl, Dimension.seasons.hierarchies.take 2, [], rfl, by decide⟩
  refine ⟨hcheck, hmem, htime, href, hresolves, hfiscal, ?_, hday, ?_⟩
  · refine (((resolves_first_declared hcheck hmem _).2 _ _ _ hfiscal).2 _).2 (.foundWithin hlast ?_)
    exact ⟨rfl, [⟨"Season", "month", none⟩], [], rfl, by decide⟩
  · exact (((resolves_first_declared hcheck hmem _).2 _ _ _ hday).2 _).2
      (.unknownWithin hcalendar (by decide))

end StarCube
