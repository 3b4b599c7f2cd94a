import StarCube.Proofs.Outcome
import StarCube.Proofs.Result.Cells

/-!
Growth of a series. Each point knows the value of the row just before its own, so that the last
points are the same whatever is cut off in front of them.
-/

namespace StarCube

/-- The double that a cell is read as if it is a number or writes one. -/
def Value.double? : Value → Option Binary64
  | .bool b => some (Binary64.ofInt (if b then 1 else 0))
  | .int n => some (Binary64.ofInt n)
  | .float x => some x
  | .decimal (.nan _ true _) => none
  | .decimal d => some (decimalToBinary64 d)
  | .bytes content =>
      (Numeral.ofText? .bytewise (byteCharacters content)).map Numeral.toBinary64
  | .text content => (Numeral.ofText? .textual content.toList).map Numeral.toBinary64
  | .null => none
  | .date _ => none
  | .list _ => none

/-- A cell counts as what it is read as, and as zero if it is no number. -/
theorem Value.toBinary64_eq_ok {value : Value} (h : ¬ ResultTable.Exceeds value) :
    value.toBinary64 = .ok (value.double?.getD Binary64.zero) := by
  cases value with
  | int n =>
      have hfinite : ¬ (Binary64.ofInt n).isInfinite = true :=
        fun hinfinite => h ⟨n, rfl, hinfinite⟩
      exact if_neg hfinite
  | decimal d =>
      cases d with
      | nan negative signaling payload => cases signaling <;> rfl
      | _ => rfl
  | _ => rfl

/-- The points of a series: one for each row, with the value before it, which is zero for the first,
and the growth from there, which is zero where it would be growth from zero. -/
structure Grows (rows : List (Value × Value)) (points : List GrowthPoint) : Prop where
  periods : points.map GrowthPoint.period = rows.map Prod.fst
  currents : points.map GrowthPoint.current =
    rows.map fun row => row.2.double?.getD Binary64.zero
  previous : points.map GrowthPoint.previous =
    (Binary64.zero :: points.map GrowthPoint.current).dropLast
  rates : ∀ point ∈ points, point.rate =
    if point.previous.isZero then Binary64.zero
    else ((point.current - point.previous) / point.previous * Binary64.ofInt 100).roundPlaces 2

/-- The last points of a series, by how many are asked for. -/
structure Latest (points : List GrowthPoint) (latest : Nat → List GrowthPoint) : Prop where
  length : ∀ count, (latest count).length = min points.length count
  ends : ∀ count, latest count <:+ points
  grows : ∀ fewer more, fewer ≤ more → latest fewer <:+ latest more

namespace GrowthPoint

variable {rows : List (Value × Value)}

theorem series_cons_eq_ok {row : Value × Value} {first current : Binary64}
    {points : List GrowthPoint}
    (hcurrent : row.2.toBinary64 = .ok current) (hpoints : series current rows = .ok points) :
    series first (row :: rows) = .ok (⟨row.1, current, first, rateOf first current⟩ :: points) := by
  obtain ⟨period, value⟩ := row
  exact Except.bind_eq_ok_iff.2
    ⟨current, hcurrent, Except.bind_eq_ok_iff.2 ⟨points, hpoints, rfl⟩⟩

theorem series_eq_ok (h : ∀ row ∈ rows, ¬ ResultTable.Exceeds row.2) (first : Binary64) :
    ∃ points, series first rows = .ok points ∧
      points.map period = rows.map Prod.fst ∧
      points.map current = rows.map (fun row => row.2.double?.getD Binary64.zero) ∧
      points.map previous = (first :: points.map current).dropLast ∧
      ∀ point ∈ points, point.rate = rateOf point.previous point.current := by
  induction rows generalizing first with
  | nil => exact ⟨[], rfl, rfl, rfl, rfl, by simp⟩
  | cons row rest ih =>
      rw [List.forall_mem_cons] at h
      obtain ⟨points, hpoints, hperiods, hcurrents, hprevious, hrates⟩ :=
        ih h.2 (row.2.double?.getD Binary64.zero)
      refine ⟨_, series_cons_eq_ok (Value.toBinary64_eq_ok h.1) hpoints, ?_, ?_, ?_, ?_⟩
      · rw [List.map_cons, List.map_cons, hperiods]
      · rw [List.map_cons, List.map_cons, hcurrents]
      · rw [List.map_cons, List.map_cons, hprevious, List.dropLast_cons_cons]
      · exact List.forall_mem_cons.2 ⟨rfl, hrates⟩

theorem latest_latest (points : List GrowthPoint) :
    Latest points fun count => latest count points := by
  refine ⟨fun count => ?_, fun count => List.drop_suffix _ points, fun fewer more hle => ?_⟩
  · rw [latest, List.length_drop]
    omega
  · have hdrop : latest fewer points = (latest more points).drop
        ((points.length - fewer) - (points.length - more)) := by
      rw [latest, latest, List.drop_drop]
      congr 1
      omega
    show latest fewer points <:+ latest more points
    rw [hdrop]
    exact List.drop_suffix _ _

end GrowthPoint

/-- The growth over the last points of one series is computed if its values are in the range of
doubles. -/
theorem ResultTable.growth_eq_ok {table : ResultTable}
    (h : ∀ row ∈ table.series, ¬ Exceeds row.2) :
    ∃ points, Grows table.series points ∧
      ∀ count, table.growth count = .ok (GrowthPoint.latest count points) := by
  obtain ⟨points, hpoints, hperiods, hcurrents, hprevious, hrates⟩ :=
    GrowthPoint.series_eq_ok h Binary64.zero
  refine ⟨points, ⟨hperiods, hcurrents, hprevious, hrates⟩, fun count => ?_⟩
  rw [growth, hpoints]
  rfl

end StarCube
