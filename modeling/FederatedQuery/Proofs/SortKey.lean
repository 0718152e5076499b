import FederatedQuery.Proofs.Computation
import FederatedQuery.Proofs.Text.Blank
import FederatedQuery.SortKey

/-! Sort specifiers, read and written. The text behind the last `@` is the direction, so a written
key is read back whatever its path holds, as long as the path is trimmed and not empty.
-/

namespace FederatedQuery

theorem Direction.ofText?_eq_some_iff {name : String} {direction : Direction}
    : ofText? name = some direction ↔ name = direction.text := by
  unfold ofText?
  split_ifs with asc desc <;> cases direction <;> simp_all [text]

/-- No direction's name holds an `@`. -/
theorem Direction.not_mem_text (direction : Direction) : '@' ∉ direction.text.toList := by
  cases direction <;> decide

namespace SortKey

/-- A specifier says a path and a direction by putting an `@` between them, or the direction is left
out together with the `@`.
-/
theorem parts?_eq_some_iff {specifier path : List Char} {direction : Direction}
    : parts? specifier = some (path, direction)
      ↔ specifier = path ++ '@' :: direction.text.toList
        ∨ '@' ∉ specifier ∧ path = specifier ∧ direction = .asc := by
  have written : specifier = path ++ '@' :: direction.text.toList
      ↔ Text.cutLast '@' specifier = some (path, direction.text.toList) := by
    simp [Text.cutLast_eq_some_iff, direction.not_mem_text]
  rw [written, ← Text.cutLast_eq_none_iff, parts?]
  cases Text.cutLast '@' specifier with
  | none => simp [eq_comm]
  | some cut =>
      obtain ⟨before, after⟩ := cut
      simpa [Direction.ofText?_eq_some_iff, ← String.toList_inj] using and_comm

/-- A specifier is read as the direction that it says and as the path that is left of what it says
without the blanks around it, which must be something.
-/
theorem parse_eq_ok_iff {specifier : String} {key : SortKey}
    : parse specifier = .ok key
      ↔ ∃ path,
          parts? specifier.toList = some (path, key.direction)
          ∧ Text.trim path = key.path.toList
          ∧ key.path ≠ "" := by
  unfold parse
  cases said : parts? specifier.toList with
  | none => simp
  | some parts =>
      obtain ⟨path, direction⟩ := parts
      obtain ⟨kept, asked⟩ := key
      simp only [List.isEmpty_iff]
      split_ifs with blank
      · have left : Text.trim path = kept.toList → kept = "" := by
          intro same
          exact String.toList_eq_nil_iff.mp (same ▸ blank)
        simpa using fun _ => left
      · constructor
        · intro read
          cases read
          exact ⟨path, rfl, String.toList_ofList.symm, by simpa using blank⟩
        · intro parted
          obtain ⟨_, same, trimmed, _⟩ := parted
          cases same
          rw [trimmed, String.ofList_toList]

/-- A specifier is read if the text behind its last `@`, where it has one, is a direction, and if
what is left of it is not blank.
-/
theorem succeeds_parse_iff {specifier : String}
    : Succeeds (parse specifier)
      ↔ ∃ path,
          (∃ c ∈ path, Text.isBlank c = false)
          ∧ ('@' ∉ specifier.toList ∧ path = specifier.toList
            ∨ ∃ direction,
                specifier.toList = path ++ '@' :: direction
                ∧ '@' ∉ direction
                ∧ (direction = "asc".toList ∨ direction = "desc".toList)) := by
  have nonblank (path : List Char)
      : (∃ c ∈ path, Text.isBlank c = false) ↔ Text.trim path ≠ [] := by
    simp [Text.trim_eq_nil_iff]
  simp only [Succeeds, parse_eq_ok_iff, nonblank]
  constructor
  · intro read
    obtain ⟨key, path, said, trimmed, nonempty⟩ := read
    refine ⟨path, by rwa [trimmed, ne_eq, String.toList_eq_nil_iff], ?_⟩
    rcases parts?_eq_some_iff.mp said with same | ⟨absent, same, _⟩
    · refine Or.inr ⟨key.direction.text.toList, same, key.direction.not_mem_text, ?_⟩
      cases key.direction with
      | asc => exact Or.inl rfl
      | desc => exact Or.inr rfl
    · exact Or.inl ⟨absent, same⟩
  · intro written
    obtain ⟨path, nonempty, shape⟩ := written
    have said : ∃ direction, parts? specifier.toList = some (path, direction) := by
      simp only [parts?_eq_some_iff]
      rcases shape with ⟨absent, same⟩ | ⟨_, same, _, rfl | rfl⟩
      · exact ⟨.asc, Or.inr ⟨absent, same, rfl⟩⟩
      · exact ⟨.asc, Or.inl same⟩
      · exact ⟨.desc, Or.inl same⟩
    obtain ⟨direction, said⟩ := said
    refine ⟨⟨String.ofList (Text.trim path), direction⟩, path, said, ?_, ?_⟩
    · exact String.toList_ofList.symm
    · simpa using nonempty

/-- Reading the written key gives the key back if its path is trimmed and not empty. -/
theorem parse_text_eq_ok_iff {key : SortKey}
    : parse key.text = .ok key ↔ key.path ≠ "" ∧ Text.Trimmed key.path.toList := by
  have said : parts? key.text.toList = some (key.path.toList, key.direction) := by
    refine parts?_eq_some_iff.mpr (Or.inl ?_)
    simp [text]
  rw [parse_eq_ok_iff, ← Text.trim_eq_self_iff, and_comm]
  simp [said]

/-- A key that is read from a specifier has a trimmed path that is not empty, and it is read back
from the specifier that it is written as. Keys with such a path, and no others, are read back. A
specifier is read if a direction follows its last `@`, where it has one, and the rest is not blank.
-/
theorem parse_text (specifier : String) (key : SortKey)
    : (parse specifier = .ok key
        → key.path ≠ "" ∧ Text.Trimmed key.path.toList ∧ parse key.text = .ok key)
      ∧ (parse key.text = .ok key ↔ key.path ≠ "" ∧ Text.Trimmed key.path.toList)
      ∧ (Succeeds (parse specifier)
        ↔ ∃ path,
            (∃ c ∈ path, Text.isBlank c = false)
            ∧ ('@' ∉ specifier.toList ∧ path = specifier.toList
              ∨ ∃ direction,
                  specifier.toList = path ++ '@' :: direction
                  ∧ '@' ∉ direction
                  ∧ (direction = "asc".toList ∨ direction = "desc".toList))) := by
  refine ⟨fun read => ?_, parse_text_eq_ok_iff, succeeds_parse_iff⟩
  obtain ⟨path, _, trimmed, nonempty⟩ := parse_eq_ok_iff.mp read
  have kept : Text.Trimmed key.path.toList := trimmed ▸ Text.trimmed_trim path
  exact ⟨nonempty, kept, parse_text_eq_ok_iff.mpr ⟨nonempty, kept⟩⟩

/-- A path that looks like a specifier is a path as long as a direction follows. -/
theorem parse_text_descendingSpecifier
    : let key : SortKey := ⟨"a b@asc", .desc⟩
      parse "\u2003a b@asc @desc" = .ok key
      ∧ (key.path ≠ "" ∧ Text.Trimmed key.path.toList ∧ parse key.text = .ok key)
      ∧ key.text = "a b@asc@desc" := by
  intro key
  have read : parse "\u2003a b@asc @desc" = .ok key := by decide +kernel
  exact ⟨read, (parse_text _ key).1 read, by decide +kernel⟩

end SortKey

end FederatedQuery
