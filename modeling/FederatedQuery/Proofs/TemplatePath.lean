import FederatedQuery.Proofs.Computation
import FederatedQuery.Proofs.Value.Path
import FederatedQuery.TemplatePath

/-! Following template paths. What stands for the segments of a template path is joined to a path,
and that path is cut into segments again. It leads where the segments lead one after the other, a
placeholder along the whole path in its entry.
-/

namespace FederatedQuery

namespace TemplatePath

/-- The segment is a placeholder for an entry: a dollar sign and a numeral of the entry's index,
which has to fit in an unsigned word.
-/
structure AsksFor (segment : String) (index : Nat) : Prop where
  fits : index < Word.limit
  written : ∃ numeral, Text.IsNumeral numeral index ∧ segment.toList = '$' :: numeral

theorem placeholder?_eq_some_iff {segment : String} {index : Nat}
    : placeholder? segment = some index ↔ AsksFor segment index := by
  unfold placeholder?
  split
  · next digits marked =>
    rw [Text.word?, Option.filter_eq_some_iff, Text.natural?_eq_some_iff]
    constructor
    · intro read
      obtain ⟨numeral, fits⟩ := read
      exact ⟨by simpa using fits, digits, numeral, marked⟩
    · intro asks
      obtain ⟨fits, numeral, spelled, written⟩ := asks
      have same : digits = numeral := (List.cons.inj (marked.symm.trans written)).2
      exact ⟨same ▸ spelled, by simpa using fits⟩
  · next unmarked =>
    constructor
    · nofun
    · intro asks
      obtain ⟨_, numeral, _, written⟩ := asks
      exact absurd written (unmarked numeral)

theorem AsksFor.unique {segment : String} {index other : Nat} (asks : AsksFor segment index)
    (asksOther : AsksFor segment other)
    : index = other := by
  rw [← placeholder?_eq_some_iff] at asks asksOther
  exact Option.some.inj (asks.symm.trans asksOther)

theorem substitute_eq_some_iff {template : Template} {segment piece : String}
    : substitute template segment = some piece
      ↔ (∃ index, AsksFor segment index ∧ template[index]? = some piece)
        ∨ (∀ index, ¬AsksFor segment index) ∧ piece = segment := by
  simp only [← placeholder?_eq_some_iff, substitute]
  cases placeholder? segment with
  | none => simp [eq_comm]
  | some index => simp

theorem substitute_eq_none_iff {template : Template} {segment : String}
    : substitute template segment = none
      ↔ ∃ index, AsksFor segment index ∧ template.length ≤ index := by
  simp only [← placeholder?_eq_some_iff, substitute]
  cases placeholder? segment with
  | none => simp
  | some index => simp

/-- Nothing but an empty text stands for an empty text. -/
theorem ne_empty_of_substitute {template : Template} (named : ∀ entry ∈ template, entry ≠ "")
    {segment piece : String} (written : segment ≠ "")
    (substituted : substitute template segment = some piece)
    : piece ≠ "" := by
  rcases substitute_eq_some_iff.mp substituted with ⟨index, _, listed⟩ | ⟨_, same⟩
  · exact named piece (List.mem_of_getElem? listed)
  · exact same ▸ written

/-- The pieces stand for the segments, one for each. -/
abbrev StandFor (template : Template) (segments pieces : List String) : Prop :=
  List.Forall₂ (fun segment piece => substitute template segment = some piece) segments pieces

theorem resolve_eq_some_iff {path resolved : String} {template : Template}
    : resolve path template = some resolved
      ↔ ∃ pieces,
          StandFor template (Text.split '.' path) pieces
          ∧ String.intercalate "." pieces = resolved := by
  simp only [resolve, Option.map_eq_some_iff, mapM_eq_some_iff]

theorem resolve_eq_none_iff {path : String} {template : Template}
    : resolve path template = none
      ↔ ∃ segment ∈ Text.split '.' path,
          ∃ index, AsksFor segment index ∧ template.length ≤ index := by
  simp only [resolve, Option.map_eq_none_iff, mapM_eq_none_iff, substitute_eq_none_iff]

/-- A segment of a template path leads from one value to another: a placeholder along the whole
path in its entry, and any other segment by one step.
-/
inductive Leads (template : Template) (segment : String) (value next : Value) : Prop where
  | placeholder {index : Nat} {entry : String} (asks : AsksFor segment index)
      (listed : template[index]? = some entry) (followed : value.at? entry = some next)
      : Leads template segment value next
  | literal (plain : ∀ index, ¬AsksFor segment index) (steps : value.StepsTo segment next)
      : Leads template segment value next

/-- The segments of a template path lead from one value to another, one after the other. -/
inductive LeadsAlong (template : Template) : List String → Value → Value → Prop where
  | nil (value : Value) : LeadsAlong template [] value value
  | cons {segment : String} {rest : List String} {value next found : Value}
      (first : Leads template segment value next)
      (further : LeadsAlong template rest next found)
      : LeadsAlong template (segment :: rest) value found

section

variable {template : Template} {segment : String} {value next found : Value}

/-- A placeholder leads along the path in its entry, and nowhere else. -/
theorem AsksFor.leads_iff {index : Nat} {entry : String} (asks : AsksFor segment index)
    (listed : template[index]? = some entry)
    : Leads template segment value next ↔ value.at? entry = some next := by
  constructor
  · intro leads
    cases leads with
    | placeholder again found followed =>
        have same := (asks.unique again ▸ listed).symm.trans found
        exact Option.some.inj same ▸ followed
    | literal plain _ => exact absurd asks (plain index)
  · exact .placeholder asks listed

theorem leads_iff_of_not_asksFor (plain : ∀ index, ¬AsksFor segment index)
    : Leads template segment value next ↔ value.StepsTo segment next := by
  constructor
  · intro leads
    cases leads with
    | placeholder asks _ _ => exact absurd asks (plain _)
    | literal _ steps => exact steps
  · exact .literal plain

theorem leadsAlong_nil_iff : LeadsAlong template [] value found ↔ value = found := by
  constructor
  · intro leads
    cases leads
    rfl
  · intro same
    exact same ▸ .nil value

theorem leadsAlong_cons_iff {rest : List String}
    : LeadsAlong template (segment :: rest) value found
      ↔ ∃ next, Leads template segment value next ∧ LeadsAlong template rest next found := by
  constructor
  · intro leads
    cases leads with
    | cons first further => exact ⟨_, first, further⟩
  · intro leads
    obtain ⟨next, first, further⟩ := leads
    exact .cons first further

variable (named : ∀ entry ∈ template, entry ≠ "")

include named

/-- What stands for a segment leads where the segment leads. -/
theorem follow_substituted_iff {piece : String} (whole : '.' ∉ segment.toList)
    (substituted : substitute template segment = some piece)
    : Value.follow (Text.split '.' piece) value = some next
      ↔ Leads template segment value next := by
  rcases substitute_eq_some_iff.mp substituted with ⟨index, asks, listed⟩ | ⟨plain, same⟩
  · have written : piece ≠ "" := named piece (List.mem_of_getElem? listed)
    rw [asks.leads_iff listed, Value.at?, Path.segments, if_neg written]
  · have single : Value.follow [segment] value = value.step segment := by simp [Value.follow]
    rw [same, Text.split_of_not_mem whole, single, leads_iff_of_not_asksFor plain,
      Value.step_eq_some_iff]

/-- What stands for segments leads where the segments lead, by induction on them. -/
theorem follow_flatMap_iff_leadsAlong {segments pieces : List String}
    (whole : ∀ segment ∈ segments, '.' ∉ segment.toList)
    (standing : StandFor template segments pieces)
    : Value.follow (pieces.flatMap (Text.split '.')) value = some found
      ↔ LeadsAlong template segments value found := by
  induction standing generalizing value with
  | nil =>
      rw [leadsAlong_nil_iff]
      simp [Value.follow]
  | @cons segment piece segments pieces first _ ih =>
      have firstWhole : '.' ∉ segment.toList := whole segment List.mem_cons_self
      have restWhole : ∀ segment ∈ segments, '.' ∉ segment.toList :=
        fun segment inside => whole segment (List.mem_cons_of_mem _ inside)
      rw [List.flatMap_cons, Value.follow_append, Option.bind_eq_some_iff, leadsAlong_cons_iff]
      simp only [follow_substituted_iff named firstWhole first, ih restWhole]

/-- The segments of the path that a template makes of a path, which is not empty, are those of all
that stands for the segments of that path.
-/
theorem segments_of_standFor {path : String} (written : path ≠ "") {pieces : List String}
    (standing : StandFor template (Text.split '.' path) pieces)
    : Path.segments (String.intercalate "." pieces) = pieces.flatMap (Text.split '.') := by
  apply Path.segments_intercalate
  · intro none
    rw [none, StandFor, List.forall₂_nil_right_iff] at standing
    exact Text.split_ne_nil path standing
  · intro blank
    rw [blank, StandFor, List.forall₂_cons_right_iff] at standing
    obtain ⟨segment, rest, first, further, split⟩ := standing
    rw [List.forall₂_nil_right_iff.mp further] at split
    have alone : segment = path := by
      have restored := Text.intercalate_split '.' path
      rwa [split, String.intercalate_singleton] at restored
    exact ne_empty_of_substitute named (alone ▸ written) first rfl

end

/-- The path that a template makes of a template path leads to a value exactly if the segments of
the template path lead there one after the other. There is such a path unless a placeholder points
past the end of the template. A path that is put together of two is followed by following one and
then the other.
-/
theorem resolve_leads {path : String} {template : Template} (written : path ≠ "")
    (named : ∀ entry ∈ template, entry ≠ "")
    : (∀ resolved,
        resolve path template = some resolved
        → ∀ value found : Value,
            value.at? resolved = some found
            ↔ LeadsAlong template (Text.split '.' path) value found)
      ∧ (resolve path template = none
        ↔ ∃ segment ∈ Text.split '.' path,
            ∃ index, AsksFor segment index ∧ template.length ≤ index)
      ∧ ∀ first second : String,
          first ≠ ""
          → second ≠ ""
          → ∀ value : Value,
              value.at? (first ++ "." ++ second)
              = (value.at? first).bind fun next => next.at? second := by
  refine ⟨?_, resolve_eq_none_iff, fun _ _ => Value.at?_append⟩
  intro resolved made value found
  obtain ⟨pieces, standing, joined⟩ := resolve_eq_some_iff.mp made
  rw [← joined, Value.at?, segments_of_standFor named written standing]
  exact follow_flatMap_iff_leadsAlong named (fun _ => Text.not_mem_of_mem_split) standing

/-- An entry of two segments, one of them an index, stands for one placeholder. A dollar sign alone
and one in front of too great a number are keys like any other.
-/
theorem resolve_leads_dottedEntry
    : let path := "shape.$01.$.$18446744073709551616.$0"
      let template : Template := ["name", "sizes.+1"]
      let label : Value := .object [("name", .string "L")]
      let size : Value := .object [("$", .object [("$18446744073709551616", label)])]
      let value : Value := .object [("shape", .object [("sizes", .array [.null, size])])]
      (path ≠ "" ∧ ∀ entry ∈ template, entry ≠ "")
      ∧ (resolve path template = some "shape.sizes.+1.$.$18446744073709551616.name"
        ∧ LeadsAlong template (Text.split '.' path) value (.string "L"))
      ∧ "shape.sizes" ≠ ""
      ∧ "+1" ≠ ""
      ∧ value.at? ("shape.sizes" ++ "." ++ "+1") = some size := by
  intro path template label size value
  have written : path ≠ "" := by decide
  have entries : ∀ entry ∈ template, entry ≠ "" := by decide
  have made : resolve path template = some "shape.sizes.+1.$.$18446744073709551616.name" := by
    decide +kernel
  obtain ⟨leads, _, append⟩ := resolve_leads written entries
  refine ⟨⟨written, entries⟩, ⟨made, ?_⟩, by decide, by decide, ?_⟩
  · exact (leads _ made value _).mp (by decide +kernel)
  · rw [append "shape.sizes" "+1" (by decide) (by decide) value]
    decide +kernel

end TemplatePath

end FederatedQuery
