import LoadGenerator.Proofs.Config.Overrides
import LoadGenerator.Proofs.Json.Truncation

/-!
# Files that are cut off or go on

Every field of a configuration has a default, so a reader that took an object for finished when its
text ends would start a run with wrong numbers. `only_whole_files_load` says that this does not
happen: of the text that is written for a configuration no proper part from its start is a
configuration, and what is put behind it may be nothing but blanks.
-/

namespace LoadGenerator

namespace Json.Schema

variable {σ α β : Type} {s : Schema σ α} {name : String} {get : σ → Option β} {set : σ → β → σ}
  {reader : Reader β} {value : List Char}

theorem CutsMember.ofOption (hnames : (s.fields.map (·.name)).Nodup) (i : Nat)
    (hfield : s.fields[i]? = some (.ofOption name get set reader)) (h : SafelyCut reader value) :
    s.CutsMember (name, value) := by
  intro field draft hfind
  have hname := find?_name_eq hnames (List.mem_of_getElem? hfield)
  cases hname.symm.trans hfind
  exact h.bind

end Json.Schema

namespace FailurePolicy

theorem safelyCut_name (p : FailurePolicy) :
    Json.SafelyCut reader (Json.writeString p.name.toList) := by
  refine Json.safelyCut_variant (b := p) ?_
  cases p <;> decide

end FailurePolicy

namespace Config

open Json

theorem cutsMembers (c : Config) : ∀ member ∈ c.members, schema.CutsMember member := by
  intro member hmember
  simp only [members, List.mem_cons, List.not_mem_nil, or_false] at hmember
  rcases hmember with rfl | rfl | rfl | rfl | rfl
  · exact .ofOption nodup_fields 0 rfl (safelyCut_string _)
  · exact .ofOption nodup_fields 1 rfl (safelyCut_count _)
  · exact .ofOption nodup_fields 2 rfl (safelyCut_count _)
  · exact .ofOption nodup_fields 3 rfl (safelyCut_count _)
  · exact .ofOption nodup_fields 4 rfl c.failurePolicy.safelyCut_name

theorem load_cut {c : Config} {l : Layout} {cut : String} (hcut : cut.toList <+: l.write c.members)
    (hne : cut.toList ≠ l.write c.members) : ∃ inside, load (.ok cut.toUTF8) = .error (.json
      ⟨.endOfText inside, Position.after cut.toList (Text.byteLength cut.toList)⟩) := by
  obtain ⟨inside, h⟩ := decode_cut (c.fills_members.read_cut c.cutsMembers hcut hne)
  refine ⟨inside, ?_⟩
  rw [load_toUTF8, ofJson, h]
  rfl

theorem read_written (c : Config) (l : Layout) (extra : List Char) :
    schema.read (l.write c.members ++ extra) = .ok (c, extra) := by
  have hnone : AllBlank [] := by decide
  exact Schema.read_write c.fills_members (congrArg Except.ok (override_draft {} c)) hnone l

theorem load_extended {c : Config} {l : Layout} {extra : List Char}
    (hextra : ∃ ch ∈ extra, isBlank ch = false) : ∃ position,
      load (.ok (String.ofList (l.write c.members ++ extra)).toUTF8) =
        .error (.json ⟨.trailingCharacters, position⟩) := by
  have hread := c.read_written l extra
  rw [← String.toList_ofList (l := l.write c.members ++ extra)] at hread
  obtain ⟨position, h⟩ := decode_extended hread hextra
  refine ⟨position, ?_⟩
  rw [load_toUTF8, ofJson, h]
  rfl

theorem exists_layout {c : Config} {json : String}
    (h : json ∈ [c.toJson, String.ofList (writePretty c.members)]) :
    ∃ l : Layout, json = String.ofList (l.write c.members) := by
  simp only [List.mem_cons, List.not_mem_nil, or_false] at h
  rcases h with rfl | rfl
  · exact ⟨.compact, by rw [toJson, Layout.write_compact]⟩
  · exact ⟨.pretty, by rw [Layout.write_pretty]⟩

/-- A file that breaks off anywhere inside what is written for a configuration, on one line or with a
line for each member, is refused because it ends, at its end. A file that goes on after it is refused
as well, unless it goes on with nothing but blanks; then it is the same configuration. -/
theorem only_whole_files_load (c : Config) :
    ∀ json ∈ [c.toJson, String.ofList (writePretty c.members)],
      (∀ cut : String, cut.toList <+: json.toList → cut ≠ json →
        ∃ inside, load (.ok cut.toUTF8) = .error (.json
          ⟨.endOfText inside, Position.after cut.toList (Text.byteLength cut.toList)⟩)) ∧
      (∀ extra : String, (∃ ch ∈ extra.toList, isBlank ch = false) → ∃ position,
        load (.ok (json ++ extra).toUTF8) = .error (.json ⟨.trailingCharacters, position⟩)) ∧
      ∀ extra : String, AllBlank extra.toList → load (.ok (json ++ extra).toUTF8) = .ok c := by
  intro json hjson
  obtain ⟨l, rfl⟩ := exists_layout hjson
  have happend : ∀ extra : String, String.ofList (l.write c.members) ++ extra =
      String.ofList (l.write c.members ++ extra.toList) := by
    intro extra
    rw [← String.toList_inj, String.toList_append, String.toList_ofList, String.toList_ofList]
  refine ⟨fun cut hcut hne => ?_, fun extra hextra => ?_, fun extra hextra => ?_⟩
  · rw [String.toList_ofList] at hcut
    refine load_cut hcut fun heq => hne ?_
    rw [← String.toList_inj, heq, String.toList_ofList]
  · rw [happend]
    exact load_extended hextra
  · rw [happend]
    exact load_of_read (c.read_written _ _) hextra

/-- The file breaks off inside a number, goes on with one more brace, or ends with a new line. -/
theorem only_whole_files_load_default :
    (∃ inside position, load (.ok "\x7b\"target\":\"localhost:9000\",\"total_requests\":10".toUTF8) =
        .error (.json ⟨.endOfText inside, position⟩)) ∧
      (∃ position, load (.ok (toJson {} ++ "\n\x7d").toUTF8) =
        .error (.json ⟨.trailingCharacters, position⟩)) ∧
      load (.ok (toJson {} ++ "\n").toUTF8) = .ok {} := by
  obtain ⟨hcut, hextended, hblank⟩ := only_whole_files_load {} (toJson {}) List.mem_cons_self
  refine ⟨?_, hextended "\n\x7d" ⟨'\x7d', by decide +kernel, by decide⟩,
    hblank "\n" (by decide +kernel)⟩
  obtain ⟨inside, h⟩ := hcut "\x7b\"target\":\"localhost:9000\",\"total_requests\":10"
    (by decide +kernel) (by decide +kernel)
  exact ⟨inside, _, h⟩

end Config

end LoadGenerator
