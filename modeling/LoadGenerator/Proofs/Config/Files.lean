import LoadGenerator.Config
import LoadGenerator.Proofs.Json.Objects
import LoadGenerator.Summary

/-!
# Files read back

What is written for a configuration or for a snapshot of the counters names every field, so reading
it fills the whole draft and no default is left in it: `written_files_read_back` says that both are
read back as they were, from either layout.
-/

namespace LoadGenerator

namespace FailurePolicy

theorem spells_name (p : FailurePolicy) :
    Json.Spells reader (Json.writeString p.name.toList) p := by
  refine Json.spells_variant ?_
  cases p <;> decide

end FailurePolicy

namespace Config

/-- The draft that names every field. -/
def draft (c : Config) : Draft where
  target := some c.target
  totalRequests := some c.totalRequests
  concurrency := some c.concurrency
  queueCapacityMultiplier := some c.queueCapacityMultiplier
  failurePolicy := some c.failurePolicy

theorem override_draft (defaults c : Config) : defaults.override c.draft = c :=
  rfl

theorem nodup_fields : (schema.fields.map (·.name)).Nodup := by
  decide

theorem fills_members (c : Config) : schema.Fills schema.empty c.members c.draft := by
  refine .cons (.ofOption nodup_fields 0 rfl rfl (Json.spells_string _)) ?_
  refine .cons (.ofOption nodup_fields 1 rfl rfl (Json.spells_count _)) ?_
  refine .cons (.ofOption nodup_fields 2 rfl rfl (Json.spells_count _)) ?_
  refine .cons (.ofOption nodup_fields 3 rfl rfl (Json.spells_count _)) ?_
  refine .cons (.ofOption nodup_fields 4 rfl rfl c.failurePolicy.spells_name) ?_
  exact .nil

theorem ofJson_write (c : Config) (l : Json.Layout) :
    ofJson (String.ofList (l.write c.members)) = .ok c :=
  Json.Schema.decode_write c.fills_members (congrArg Except.ok (override_draft {} c)) l

/-- The text of a file is found in its bytes. -/
theorem load_toUTF8 (text : String) : load (.ok text.toUTF8) = (ofJson text).mapError .json := by
  have htext : String.fromUTF8? text.toUTF8 = some text := by
    unfold String.fromUTF8?
    exact dif_pos text.isValidUTF8
  unfold load
  simp only [htext]

end Config

namespace Snapshot

/-- The draft that names every field. -/
def draft (s : Snapshot) : Draft where
  successes := some s.successes
  failures := some s.failures
  transportErrors := some s.transportErrors

theorem ofDraft_draft (s : Snapshot) : ofDraft s.draft = .ok s :=
  rfl

theorem nodup_fields : (schema.fields.map (·.name)).Nodup := by
  decide

theorem fills_members (s : Snapshot) : schema.Fills schema.empty s.members s.draft := by
  refine .cons (.ofOption nodup_fields 0 rfl rfl (Json.spells_count _)) ?_
  refine .cons (.ofOption nodup_fields 1 rfl rfl (Json.spells_count _)) ?_
  refine .cons (.ofOption nodup_fields 2 rfl rfl (Json.spells_count _)) ?_
  exact .nil

theorem ofJson_write (s : Snapshot) (l : Json.Layout) :
    ofJson (String.ofList (l.write s.members)) = .ok s :=
  Json.Schema.decode_write s.fills_members s.ofDraft_draft l

end Snapshot

/-- A configuration, and a snapshot of the counters, is read back from what is written for it on one
line and with a line for each member. -/
theorem written_files_read_back :
    (∀ c : Config, Config.load (.ok c.toJson.toUTF8) = .ok c ∧
      Config.ofJson (String.ofList (Json.writePretty c.members)) = .ok c) ∧
    ∀ s : Snapshot, Snapshot.ofJson s.toJson = .ok s ∧
      Snapshot.ofJson (String.ofList (Json.writePretty s.members)) = .ok s := by
  constructor
  · intro c
    rw [Config.load_toUTF8, Config.toJson, ← Json.Layout.write_compact, ← Json.Layout.write_pretty,
      c.ofJson_write, c.ofJson_write]
    exact ⟨rfl, rfl⟩
  · intro s
    rw [Snapshot.toJson, ← Json.Layout.write_compact, ← Json.Layout.write_pretty]
    exact ⟨s.ofJson_write _, s.ofJson_write _⟩

end LoadGenerator
