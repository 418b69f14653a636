import JitLens.Proofs.Text.Lines
import JitLens.Proofs.Text.Utf8
import JitLens.Proofs.Yaml.RoundTrip
import JitLens.Settings.Store
/-!
# The settings document

The text of a settings file holds every field, and its content reads back as the settings that it
was written from.
-/

namespace JitLens

open Files

namespace Text

theorem unifyLineEnds_eq_self {cs : List Char} (hcs : Yaml.AllWritten cs) :
    unifyLineEnds cs = cs := by
  apply unifyLineEnds_of_notMem
  intro hmem
  rcases hcs _ hmem with hnewline | hplain
  · exact absurd hnewline (by decide)
  · exact absurd hplain (by decide)

end Text

namespace Field

theorem keyName_name (f : Field) : Yaml.KeyName f.name := by
  apply Yaml.KeyName.of_all
  cases f with
  | flag f => cases f <;> decide +kernel
  | text f => cases f <;> decide +kernel
  | optional f => cases f <;> decide +kernel
  | _ => decide +kernel

end Field

namespace Settings

theorem field_lookup (s : Settings) (f : Field) : (s.lookup f).field = f := by
  cases f with
  | flag f => cases f <;> rfl
  | text f => cases f <;> rfl
  | optional f => cases f <;> rfl
  | _ => rfl

/-- The entries of the settings document. -/
def entries (s : Settings) : List (String × Leaf) :=
  sortedFields.map fun f => (f.name, (s.lookup f).leaf)

theorem names_entries (s : Settings) :
    s.entries.map Prod.fst = sortedFields.map Field.name := by
  rw [entries, List.map_map]
  rfl

theorem keyName_of_mem_entries {s : Settings} {e : String × Leaf} (he : e ∈ s.entries) :
    Yaml.KeyName e.1 := by
  obtain ⟨f, -, rfl⟩ := List.mem_map.1 he
  exact f.keyName_name

/-- The document is read as a mapping of the fields to their values. -/
theorem read_document (s : Settings) :
    Yaml.read s.document = .ok (.map (s.entries.map Yaml.entryValue)) := by
  have hne : s.entries ≠ [] := by simp [entries, sortedFields]
  have hnodup : (s.entries.map Prod.fst).Nodup := by
    rw [names_entries]
    decide +kernel
  exact Yaml.read_write hne (fun e he => keyName_of_mem_entries he) hnodup

theorem allWritten_document (s : Settings) : Yaml.AllWritten s.document :=
  Yaml.allWritten_write fun _ he => keyName_of_mem_entries he

/-! ## Entries as settings -/

/-- Entries of fields set these fields, one after the other. -/
theorem setEntries_lookup (s t : Settings) (fields : List Field) :
    t.setEntries (fields.map fun f => (.text f.name, (s.lookup f).value)) =
      ([], .ok (fields.foldl (fun t f => t.update (s.lookup f)) t)) := by
  induction fields generalizing t with
  | nil => rfl
  | cons f fields ih =>
      have hcheck : f.check (s.lookup f).value = .ok (s.lookup f) := by
        have hvalue := (s.lookup f).check_value
        rwa [field_lookup] at hvalue
      rw [List.map_cons, setEntries]
      simp only [Field.ofName?_name, hcheck]
      exact ih _

/-- Settings all of whose fields are set have nothing left of what they were before. -/
theorem foldl_update_lookup (s t : Settings) :
    sortedFields.foldl (fun t f => t.update (s.lookup f)) t = s := by
  simp only [sortedFields, List.foldl_cons, List.foldl_nil, lookup, update]

theorem setEntries_entries (s t : Settings) :
    t.setEntries (s.entries.map Yaml.entryValue) = ([], .ok s) := by
  have hfields := setEntries_lookup s t sortedFields
  rw [foldl_update_lookup] at hfields
  rw [entries, List.map_map]
  exact hfields

theorem readEntries_document (s : Settings) (path : Path) :
    readEntries path (Text.encode s.document) = .ok (s.entries.map Yaml.entryValue) := by
  rw [readEntries, Text.decode_encode]
  simp only [Text.unifyLineEnds_eq_self s.allWritten_document, read_document]

/-- The content of a settings file gives its settings, and no warning. -/
theorem ofContent_document (s : Settings) (path : Path) :
    ofContent path (Text.encode s.document) = (pure s : Action Settings) := by
  have hentries : ofEntries (s.entries.map Yaml.entryValue) = ([], .ok s) :=
    setEntries_entries s {}
  rw [ofContent, readEntries_document]
  simp only [Action.ofExcept, pure_bind, hentries]
  rfl

end Settings
end JitLens
