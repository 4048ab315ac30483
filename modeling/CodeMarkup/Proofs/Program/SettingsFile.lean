import CodeMarkup.Proofs.Page.ClassAttribute
import CodeMarkup.Proofs.Program.Run
import CodeMarkup.Proofs.Toml.Reader

/-!
# Settings are read back

Settings are written as a TOML document of a comment, an empty line and a line for each setting.
Whatever the lead, the document is read back with both values; then a lead that could break out of a
class attribute gives way to the default one.  Settings that were read before have no such lead, so
writing and reading them again changes nothing.

* `Settings.accepted` — what remains of settings that are written and read.
* `Settings.read?_toToml` — the table that a settings file holds.
* `Settings.save_eq_ok_iff` — when settings are saved, and what the settings file is then.
* `Settings.restored_of_save` — settings that have been saved are loaded again.
* `Settings.written_settings_restored` — settings are restored.
-/

namespace CodeMarkup.Settings

open Toml

variable {settings : Settings}

/-- What remains of settings that are written and read: a lead that is not valid gives way to the
default one. -/
def accepted (settings : Settings) : Settings where
  highlight := settings.highlight
  lead := if isValidLead settings.lead then settings.lead else TokenClass.defaultLead

/-! ## The document -/

theorem isBareKey_lead : IsBareKey "class-prefix".toList :=
  ⟨by decide, List.all_eq_true.1 (by decide)⟩

theorem isBareKey_highlight : IsBareKey "highlight".toList :=
  ⟨by decide, List.all_eq_true.1 (by decide)⟩

/-- The keys and values of a settings file. -/
def pairs (settings : Settings) : List Pair :=
  [⟨"class-prefix".toList, _, _, isBareKey_lead, isWritten_write settings.lead⟩,
    ⟨"highlight".toList, _, _, isBareKey_highlight, isWritten_boolean settings.highlight⟩]

/-- The entries of a settings file. -/
def entries (settings : Settings) : Table :=
  [("class-prefix".toList, .string settings.lead),
    ("highlight".toList, .boolean settings.highlight)]

theorem toToml_eq (settings : Settings) :
    settings.toToml = heading ++ settings.pairs.flatMap Pair.line := by
  rw [toToml, pairs, List.flatMap_cons, List.flatMap_cons, List.flatMap_nil, List.append_nil]
  rfl

theorem heading_append (rest : List Char) :
    heading ++ rest = '#' :: (" dochl configuration".toList ++ '\n' :: '\n' :: rest) := rfl

/-- The heading is a comment and an empty line. -/
theorem readLines?_heading (fuel : Nat) (layout : Layout) (rest : List Char) :
    readLines? (fuel + 2) layout (heading ++ rest) = readLines? fuel layout rest := by
  have hcomment : ∀ c ∈ " dochl configuration".toList, isTextChar c = true :=
    List.all_eq_true.1 (by decide)
  rw [heading_append, readLines?_comment hcomment, readLines?_blank]

theorem map_entry_pairs (settings : Settings) :
    settings.pairs.map Pair.entry = settings.entries := rfl

theorem map_key_pairs (settings : Settings) :
    settings.pairs.map Pair.key = ["class-prefix".toList, "highlight".toList] := rfl

/-- One round for each line and one for the end are enough. -/
theorem readLines?_toToml (settings : Settings) (fuel : Nat) :
    readLines? (fuel + 5) {} settings.toToml = some settings.entries := by
  have hkeys : (settings.pairs.map Pair.key).Nodup := by
    rw [map_key_pairs]
    decide
  have hlines : readLines? (fuel + settings.pairs.length + 1) {}
        (settings.pairs.flatMap Pair.line) =
      some ([] ++ settings.pairs.map Pair.entry) := readLines?_pairLines rfl hkeys
  rw [List.nil_append, map_entry_pairs] at hlines
  rw [toToml_eq, readLines?_heading]
  exact hlines

/-- **A settings file holds the settings that were written**, whatever the lead. -/
theorem read?_toToml (settings : Settings) :
    Toml.read? settings.toToml = some settings.entries := by
  have hlines := readLines?_toToml settings (settings.toToml.length - 4)
  have hlength : settings.toToml.length - 4 + 5 = settings.toToml.length + 1 := by
    have hheading : heading.length = 23 := rfl
    have hlong : heading.length ≤ settings.toToml.length := by
      rw [toToml, List.length_append]
      exact Nat.le_add_right _ _
    omega
  have hmark : dropByteOrderMark settings.toToml = settings.toToml := by
    have hhash (rest : List Char) : dropByteOrderMark ('#' :: rest) = '#' :: rest := rfl
    rw [toToml, heading_append, hhash]
  have hsound : Item.areSoundEntries settings.entries = true := by
    simp [entries, Item.areSoundEntries, Item.isSound]
  rw [hlength] at hlines
  simp only [Toml.read?, hmark, hlines, hsound, if_true, Option.bind_eq_bind, Option.bind_some,
    Option.pure_def]

theorem get?_lead (settings : Settings) :
    Table.get? "class-prefix".toList settings.entries = some (.string settings.lead) := by
  rw [entries, Table.get?, if_pos rfl]

theorem get?_highlight (settings : Settings) :
    Table.get? "highlight".toList settings.entries = some (.boolean settings.highlight) := by
  have hkeys : "class-prefix".toList ≠ "highlight".toList := by decide
  rw [entries, Table.get?, if_neg hkeys, Table.get?, if_pos rfl]

theorem ofTable_entries (settings : Settings) : ofTable settings.entries = settings.accepted := by
  rw [ofTable, get?_lead, get?_highlight, Option.bind_some, Option.bind_some, leadOfItem?,
    boolOfItem?, accepted]
  by_cases hvalid : isValidLead settings.lead = true
  · simp [hvalid]
  · simp [hvalid]

theorem ofToml?_toToml (settings : Settings) :
    ofToml? settings.toToml = some settings.accepted := by
  rw [ofToml?, read?_toToml, Option.map_some, ofTable_entries]

/-- Settings that were read once are accepted as they are. -/
theorem Loaded.accepted_eq (h : settings.Loaded) : settings.accepted = settings := by
  have hvalid : isValidLead settings.lead = true := isValidLead_iff.2 h.isClassToken
  rw [accepted, if_pos hvalid]

/-! ## The settings file -/

/-- The settings file after settings have been saved. -/
def savedFile (settings : Settings) : PathTarget := .file (String.ofList settings.toToml).toUTF8

/-- Settings are saved if the settings file is not a directory and the home directory is there.
Without a home directory nothing is written. -/
theorem save_eq_ok_iff {file? saved? : Option PathTarget} :
    settings.save file? = .ok saved? ↔
      file? ≠ some .directory ∧ file? ≠ some .nowhere ∧
        saved? = file?.map fun _ => settings.savedFile := by
  match file? with
  | none => simp [save, eq_comm]
  | some .directory => simp [save, PathTarget.writeText, Except.map]
  | some .nowhere => simp [save, PathTarget.writeText, Except.map]
  | some .nothing => simp [save, PathTarget.writeText, Except.map, savedFile, eq_comm]
  | some (.file bytes) => simp [save, PathTarget.writeText, Except.map, savedFile, eq_comm]

theorem ofFile_savedFile (settings : Settings) :
    ofFile settings.savedFile = .ok settings.accepted := by
  have hread : settings.savedFile.readText = .ok settings.toToml :=
    PathTarget.readText_eq_ok_iff.2 rfl
  simp only [ofFile, hread, ofToml?_toToml]

theorem load_savedFile (settings : Settings) :
    load (some settings.savedFile) = settings.accepted := by
  simp only [load, ofFile_savedFile]

/-- What has been saved to a settings file is loaded again. -/
theorem restored_of_save {file : PathTarget} {saved? : Option PathTarget}
    (h : settings.save (some file) = .ok saved?) :
    ∃ saved, saved? = some saved ∧ ofFile saved = .ok settings.accepted ∧
      load (some saved) = settings.accepted ∧ (settings.Loaded → load (some saved) = settings) := by
  obtain ⟨-, -, rfl⟩ := save_eq_ok_iff.1 h
  refine ⟨_, rfl, ofFile_savedFile settings, load_savedFile settings, fun hloaded => ?_⟩
  rw [load_savedFile, hloaded.accepted_eq]

/-- **Settings are restored.**  What is written of settings is read as the same settings, but for a
lead that is not valid.  So it is if they are saved to a settings file and loaded from it; they can
be saved unless the settings file is a directory or the home directory is missing.  Settings that
come from a settings file are restored exactly.  If no home directory is known, saving succeeds and
writes nothing, and loading gives the defaults. -/
theorem written_settings_restored (settings : Settings) :
    ofToml? settings.toToml =
        some ⟨settings.highlight,
          if isValidLead settings.lead then settings.lead else TokenClass.defaultLead⟩ ∧
      (settings.Loaded → ofToml? settings.toToml = some settings) ∧
      (∀ file : PathTarget,
        ((∃ saved?, settings.save (some file) = .ok saved?) ↔
          file ≠ .directory ∧ file ≠ .nowhere) ∧
        ∀ saved?, settings.save (some file) = .ok saved? →
          ∃ saved, saved? = some saved ∧ ofFile saved = .ok settings.accepted ∧
            load (some saved) = settings.accepted ∧
            (settings.Loaded → load (some saved) = settings)) ∧
      settings.save none = .ok none ∧ load none = {} := by
  refine ⟨ofToml?_toToml settings, fun hloaded => ?_, fun file => ⟨?_, fun _ => restored_of_save⟩,
    rfl, rfl⟩
  · rw [ofToml?_toToml, hloaded.accepted_eq]
  · simp [save_eq_ok_iff]

/-- Settings that come from a settings file are lost if they are saved without a home directory. -/
theorem saved_without_home_lost :
    ¬ ∀ (settings : Settings) (file? saved? : Option PathTarget), settings.Loaded →
      settings.save file? = .ok saved? → load saved? = settings := by
  intro h
  have hread : ofToml? "highlight = false\nclass-prefix = \"hl-\"\n".toList =
      some ⟨false, "hl-".toList⟩ := by decide +kernel
  have hload : load none = ⟨false, "hl-".toList⟩ := h _ none none (.ofText hread) rfl
  exact absurd hload (by decide)

end CodeMarkup.Settings
