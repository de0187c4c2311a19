import Mathlib.Algebra.Group.Nat.Defs
import Recast.Proofs.Toml.Reader

/-!
# Configurations are read back

The text of a configuration is two sections, one for detection and one for logging, and each of
their settings has a line. What is read from it is the configuration, with a setting that was not
written taken to be unset.

* `DetectConfig.fields`, `LoggingConfig.fields`: the lines of the settings;
* `Config.toList_toText`: the text is these two sections;
* `Config.ofText?_level`: a text that only sets the level is read;
* `read_written_config`: **a configuration is read back from its text.**
-/

namespace Recast

open Toml (Field IsBare sectionChars)

/-! ## 1. Settings -/

/-- The settings of detection. -/
def DetectConfig.fields (c : DetectConfig) : List Field :=
  ⟨"renames", (boolText c.renames).toList, .bool c.renames⟩ ::
    ⟨"type_changes", (boolText c.typeChanges).toList, .bool c.typeChanges⟩ ::
      (c.threads.map fun n => ⟨"threads", Nat.toDigits 10 n, .integer n⟩).toList

/-- The settings of logging. -/
def LoggingConfig.fields (c : LoggingConfig) : List Field :=
  [⟨"level", Toml.quoteString c.level.toList, .string c.level⟩,
    ⟨"json", (boolText c.json).toList, .bool c.json⟩]

theorem DetectConfig.reads_fields {c : DetectConfig}
    (h : ∀ n ∈ c.threads, Toml.fits n = true) : ∀ f ∈ c.fields, f.Reads := by
  intro f hf
  rw [fields, List.mem_cons, List.mem_cons, Option.mem_toList, Option.map_eq_some_iff] at hf
  obtain rfl | rfl | ⟨n, hn, rfl⟩ := hf
  · exact ⟨(by decide : IsBare "renames"), Toml.spells_bool _⟩
  · exact ⟨(by decide : IsBare "type_changes"), Toml.spells_bool _⟩
  · exact ⟨(by decide : IsBare "threads"), Toml.spells_integer (h n hn)⟩

theorem LoggingConfig.reads_fields (c : LoggingConfig) : ∀ f ∈ c.fields, f.Reads := by
  intro f hf
  rw [fields, List.mem_cons, List.mem_singleton] at hf
  obtain rfl | rfl := hf
  · exact ⟨(by decide : IsBare "level"), Toml.spells_string _⟩
  · exact ⟨(by decide : IsBare "json"), Toml.spells_bool _⟩

/-- Nothing is set twice. -/
theorem DetectConfig.nodup_fields (c : DetectConfig) :
    ((c.fields.map Field.entry).map Prod.fst).Nodup := by
  obtain ⟨renames, typeChanges, threads⟩ := c
  cases threads with
  | none => exact (by decide : ["renames", "type_changes"].Nodup)
  | some n => exact (by decide : ["renames", "type_changes", "threads"].Nodup)

theorem LoggingConfig.nodup_fields (c : LoggingConfig) :
    ((c.fields.map Field.entry).map Prod.fst).Nodup :=
  (by decide : ["level", "json"].Nodup)

/-- The settings of detection make them up, set or not. -/
theorem DetectConfig.decode?_fields (c : DetectConfig) :
    DetectConfig.decode? (some (.table .defined (c.fields.map Field.entry))) = some c := by
  obtain ⟨renames, typeChanges, threads⟩ := c
  cases threads with
  | none => rfl
  | some n => rfl

theorem LoggingConfig.decode?_fields (c : LoggingConfig) :
    LoggingConfig.decode? (some (.table .defined (c.fields.map Field.entry))) = some c := by
  rfl

theorem Config.decode?_fields (c : Config) : Config.decode? (.table .defined
    [("detect", .table .defined (c.detect.fields.map Field.entry)),
      ("logging", .table .defined (c.logging.fields.map Field.entry))]) = some c := by
  show (DetectConfig.decode? (some _)).bind (fun detect =>
    (LoggingConfig.decode? (some _)).bind fun logging => some ⟨detect, logging⟩) = some c
  rw [DetectConfig.decode?_fields, LoggingConfig.decode?_fields]
  rfl

/-! ## 2. Sections -/

theorem toList_keyLine (key value : String) (v : Toml) :
    (keyLine key value).toList = Field.line ⟨key, value.toList, v⟩ ++ ['\n'] := by
  rw [keyLine, String.toList_append, String.toList_append, String.toList_append]
  rfl

/-- The text of a configuration is a section for detection and one for logging. -/
theorem Config.toList_toText (c : Config) : c.toText.toList =
    sectionChars "detect" c.detect.fields ++
      '\n' :: '\n' :: (sectionChars "logging" c.logging.fields ++ ['\n']) := by
  have hdetect : "[detect]\n".toList = '[' :: "detect".toList ++ [']', '\n'] := by decide
  have hlogging : "\n[logging]\n".toList = '\n' :: '[' :: "logging".toList ++ [']', '\n'] := by
    decide
  obtain ⟨⟨renames, typeChanges, threads⟩, logging⟩ := c
  rw [toText, String.toList_append, String.toList_append, String.toList_append,
    String.toList_append, String.toList_append, String.toList_append, hdetect, hlogging,
    toList_keyLine _ _ (.bool renames), toList_keyLine _ _ (.bool typeChanges),
    toList_keyLine _ _ (.string logging.level), toList_keyLine _ _ (.bool logging.json),
    String.toList_ofList]
  cases threads with
  | none => simp [sectionChars, Toml.linesOf, DetectConfig.fields, LoggingConfig.fields]
  | some n =>
    simp [sectionChars, Toml.linesOf, DetectConfig.fields, LoggingConfig.fields,
      toList_keyLine _ _ (.integer n)]

/-! ## 3. Round trip -/

/-- What is read from the text is a table with two tables, which hold the settings. -/
theorem Config.parse?_toText {c : Config} (h : ∀ n ∈ c.detect.threads, Toml.fits n = true) :
    Toml.parse? c.toText = some (.table .defined
      [("detect", .table .defined (c.detect.fields.map Field.entry)),
        ("logging", .table .defined (c.logging.fields.map Field.entry))]) := by
  let detect := c.detect.fields.map Field.entry
  let logging := c.logging.fields.map Field.entry
  have hdetect (rest : List Char) : Toml.statements? ⟨.table .defined [], []⟩
      ([] ++ (sectionChars "detect" c.detect.fields ++ '\n' :: rest)) =
        Toml.statements? (.within [] "detect" detect) ('\n' :: rest) :=
    Toml.statements?_section (List.forall_mem_nil _) (by decide) List.not_mem_nil
      (DetectConfig.reads_fields h) c.detect.nodup_fields rest
  have hlogging (rest : List Char) : Toml.statements? (.within [] "detect" detect)
      (['\n', '\n'] ++ (sectionChars "logging" c.logging.fields ++ '\n' :: rest)) =
        Toml.statements? (.within [("detect", .table .defined detect)] "logging" logging)
          ('\n' :: rest) :=
    Toml.statements?_section (by simp) (by decide) (by simp) c.logging.reads_fields
      c.logging.nodup_fields rest
  have hread : Toml.statements? ⟨Toml.root, []⟩ c.toText.toList =
      some (.within [("detect", .table .defined detect)] "logging" logging) := by
    rw [toList_toText]
    refine (hdetect _).trans ((hlogging []).trans ?_)
    rw [Toml.statements?]
    rfl
  have hmark : Toml.dropMark c.toText.toList = c.toText.toList := by
    rw [toList_toText]
    rfl
  rw [Toml.parse?, hmark, hread]
  rfl

/-- A text that sets the level and nothing else leaves every other setting as it is by default. -/
theorem Config.ofText?_level (level : String) :
    Config.ofText? ("[logging]\n" ++
      keyLine "level" (String.ofList (Toml.quoteString level.toList))) =
      some { logging := { level } } := by
  let f : Field := ⟨"level", Toml.quoteString level.toList, .string level⟩
  have hlist : ("[logging]\n" ++
      keyLine "level" (String.ofList (Toml.quoteString level.toList))).toList =
        [] ++ (sectionChars "logging" [f] ++ ['\n']) := by
    have hheader : "[logging]\n".toList = '[' :: "logging".toList ++ [']', '\n'] := by decide
    rw [String.toList_append, hheader, toList_keyLine _ _ (.string level), String.toList_ofList]
    simp [sectionChars, Toml.linesOf, f]
  have hread : Toml.statements? ⟨Toml.root, []⟩ ([] ++ (sectionChars "logging" [f] ++ ['\n'])) =
      some (.within [] "logging" [f.entry]) := by
    have hf : ∀ g ∈ [f], g.Reads :=
      List.forall_mem_singleton.2 ⟨(by decide : IsBare "level"), Toml.spells_string level⟩
    have hkeys : (([f].map Field.entry).map Prod.fst).Nodup := (by decide : ["level"].Nodup)
    refine (Toml.statements?_section (List.forall_mem_nil _) (by decide) List.not_mem_nil hf hkeys
      []).trans ?_
    rw [Toml.statements?]
    rfl
  have hmark : Toml.dropMark ([] ++ (sectionChars "logging" [f] ++ ['\n'])) =
      [] ++ (sectionChars "logging" [f] ++ ['\n']) := rfl
  rw [Config.ofText?, Toml.parse?, hlist, hmark, hread]
  rfl

/-- **A configuration is read back from its text**, whatever the characters of its level. It has a
    text exactly when its number of threads, if it is set, is an integer of sixty-four bits. -/
theorem read_written_config (c : Config) :
    (∃ text, c.toText? = some text ∧ Config.ofText? text = some c) ↔
      ∀ n ∈ c.detect.threads, n ≤ 2 ^ 63 - 1 := by
  have hfits : ∀ n : Nat, Toml.fits n = true ↔ n ≤ 2 ^ 63 - 1 := by
    intro n
    rw [Toml.fits, Bool.and_eq_true, decide_eq_true_eq, decide_eq_true_eq]
    omega
  simp only [← hfits]
  have htext : c.toText? = some c.toText ↔ ∀ n ∈ c.detect.threads, Toml.fits n = true := by
    rw [Config.toText?, Option.ite_none_right_eq_some, and_iff_left rfl, Option.all_eq_true]
    rfl
  constructor
  · rintro ⟨text, h, -⟩
    rw [← htext, Config.toText?, if_pos (Option.ite_none_right_eq_some.1 h).1]
  · intro h
    refine ⟨c.toText, htext.2 h, ?_⟩
    rw [Config.ofText?, Config.parse?_toText h, Option.bind_some, Config.decode?_fields]

end Recast
