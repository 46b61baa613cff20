import DecisionCompiler.Settings.Server
import DecisionCompiler.Proofs.Json.Decoding

/-!
Settings that open a repository, and settings that are written and read again.

A repository can be opened exactly when the place that its source needs is set
(`missing?_eq_none_iff`), and then a repository of this source is opened (`name_of_backend`). The
settings of a server leave no such gap: whatever a server chooses can be opened
(`StoreChoice.missing?_settings`).

Settings of either kind are decoded from their documents. The one condition is that the port of a
server is a port (`ServerSettings.decoder_toJson_iff`).
-/

namespace DecisionCompiler

open Json.Draft Json.Decoder

/-! ### What can be opened -/

namespace RepositorySettings

/-- The place that the source needs is set. -/
def Placed (settings : RepositorySettings) : Prop :=
  match settings.source with
  | .filesystem => ∃ path, settings.basePath = some path
  | .api => ∃ url, settings.apiUrl = some url
  | .memory => True

variable {settings : RepositorySettings} {backend : Backend}

theorem backend_eq_ok_iff : settings.backend = .ok backend ↔
    (settings.source = .filesystem ∧
      ∃ path, settings.basePath = some path ∧ backend = .directory (.ofText path)) ∨
    (settings.source = .api ∧ ∃ url, settings.apiUrl = some url ∧ backend = .remote (.ofUrl url)) ∨
    (settings.source = .memory ∧ backend = .memory) := by
  obtain ⟨source, basePath, apiUrl⟩ := settings
  cases source with
  | filesystem => cases basePath <;> simp [RepositorySettings.backend, eq_comm]
  | api => cases apiUrl <;> simp [RepositorySettings.backend, eq_comm]
  | memory => simp [RepositorySettings.backend, eq_comm]

/-- Nothing is missing exactly when the place is set. -/
theorem missing?_eq_none_iff : settings.missing? = none ↔ settings.Placed := by
  obtain ⟨source, basePath, apiUrl⟩ := settings
  cases source with
  | filesystem => cases basePath <;> simp [missing?, RepositorySettings.backend, Placed]
  | api => cases apiUrl <;> simp [missing?, RepositorySettings.backend, Placed]
  | memory => simp [missing?, RepositorySettings.backend, Placed]

/-- What is opened is a repository of the source. -/
theorem name_of_backend (opened : settings.backend = .ok backend) :
    backend.name = settings.source.name := by
  obtain ⟨source, path, _, rfl⟩ | ⟨source, url, _, rfl⟩ | ⟨source, rfl⟩ :=
    backend_eq_ok_iff.mp opened
  all_goals
    rw [source]
    rfl

end RepositorySettings

/-- Whatever a server chooses can be opened. -/
theorem StoreChoice.missing?_settings (choice : StoreChoice) :
    choice.settings.missing? = none := by
  apply RepositorySettings.missing?_eq_none_iff.mpr
  cases choice with
  | directory path => exact ⟨path, rfl⟩
  | remote url => exact ⟨url, rfl⟩
  | memory => trivial

/-! ### Documents -/

theorem RepositorySource.nameDecoder_name (source : RepositorySource) :
    RepositorySource.nameDecoder (.string source.name) = .ok source := by
  cases source <;> rfl

theorem RepositorySettings.decoder_toJson (settings : RepositorySettings) :
    RepositorySettings.decoder (ofJson settings.toJson) = .ok settings := by
  obtain ⟨source, basePath, apiUrl⟩ := settings
  have named : RepositorySource.decoder (.string source.name) = .ok source :=
    source.nameDecoder_name
  cases basePath <;> cases apiUrl <;>
    simp [RepositorySettings.decoder, RepositorySettings.toJson, ofJson, ofMembers, record, members,
      Progress.ofMembers, Progress.take, Field.optional, Json.Decoder.optional,
      Json.Decoder.string, Json.Problem.raise, named]

theorem StoreChoice.decoder_toJson (choice : StoreChoice) :
    StoreChoice.decoder (ofJson choice.toJson) = .ok choice := by
  cases choice with
  | directory path => rfl
  | remote url => rfl
  | memory => rfl

theorem Compiler.decoder_of_option (compiler : Compiler) :
    Compiler.decoder (.object [("reject_unknown_rules", .bool compiler.rejectUnknownRules)] none) =
      .ok compiler := by
  rfl

theorem Json.Decoder.natBelow_eq_ok_iff {draft : Json.Draft} {bound n : Nat} :
    natBelow bound draft = .ok n ↔ draft = .number (.integer n) ∧ n < bound := by
  constructor
  · intro decoded
    unfold natBelow at decoded
    split at decoded
    · split at decoded
      · rename_i k inside
        obtain rfl := Except.ok.inj decoded
        refine ⟨?_, by omega⟩
        rw [Int.toNat_of_nonneg inside.1]
      · exact nomatch decoded
    · unfold refuse at decoded
      split at decoded <;> exact nomatch decoded
  · rintro ⟨rfl, inside⟩
    simp [natBelow, inside]

namespace ServerSettings

variable {settings : ServerSettings} {draft : Json.Draft}

/-- Whatever settings are decoded from, their port is one. -/
theorem port_lt_of_decoder (decoded : ServerSettings.decoder draft = .ok settings) :
    settings.port < portBound := by
  refine Json.record_keeps (P := fun settings : ServerSettings => settings.port < portBound)
    ?_ ?_ decoded
  · decide
  · intro field mem before draft after kept filed
    simp only [List.mem_cons, List.not_mem_nil, or_false] at mem
    rcases mem with rfl | rfl | rfl | rfl | rfl
    all_goals obtain ⟨value, read, rfl⟩ := Outcome.map_eq_ok_iff.mp filed
    case inr.inl => exact (natBelow_eq_ok_iff.mp read).2
    all_goals exact kept

/-- The readers of the port, the repository and the options matter only for what they read. -/
theorem record_toJson {readPort : Json.Decoder Nat} {readChoice : Json.Decoder StoreChoice}
    {readOptions : Json.Decoder Compiler}
    (port : readPort (.number (.integer settings.port)) = .ok settings.port)
    (choice : readChoice (ofJson settings.repository.toJson) = .ok settings.repository)
    (options : readOptions (.object
      [("reject_unknown_rules", .bool settings.compiler.rejectUnknownRules)] none) =
        .ok settings.compiler) :
    record
      [.optional "host" string fun settings host => { settings with host },
       .optional "port" readPort fun settings port => { settings with port },
       .optional "repository" readChoice fun settings repository => { settings with repository },
       .optional "log_level" string fun settings logLevel => { settings with logLevel },
       .optional "compiler" readOptions fun settings compiler => { settings with compiler }]
      ({} : ServerSettings) (ofJson settings.toJson) = .ok settings := by
  simp only [toJson, ofJson, ofMembers]
  simp [record, members, Progress.ofMembers, Progress.take, Field.optional, Json.Decoder.string,
    Json.Problem.raise, port, choice, options]

theorem decoder_toJson (bounded : settings.port < portBound) :
    ServerSettings.decoder (ofJson settings.toJson) = .ok settings := by
  have port : natBelow portBound (.number (.integer settings.port)) = .ok settings.port :=
    natBelow_eq_ok_iff.mpr ⟨rfl, bounded⟩
  exact record_toJson port settings.repository.decoder_toJson settings.compiler.decoder_of_option

/-- **Settings are decoded from their document exactly if their port is one.** -/
theorem decoder_toJson_iff :
    ServerSettings.decoder (ofJson settings.toJson) = .ok settings ↔ settings.port < portBound :=
  ⟨port_lt_of_decoder, decoder_toJson⟩

end ServerSettings

end DecisionCompiler
