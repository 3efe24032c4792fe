import KernelLint.Config.Yaml

/-!
# Configurations and their documents

A configuration is its preset and its settings, and every setting can be overridden by a document.
So a configuration is settled by the preset a document names and by what the document says of each
setting; and the document that a configuration writes says something of every setting, which makes
the preset's own values disappear. The format of the texts is a parameter.
-/

namespace KernelLint

/-- What a document can say of a configuration, by the type of the value. -/
inductive Setting : Type → Type
  | maxInlineDepth : Setting Nat
  | annotationSuffixes : Setting (List String)
  | contextType : Setting String
  | trustedNamespace : Setting String
  | vectorTypes : Setting (List String)
  | taskGraphType : Setting String
  | taskMethod : Setting String
  | disabledRules : Setting (List String)
  | parallel : Setting Bool

namespace Setting

variable {α : Type}

/-- The value in a configuration. -/
def value : Setting α → Config → α
  | .maxInlineDepth, c => c.maxInlineDepth
  | .annotationSuffixes, c => c.annotationSuffixes
  | .contextType, c => c.contextType
  | .trustedNamespace, c => c.trustedNamespace
  | .vectorTypes, c => c.vectorTypes
  | .taskGraphType, c => c.taskGraphType
  | .taskMethod, c => c.taskMethod
  | .disabledRules, c => c.disabledRules
  | .parallel, c => c.parallel

/-- The value that overrides give, if any. -/
def override? : Setting α → Overrides → Option α
  | .maxInlineDepth, o => o.maxInlineDepth
  | .annotationSuffixes, o => o.annotationSuffixes
  | .contextType, o => o.contextType
  | .trustedNamespace, o => o.trustedNamespace
  | .vectorTypes, o => o.vectorTypes
  | .taskGraphType, o => o.taskGraphType
  | .taskMethod, o => o.taskMethod
  | .disabledRules, o => o.disabledRules
  | .parallel, o => o.parallel

/-- The value that a document gives, if any. -/
def given? (s : Setting α) (d : ConfigDocument) : Option α :=
  d.overrides.bind s.override?

@[simp] theorem value_override (s : Setting α) (c : Config) (o : Overrides) :
    s.value (c.override o) = (s.override? o).getD (s.value c) := by
  cases s <;> rfl

@[simp] theorem override?_empty (s : Setting α) : s.override? {} = none := by
  cases s <;> rfl

theorem given?_eq (s : Setting α) (d : ConfigDocument) :
    s.given? d = s.override? (d.overrides.getD {}) := by
  unfold given?
  cases d.overrides <;> simp

@[simp] theorem given?_toDocument (s : Setting α) (c : Config) :
    s.given? c.toDocument = some (s.value c) := by
  cases s <;> rfl

end Setting

theorem Config.eq_of_settings {c d : Config} (hpreset : c.preset = d.preset)
    (hsettings : ∀ (α : Type) (s : Setting α), s.value c = s.value d) : c = d := by
  obtain ⟨preset, depth, suffixes, context, trusted, vectors, graph, method, disabled,
    parallel⟩ := c
  have hdepth : depth = d.maxInlineDepth := hsettings _ .maxInlineDepth
  have hsuffixes : suffixes = d.annotationSuffixes := hsettings _ .annotationSuffixes
  have hcontext : context = d.contextType := hsettings _ .contextType
  have htrusted : trusted = d.trustedNamespace := hsettings _ .trustedNamespace
  have hvectors : vectors = d.vectorTypes := hsettings _ .vectorTypes
  have hgraph : graph = d.taskGraphType := hsettings _ .taskGraphType
  have hmethod : method = d.taskMethod := hsettings _ .taskMethod
  have hdisabled : disabled = d.disabledRules := hsettings _ .disabledRules
  have hparallel : parallel = d.parallel := hsettings _ .parallel
  subst hpreset hdepth hsuffixes hcontext htrusted hvectors hgraph hmethod hdisabled hparallel
  rfl

/-! ## The preset of a document -/

/-- The document names the preset, in any mixture of cases, or names none and the preset is the
default. -/
def ConfigDocument.Names (d : ConfigDocument) (preset : Preset) : Prop :=
  match d.preset with
  | none => preset = .balanced
  | some name => name.toList.map Char.toLower = preset.label.toList

namespace Preset

theorem parse_eq_ok_iff {name : String} {preset : Preset} :
    Preset.parse name = .ok preset ↔ name.toList.map Char.toLower = preset.label.toList := by
  have hfolded : name.toList.map Char.toLower = preset.label.toList ↔
      preset.label = String.ofList (name.toList.map Char.toLower) := by
    rw [eq_comm, ← String.toList_inj, String.toList_ofList]
  rw [hfolded, Preset.parse]
  constructor
  · intro h
    split at h
    · rename_i found hfound
      cases h
      simpa using List.find?_some hfound
    · cases h
  · intro h
    have hfound : all.find? (·.label = String.ofList (name.toList.map Char.toLower)) =
        some preset := by
      rw [← h]
      cases preset <;> rfl
    rw [hfound]

end Preset

theorem Config.documentPreset_eq_ok_iff {d : ConfigDocument} {preset : Preset} :
    Config.documentPreset d = .ok preset ↔ d.Names preset := by
  unfold documentPreset ConfigDocument.Names
  cases d.preset with
  | none => simp [eq_comm]
  | some name => exact Preset.parse_eq_ok_iff

/-! ## Reading documents -/

/-- The format reads what it writes of the document as the document itself. -/
def DocumentFormat.ReadsBack (f : DocumentFormat) (d : ConfigDocument) : Prop :=
  ∀ text, f.write d = some text → f.read text = some d

theorem DocumentFormat.yaml_readsBack {d : ConfigDocument}
    (hread : ConfigDocument.parse? d.render = some d) : DocumentFormat.yaml.ReadsBack d := by
  intro text hwrite
  cases hwrite
  exact hread

namespace Config

variable {c : Config} {d : ConfigDocument} {preset : Preset}

theorem ofDocument_eq (hversion : d.version = some 1) (hpreset : d.Names preset) :
    ofDocument d =
      ((ofPreset preset).override (d.overrides.getD {})).validate.map
        fun _ => (ofPreset preset).override (d.overrides.getD {}) := by
  rw [ofDocument, hversion]
  simp only [ne_eq, not_true_eq_false, if_false, documentPreset_eq_ok_iff.mpr hpreset]
  show ((ofPreset preset).override (d.overrides.getD {})).validate.bind (fun _ => pure _) = _
  cases ((ofPreset preset).override (d.overrides.getD {})).validate <;> rfl

/-- The settings of a configuration are those that the document gives and, where it gives none, the
preset's. -/
def Follows (c : Config) (d : ConfigDocument) (preset : Preset) : Prop :=
  c.preset = preset ∧ ∀ (α : Type) (s : Setting α),
    s.value c = (s.given? d).getD (s.value (ofPreset preset))

theorem follows_iff : c.Follows d preset ↔ c = (ofPreset preset).override
    (d.overrides.getD {}) := by
  constructor
  · rintro ⟨hpreset, hsettings⟩
    refine eq_of_settings hpreset fun α s => ?_
    rw [hsettings α s, Setting.value_override, Setting.given?_eq]
  · rintro rfl
    refine ⟨rfl, fun α s => ?_⟩
    rw [Setting.value_override, Setting.given?_eq]

theorem ofDocument_eq_ok_iff : ofDocument d = .ok c ↔
    d.version = some 1 ∧ ∃ preset, d.Names preset ∧ c.Follows d preset ∧ c.validate = .ok () := by
  constructor
  · intro h
    obtain ⟨hversion, preset, hpreset⟩ : d.version = some 1 ∧ ∃ preset, d.Names preset := by
      unfold ofDocument at h
      split at h
      · cases h
      · rename_i version hversion
        split at h
        · cases h
        · rename_i hone
          cases hpreset : documentPreset d with
          | error e =>
            rw [hpreset] at h
            cases h
          | ok preset =>
              exact ⟨by rw [hversion, Decidable.not_not.mp hone], preset,
                documentPreset_eq_ok_iff.mp hpreset⟩
    rw [ofDocument_eq hversion hpreset] at h
    cases hvalid : ((ofPreset preset).override (d.overrides.getD {})).validate with
    | error e =>
      rw [hvalid] at h
      cases h
    | ok u =>
      rw [hvalid] at h
      cases h
      exact ⟨hversion, preset, hpreset, follows_iff.mpr rfl, hvalid⟩
  · rintro ⟨hversion, preset, hpreset, hfollows, hvalid⟩
    obtain rfl := follows_iff.mp hfollows
    rw [ofDocument_eq hversion hpreset, hvalid]
    rfl

/-! ## Writing a configuration and reading it again -/

theorem follows_toDocument (c : Config) : c.Follows c.toDocument c.preset :=
  ⟨rfl, fun α s => by rw [Setting.given?_toDocument, Option.getD_some]⟩

theorem names_toDocument (c : Config) : c.toDocument.Names c.preset := by
  show c.preset.label.toList.map Char.toLower = c.preset.label.toList
  cases c.preset <;> decide

theorem ofDocument_toDocument (c : Config) :
    ofDocument c.toDocument = c.validate.map fun _ => c := by
  have hsame : (ofPreset c.preset).override (c.toDocument.overrides.getD {}) = c :=
    (follows_iff.mp c.follows_toDocument).symm
  rw [ofDocument_eq rfl c.names_toDocument, hsame]

theorem readFrom_of_read {f : DocumentFormat} {text : String} (hread : f.read text = some d) :
    readFrom f text = ofDocument d := by
  rw [readFrom, hread]

theorem writeTo_of_write {f : DocumentFormat} {text : String}
    (hwrite : f.write c.toDocument = some text) : c.writeTo f = .ok text := by
  rw [writeTo, hwrite]

/-- **Configurations make the round trip in every format.** When a format reads back what it writes
of a configuration's document, the text of the configuration is read as the configuration itself, or
refused with the fault of the configuration. And whatever text is read as a configuration, in any
format: it is a document of the present version, the configuration is valid, and each of its
settings is the one that the document gives or, where it gives none, that of the preset that the
document names. -/
theorem readFrom_writeTo_and_readFrom_ok :
    (∀ (f : DocumentFormat) (c : Config), f.ReadsBack c.toDocument →
      ∀ text, f.write c.toDocument = some text →
        c.writeTo f = .ok text ∧
        (c.validate = .ok () → readFrom f text = .ok c) ∧
        ∀ e, c.validate = .error e → readFrom f text = .error e) ∧
    ∀ (f : DocumentFormat) (text : String) (c : Config), readFrom f text = .ok c ↔
      ∃ d preset, f.read text = some d ∧ d.version = some 1 ∧ d.Names preset ∧
        c.validate = .ok () ∧ c.preset = preset ∧
        ∀ (α : Type) (s : Setting α), s.value c = (s.given? d).getD
          (s.value (ofPreset preset)) := by
  refine ⟨fun f c hback text hwrite => ⟨writeTo_of_write hwrite, ?_⟩, fun f text c => ?_⟩
  · have hread : readFrom f text = c.validate.map fun _ => c := by
      rw [readFrom_of_read (hback text hwrite), ofDocument_toDocument]
    rw [hread]
    constructor
    · intro hvalid
      rw [hvalid]
      rfl
    · intro e hfault
      rw [hfault]
      rfl
  · cases hdocument : f.read text with
    | none => simp [readFrom, hdocument]
    | some d =>
      rw [readFrom_of_read hdocument]
      simp only [ofDocument_eq_ok_iff, Option.some.injEq, exists_and_left, exists_eq_left', Follows]
      constructor
      · rintro ⟨hversion, preset, hpreset, ⟨hsame, hsettings⟩, hvalid⟩
        exact ⟨hversion, preset, hpreset, hvalid, hsame, hsettings⟩
      · rintro ⟨hversion, preset, hpreset, hvalid, hsame, hsettings⟩
        exact ⟨hversion, preset, hpreset, ⟨hsame, hsettings⟩, hvalid⟩

/-- A configuration that differs from its preset in every setting. -/
def unlikePreset : Config where
  preset := .fast
  maxInlineDepth := 2
  annotationSuffixes := ["P"]
  contextType := "C"
  trustedNamespace := "t"
  vectorTypes := []
  taskGraphType := ""
  taskMethod := "g"
  disabledRules := ["throw"]
  parallel := true

theorem yaml_readsBack_unlikePreset : DocumentFormat.yaml.ReadsBack unlikePreset.toDocument :=
  DocumentFormat.yaml_readsBack (by decide +kernel)

/-- YAML writes it and reads it back. -/
theorem unlikePreset_round_trip :
    unlikePreset.writeTo .yaml = .ok unlikePreset.render ∧
      readFrom .yaml unlikePreset.render = .ok unlikePreset := by
  obtain ⟨hwritten, hvalid, -⟩ := readFrom_writeTo_and_readFrom_ok.1 .yaml unlikePreset
    yaml_readsBack_unlikePreset unlikePreset.render rfl
  exact ⟨hwritten, hvalid rfl⟩

end Config

end KernelLint
